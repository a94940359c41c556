import Mathlib.Algebra.BigOperators.Group.Multiset.Basic
import Mathlib.Tactic.Common

/-!
What a priority queue is for, over a multiset of elements and a strict ranking: a
pop hands out an element that no other outranks, a removal the element asked for.
Equal ranks are not ordered, so the specification is a relation.
-/

namespace Msm8974.PriorityQueue
universe u v
variable {α : Type u} {σ : Type v}

inductive Op (α : Type u)
  | push (a : α)
  | pop
  | remove (a : α)

/-- `a` is among the elements and none of them outranks it. -/
def Highest (outRanks : α → α → Prop) (s : Multiset α) (a : α) : Prop :=
  a ∈ s ∧ ∀ b ∈ s, ¬ outRanks b a

/-- The operation may turn `s` into `s'` and hand out `out`. -/
def Serves (outRanks : α → α → Prop) (s : Multiset α) :
    Op α → Option α → Multiset α → Prop
  | .push a, out, s' => out = none ∧ s' = a ::ₘ s
  | .pop, none, s' => s = 0 ∧ s' = 0
  | .pop, some a, s' => Highest outRanks s a ∧ s = a ::ₘ s'
  | .remove a, none, s' => a ∉ s ∧ s' = s
  | .remove a, some b, s' => b = a ∧ s = a ::ₘ s'

def Op.pushed : Op α → Multiset α
  | .push a => {a}
  | .pop | .remove _ => 0

def pushed (ops : List (Op α)) : Multiset α := (ops.map Op.pushed).sum

/-- An implementation run over a list of operations, with what it handed out. -/
def exec (run : σ → Op α → Option α × σ) : σ → List (Op α) → List α × σ
  | s, [] => ([], s)
  | s, op :: ops =>
      let (out, s') := run s op
      let (outs, t) := exec run s' ops
      (out.toList ++ outs, t)

theorem Serves.conserves {outRanks : α → α → Prop} {s s' : Multiset α} {op : Op α}
    {out : Option α} (h : Serves outRanks s op out s') :
    (out.toList : Multiset α) + s' = op.pushed + s := by
  cases op with
  | push a =>
      obtain ⟨rfl, rfl⟩ := h
      simp [Op.pushed, Multiset.singleton_add]
  | pop =>
      cases out with
      | none =>
          obtain ⟨rfl, rfl⟩ := h
          rfl
      | some a =>
          obtain ⟨-, rfl⟩ := h
          simp [Op.pushed, Multiset.singleton_add]
  | remove a =>
      cases out with
      | none =>
          obtain ⟨-, rfl⟩ := h
          rfl
      | some b =>
          obtain ⟨rfl, rfl⟩ := h
          simp [Op.pushed, Multiset.singleton_add]

/-- An implementation that serves every operation from its invariant neither loses nor
invents an element over a run. -/
theorem exec_conserves {outRanks : α → α → Prop} {run : σ → Op α → Option α × σ}
    {I : σ → Prop} {elements : σ → Multiset α}
    (keeps : ∀ s op, I s → I (run s op).2)
    (serves : ∀ s op, I s → Serves outRanks (elements s) op (run s op).1 (elements (run s op).2))
    (ops : List (Op α)) (s : σ) (initial : I s) :
    I (exec run s ops).2 ∧
      ((exec run s ops).1 : Multiset α) + elements (exec run s ops).2 =
        pushed ops + elements s := by
  induction ops generalizing s with
  | nil => exact ⟨initial, rfl⟩
  | cons op ops ih =>
      obtain ⟨inv, rest⟩ := ih (run s op).2 (keeps s op initial)
      have first := (serves s op initial).conserves
      refine ⟨inv, ?_⟩
      calc ((exec run s (op :: ops)).1 : Multiset α) + elements (exec run s (op :: ops)).2
          = ((run s op).1.toList : Multiset α) +
              (((exec run (run s op).2 ops).1 : Multiset α) +
                elements (exec run (run s op).2 ops).2) := by
            simp only [exec, ← Multiset.coe_add, add_assoc]
        _ = pushed ops + (((run s op).1.toList : Multiset α) + elements (run s op).2) := by
            rw [rest, add_left_comm]
        _ = pushed (op :: ops) + elements s := by
            rw [first, ← add_assoc, add_comm (pushed ops)]
            simp [pushed]

end Msm8974.PriorityQueue
