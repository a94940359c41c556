import Mathlib.Tactic.Common

/-!
Loops that need not end, over memory that need not be there. A round goes on to the next one or
ends the loop, or reads or writes outside the memory; then the loop has no result. It ends with a
result if it does so with enough fuel.
-/

namespace Msm8974.Loops
universe u v
variable {σ : Type u} {ρ : Type v}

/-- What a round comes to. -/
inductive Next (σ : Type u) (ρ : Type v)
  | again (s : σ)
  | done (r : ρ)

/-- At most `fuel` rounds. -/
def run (round : σ → Option (Next σ ρ)) : Nat → σ → Option ρ
  | 0, _ => none
  | fuel + 1, s =>
      match round s with
      | none => none
      | some (.again t) => run round fuel t
      | some (.done r) => some r

def Ends (round : σ → Option (Next σ ρ)) (s : σ) (r : ρ) : Prop := ∃ fuel, run round fuel s = some r

variable {round : σ → Option (Next σ ρ)} {s t : σ} {r r' : ρ}

theorem ends_of_done (h : round s = some (.done r)) : Ends round s r :=
  ⟨1, by rw [run, h]⟩

theorem not_ends_of_outside (h : round s = none) : ¬ Ends round s r := by
  rintro ⟨fuel, ended⟩
  cases fuel with
  | zero => cases ended
  | succ fuel =>
      rw [run, h] at ended
      cases ended

theorem ends_done_iff (h : round s = some (.done r')) : Ends round s r ↔ r' = r := by
  constructor
  · rintro ⟨fuel, ended⟩
    cases fuel with
    | zero => cases ended
    | succ fuel =>
        rw [run, h] at ended
        exact Option.some.inj ended
  · rintro rfl
    exact ends_of_done h

theorem ends_again_iff (h : round s = some (.again t)) : Ends round s r ↔ Ends round t r := by
  constructor
  · rintro ⟨fuel, ended⟩
    cases fuel with
    | zero => cases ended
    | succ fuel =>
        rw [run, h] at ended
        exact ⟨fuel, ended⟩
  · rintro ⟨fuel, ended⟩
    refine ⟨fuel + 1, ?_⟩
    rwa [run, h]

/-- Induction over the rounds of a loop that ends. -/
theorem Ends.rec_on {P : σ → Prop} (ends : Ends round s r)
    (done : ∀ s, round s = some (.done r) → P s)
    (again : ∀ s t, round s = some (.again t) → Ends round t r → P t → P s) : P s := by
  obtain ⟨fuel, ended⟩ := ends
  induction fuel generalizing s with
  | zero => cases ended
  | succ fuel ih =>
      rw [run] at ended
      split at ended
      next => cases ended
      next t h => exact again s t h ⟨fuel, ended⟩ (ih ended)
      next r' h =>
        obtain rfl := Option.some.inj ended
        exact done s h

/-- The result does not depend on the fuel. -/
theorem Ends.unique (ends : Ends round s r) (ends' : Ends round s r') : r = r' := by
  refine ends.rec_on (P := fun s => Ends round s r' → r = r') ?_ ?_ ends'
  · intro s h ends'
    exact (ends_done_iff h).mp ends'
  · intro s t h _ ih ends'
    exact ih ((ends_again_iff h).mp ends')

/-- A loop that each round of which stays among states that do not end it never ends. -/
theorem not_ends_of_invariant {I : σ → Prop}
    (stays : ∀ s, I s → round s = none ∨ ∃ t, round s = some (.again t) ∧ I t)
    (initial : I s) : ¬ Ends round s r := by
  intro ends
  refine ends.rec_on (P := fun s => ¬ I s) ?_ ?_ initial
  · intro s h inv
    obtain outside | ⟨t, more, -⟩ := stays s inv
    · cases outside.symm.trans h
    · cases more.symm.trans h
  · intro s t h _ ih inv
    obtain outside | ⟨t', more, inv'⟩ := stays s inv
    · cases outside.symm.trans h
    · obtain rfl : t' = t := by injection Option.some.inj (more.symm.trans h)
      exact ih inv'

section Memory
variable {α : Type u}

/-- A write to memory, defined inside it only. -/
def store (memory : List α) (i : Nat) (x : α) : Option (List α) :=
  if i < memory.length then some (memory.set i x) else none

theorem store_append (before after : List α) (old x : α) :
    store (before ++ old :: after) before.length x = some (before ++ x :: after) := by
  rw [store, if_pos (by simp), List.set_append_right _ _ (Nat.le_refl _), Nat.sub_self]
  rfl

theorem getElem?_append_cons (before after : List α) (x : α) :
    (before ++ x :: after)[before.length]? = some x := by
  rw [List.getElem?_append_right (Nat.le_refl _), Nat.sub_self]
  rfl

theorem store_of_lt {memory : List α} {i : Nat} (inside : i < memory.length) (x : α) :
    store memory i x = some (memory.take i ++ x :: memory.drop (i + 1)) := by
  rw [store, if_pos inside, List.set_eq_take_append_cons_drop, if_pos inside]

end Memory
end Msm8974.Loops
