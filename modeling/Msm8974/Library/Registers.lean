import Mathlib.Tactic.Common

/-!
The last value that a log writes to each register. An entry of the log writes one register, clears
them all, or does neither. Entries that leave a register alone can be left out.
-/

namespace Msm8974.Registers
universe u v
variable {κ : Type u} {ν : Type v}

inductive Entry (κ : Type u) (ν : Type v)
  | clear
  | write (k : κ) (v : ν)
  | other
deriving DecidableEq

variable [DecidableEq κ] {k : κ} {v : ν} {e : Entry κ ν} {xs ys : List (Entry κ ν)}

def Entry.apply (k : κ) (held : Option ν) : Entry κ ν → Option ν
  | .clear => none
  | .write k' v => if k' = k then some v else held
  | .other => held

/-- What the register holds after the log, if it was written since the last clearing. -/
def last (k : κ) (log : List (Entry κ ν)) : Option ν := log.foldl (Entry.apply k) none

def Entry.Silent (k : κ) : Entry κ ν → Prop
  | .clear => False
  | .write k' _ => k' ≠ k
  | .other => True

theorem Entry.Silent.apply (h : e.Silent k) (held : Option ν) : e.apply k held = held := by
  cases e with
  | clear => exact h.elim
  | write k' v => exact if_neg h
  | other => rfl

theorem foldl_silent (silent : ∀ e ∈ ys, e.Silent k) (held : Option ν) :
    ys.foldl (Entry.apply k) held = held := by
  induction ys with
  | nil => rfl
  | cons e ys ih =>
      obtain ⟨first, rest⟩ := List.forall_mem_cons.mp silent
      rw [List.foldl_cons, first.apply, ih rest]

theorem last_append : last k (xs ++ ys) = ys.foldl (Entry.apply k) (last k xs) := List.foldl_append

theorem last_insert_silent (silent : e.Silent k) : last k (xs ++ e :: ys) = last k (xs ++ ys) := by
  rw [last_append, List.foldl_cons, silent.apply, ← last_append]

theorem last_insert_write (silent : ∀ e ∈ ys, e.Silent k) :
    last k (xs ++ .write k v :: ys) = some v := by
  rw [last_append, List.foldl_cons, foldl_silent silent]
  exact if_pos rfl

theorem last_concat_write : last k (xs ++ [.write k v]) = some v :=
  last_insert_write fun _ mem => absurd mem List.not_mem_nil

end Msm8974.Registers
