import Mathlib.Data.List.Nodup
import Mathlib.Data.List.Perm.Basic

/-!
Arrays of slots that are filled from the front. The entries are the slots before
the first empty one; a new entry goes behind the last one, and the last one moves
into the hole that a removal leaves.
-/

namespace Msm8974.Slots
universe u
variable {α : Type u} {n : Nat} {slots slots' : Vector (Option α) n} {xs : List α}

/-- The slots hold the entries `xs` in order and nothing behind them. -/
structure Holds (slots : Vector (Option α) n) (xs : List α) : Prop where
  length_le : xs.length ≤ n
  get : ∀ i (h : i < n), slots[i] = xs[i]?

theorem holds_replicate : Holds (Vector.replicate n none) ([] : List α) :=
  ⟨Nat.zero_le n, fun i h => by simp⟩

theorem Holds.eq_none_iff (holds : Holds slots xs) {i : Nat} (h : i < n) :
    slots[i] = none ↔ xs.length ≤ i := by
  rw [holds.get i h, List.getElem?_eq_none_iff]

theorem Holds.eq_some_iff (holds : Holds slots xs) {i : Nat} (h : i < n) {a : α} :
    slots[i] = some a ↔ ∃ inside : i < xs.length, xs[i] = a := by
  rw [holds.get i h, List.getElem?_eq_some_iff]

theorem Holds.eq_replicate_iff (holds : Holds slots xs) :
    slots = Vector.replicate n none ↔ xs = [] := by
  constructor
  · intro empty
    have none (h : 0 < n) : slots[0] = none := by simp [empty]
    have length := holds.length_le
    by_cases h : 0 < n
    · exact List.eq_nil_of_length_eq_zero (Nat.le_zero.mp ((holds.eq_none_iff h).mp (none h)))
    · exact List.eq_nil_of_length_eq_zero (by omega)
  · rintro rfl
    ext i h
    rw [holds.get i h, Vector.getElem_replicate, List.getElem?_nil]

theorem Holds.append (holds : Holds slots xs) (room : xs.length < n) (a : α) :
    Holds (slots.set xs.length (some a)) (xs ++ [a]) := by
  refine ⟨by simpa [Nat.succ_le_iff] using room, fun i h => ?_⟩
  rw [Vector.getElem_set]
  split
  · next last => simp [← last]
  · next other =>
      rw [holds.get i h]
      rcases Nat.lt_or_gt_of_ne other with behind | before
      · rw [List.getElem?_eq_none (by omega), List.getElem?_eq_none (by simp; omega)]
      · rw [List.getElem?_append_left before]

/-- The list with its last entry at position `j` and one entry less. -/
def moveLast (xs : List α) (j : Nat) : List α :=
  match xs.getLast? with
  | none => []
  | some last => (xs.set j last).dropLast

@[simp] theorem moveLast_concat (xs : List α) (last : α) (j : Nat) :
    moveLast (xs ++ [last]) j = ((xs ++ [last]).set j last).dropLast := by
  simp [moveLast]

theorem moveLast_perm {j : Nat} (h : j < xs.length) :
    (moveLast xs j).Perm (xs.eraseIdx j) := by
  obtain rfl | ⟨first, last, rfl⟩ := List.eq_nil_or_concat xs
  · simp at h
  · rw [List.concat_eq_append, moveLast_concat]
    rcases Nat.lt_or_ge j first.length with inside | outside
    · rw [List.set_append_left _ _ inside, List.dropLast_concat,
        List.eraseIdx_append_of_lt_length inside]
      exact (List.set_perm_cons_eraseIdx inside last).trans (List.perm_append_singleton _ _).symm
    · obtain rfl : j = first.length := by simp at h; omega
      simp [List.eraseIdx_append_of_length_le]

theorem moveLast_perm_erase [DecidableEq α] {j : Nat} (h : j < xs.length) (nodup : xs.Nodup) :
    (moveLast xs j).Perm (xs.erase xs[j]) := by
  rw [List.erase_eq_eraseIdx_of_idxOf (nodup.idxOf_getElem j h)]
  exact moveLast_perm h

theorem Holds.moveLast (holds : Holds slots xs) {j : Nat} (hj : j < xs.length)
    (moved : ∀ i (h : i < n), slots'[i] =
      if i + 1 = xs.length then none else if i = j then xs.getLast? else slots[i]) :
    Holds slots' (moveLast xs j) := by
  obtain rfl | ⟨first, last, rfl⟩ := List.eq_nil_or_concat xs
  · simp at hj
  · rw [List.concat_eq_append] at holds hj moved ⊢
    have room : first.length + 1 ≤ n := by simpa using holds.length_le
    refine ⟨by simp; omega, fun i h => ?_⟩
    rw [moved i h, moveLast_concat, List.getElem?_dropLast, List.getElem?_set, holds.get i h]
    simp only [List.length_set, List.length_append, List.length_singleton, Nat.add_right_cancel_iff,
      Nat.add_sub_cancel, List.getLast?_concat] at hj ⊢
    grind

end Msm8974.Slots
