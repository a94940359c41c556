import Mathlib.Data.Finset.Card
import Mathlib.Data.Finset.Range

/-!
The set bits of a word, and counting them by clearing the lowest one until none is left.
-/

namespace Msm8974.BitCount
variable {w : Nat}

/-- `n &&& (n - 1)` is `n` without its lowest set bit. -/
theorem exists_cleared_bit (n : Nat) (nonzero : n ≠ 0) :
    ∃ k, n.testBit k ∧ ∀ i, (n &&& (n - 1)).testBit i = (n.testBit i && decide (i ≠ k)) := by
  induction n using Nat.strongRecOn with
  | ind n ih =>
      rcases Nat.mod_two_eq_zero_or_one n with even | odd
      · -- the lowest bit is that of the half, and `n - 1` borrows from it
        obtain ⟨k, set, clears⟩ := ih (n / 2) (by omega) (by omega)
        refine ⟨k + 1, by rwa [Nat.testBit_succ], fun i => ?_⟩
        cases i with
        | zero => simp [even]
        | succ i =>
            have half : (n - 1) / 2 = n / 2 - 1 := by omega
            rw [Nat.testBit_and, Nat.testBit_succ, Nat.testBit_succ, half, ← Nat.testBit_and,
              clears i]
            simp
      · refine ⟨0, by simp [odd], fun i => ?_⟩
        cases i with
        | zero =>
            simp
            omega
        | succ i =>
            have half : (n - 1) / 2 = n / 2 := by omega
            rw [Nat.testBit_and, Nat.testBit_succ, Nat.testBit_succ, half, Bool.and_self]
            simp

def setBits (x : BitVec w) : Finset Nat := (Finset.range w).filter fun i => x.getLsbD i

theorem mem_setBits {x : BitVec w} {i : Nat} : i ∈ setBits x ↔ x.getLsbD i := by
  rw [setBits, Finset.mem_filter, Finset.mem_range]
  exact and_iff_right_of_imp BitVec.lt_of_getLsbD

@[simp] theorem setBits_zero : setBits 0#w = ∅ := by
  ext i
  simp [mem_setBits]

theorem toNat_ne_zero {x : BitVec w} (nonzero : x ≠ 0) : x.toNat ≠ 0 :=
  fun zero => nonzero (BitVec.eq_of_toNat_eq (by simpa using zero))

theorem toNat_sub_one {x : BitVec w} (nonzero : x ≠ 0) : (x - 1).toNat = x.toNat - 1 := by
  have positive := toNat_ne_zero nonzero
  have bound := x.isLt
  have one : (1 : BitVec w).toNat = 1 :=
    (BitVec.toNat_ofNat 1 w).trans (Nat.mod_eq_of_lt (by omega))
  rw [BitVec.toNat_sub_of_le (BitVec.le_def.mpr (by omega)), one]

theorem card_setBits_clear {x : BitVec w} (nonzero : x ≠ 0) :
    (setBits (x &&& (x - 1))).card + 1 = (setBits x).card := by
  obtain ⟨k, set, clears⟩ := exists_cleared_bit x.toNat (toNat_ne_zero nonzero)
  have erased : setBits (x &&& (x - 1)) = (setBits x).erase k := by
    ext i
    rw [Finset.mem_erase, mem_setBits, mem_setBits, BitVec.getLsbD, BitVec.toNat_and,
      toNat_sub_one nonzero, clears i]
    simp [BitVec.getLsbD, and_comm]
  rw [erased, Finset.card_erase_add_one (mem_setBits.mpr set)]

theorem clear_lt {x : BitVec w} (nonzero : x ≠ 0) : (x &&& (x - 1)).toNat < x.toNat := by
  have positive := toNat_ne_zero nonzero
  rw [BitVec.toNat_and, toNat_sub_one nonzero]
  exact Nat.lt_of_le_of_lt Nat.and_le_right (by omega)

end Msm8974.BitCount
