import Mathlib.Data.List.Dedup
import Mathlib.Algebra.BigOperators.Group.List.Basic
import Mathlib.Algebra.GroupWithZero.Nat
import Mathlib.Tactic.Common

/-!
Blocks laid out one after another. Each key has one block, placed where the key first occurs
in the order of the requests; its offset is the sum of the sizes before it.
-/

namespace Msm8974.Packing
universe u v
variable {κ : Type u} {β : Type v}

/-- The keys in the order of their first occurrences, without those already seen. -/
def firsts [DecidableEq κ] : List κ → List κ → List κ
  | _, [] => []
  | seen, k :: ks => if k ∈ seen then firsts seen ks else k :: firsts (k :: seen) ks

/-- Where the block of a key starts if blocks of these sizes follow each other from `base`. -/
def offsetOf [DecidableEq κ] (size : κ → Nat) : Nat → List κ → κ → Nat
  | base, [], _ => base
  | base, k :: ks, key => if k = key then base else offsetOf size (base + size k) ks key

section Firsts
variable [DecidableEq κ]

theorem mem_firsts {seen ks : List κ} {k : κ} : k ∈ firsts seen ks ↔ k ∈ ks ∧ k ∉ seen := by
  induction ks generalizing seen with
  | nil => simp [firsts]
  | cons first ks ih =>
      by_cases known : first ∈ seen
      · rw [firsts, if_pos known, ih]
        constructor
        · exact fun ⟨mem, new⟩ => ⟨List.mem_cons_of_mem _ mem, new⟩
        · rintro ⟨mem, new⟩
          refine ⟨(List.mem_cons.mp mem).resolve_left ?_, new⟩
          rintro rfl
          exact new known
      · rw [firsts, if_neg known, List.mem_cons, ih, List.mem_cons, List.mem_cons]
        by_cases same : k = first
        · simp [same, known]
        · simp [same]

theorem nodup_firsts (seen ks : List κ) : (firsts seen ks).Nodup := by
  induction ks generalizing seen with
  | nil => exact List.nodup_nil
  | cons first ks ih =>
      rw [firsts]
      split
      · exact ih seen
      · exact List.nodup_cons.mpr ⟨fun mem => (mem_firsts.mp mem).2 List.mem_cons_self, ih _⟩

theorem firsts_perm_dedup (ks : List κ) : (firsts [] ks).Perm ks.dedup :=
  (List.perm_ext_iff_of_nodup (nodup_firsts _ _) (List.nodup_dedup ks)).mpr fun k => by
    simp [mem_firsts]

end Firsts

theorem length_flatMap_blocks {size : κ → Nat} {ks : List κ} {block : κ → List β}
    (sizes : ∀ k ∈ ks, (block k).length = size k) :
    (ks.flatMap block).length = (ks.map size).sum := by
  rw [List.length_flatMap]
  exact congrArg List.sum (List.map_congr_left sizes)

/-- Among blocks of one size the block of the item at `i` is found by counting. -/
theorem drop_flatMap_uniform {α : Type v} {width : Nat} {block : κ → List α} {ks : List κ}
    (sizes : ∀ k ∈ ks, (block k).length = width) {i : Nat} (h : i < ks.length) :
    (ks.flatMap block).drop (width * i) = block ks[i] ++ (ks.drop (i + 1)).flatMap block := by
  induction ks generalizing i with
  | nil => cases h
  | cons k ks ih =>
      have here := sizes k List.mem_cons_self
      cases i with
      | zero => simp
      | succ i =>
          rw [List.flatMap_cons, Nat.mul_succ, Nat.add_comm, ← List.drop_drop, ← here,
            List.drop_left, here]
          exact ih (fun k' mem => sizes k' (List.mem_cons_of_mem _ mem)) (Nat.lt_of_succ_lt_succ h)

section Offsets
variable [DecidableEq κ] {size : κ → Nat} {base : Nat} {ks : List κ} {key other : κ}

theorem base_le_offsetOf : base ≤ offsetOf size base ks key := by
  induction ks generalizing base with
  | nil => exact Nat.le_refl _
  | cons k ks ih =>
      rw [offsetOf]
      split
      · exact Nat.le_refl _
      · exact Nat.le_trans (Nat.le_add_right _ _) ih

theorem offsetOf_add_le (mem : key ∈ ks) :
    offsetOf size base ks key + size key ≤ base + (ks.map size).sum := by
  induction ks generalizing base with
  | nil => cases mem
  | cons k ks ih =>
      rw [offsetOf, List.map_cons, List.sum_cons]
      split
      next same =>
        subst same
        omega
      next differs =>
        have rest := @ih (base + size k)
          ((List.mem_cons.mp mem).resolve_left (Ne.symm differs))
        omega

/-- Blocks of different keys do not overlap. -/
theorem offsetOf_disjoint (mem : key ∈ ks) (mem' : other ∈ ks) (differs : key ≠ other) :
    offsetOf size base ks key + size key ≤ offsetOf size base ks other ∨
      offsetOf size base ks other + size other ≤ offsetOf size base ks key := by
  induction ks generalizing base with
  | nil => cases mem
  | cons k ks ih =>
      simp only [offsetOf]
      by_cases first : k = key
      · subst first
        rw [if_pos rfl, if_neg differs]
        exact .inl base_le_offsetOf
      · by_cases second : k = other
        · subst second
          rw [if_neg first, if_pos rfl]
          exact .inr base_le_offsetOf
        · rw [if_neg first, if_neg second]
          exact ih ((List.mem_cons.mp mem).resolve_left (Ne.symm first))
            ((List.mem_cons.mp mem').resolve_left (Ne.symm second))

theorem dvd_offsetOf {unit : Nat} (start : unit ∣ base) (sizes : ∀ k ∈ ks, unit ∣ size k) :
    unit ∣ offsetOf size base ks key := by
  induction ks generalizing base with
  | nil => exact start
  | cons k ks ih =>
      rw [offsetOf]
      split
      · exact start
      · exact ih (Nat.dvd_add start (sizes k List.mem_cons_self))
          fun k' mem => sizes k' (List.mem_cons_of_mem _ mem)

/-- The offset leads to the block. -/
theorem drop_offsetOf {block : κ → List β} {before : List β} (mem : key ∈ ks)
    (sizes : ∀ k ∈ ks, (block k).length = size k) :
    ((before ++ ks.flatMap block).drop (offsetOf size before.length ks key)).take (size key) =
      block key := by
  induction ks generalizing before with
  | nil => cases mem
  | cons k ks ih =>
      have here := sizes k List.mem_cons_self
      rw [offsetOf]
      split
      next same =>
        subst same
        rw [List.drop_left, List.flatMap_cons, ← here, List.take_left]
      next differs =>
        have rest := @ih (before ++ block k)
          ((List.mem_cons.mp mem).resolve_left (Ne.symm differs))
          fun k' mem => sizes k' (List.mem_cons_of_mem _ mem)
        rw [List.length_append, here] at rest
        rw [List.flatMap_cons, ← List.append_assoc]
        exact rest

end Offsets
end Msm8974.Packing
