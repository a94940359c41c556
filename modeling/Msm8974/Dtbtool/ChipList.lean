import Mathlib.Data.List.Sort
import Mathlib.Data.Prod.Lex
import Mathlib.Tactic.Common

/-!
The list of table entries of dtbtool.c, sorted without duplicates by the four fields that a
bootloader looks an entry up by. The list is given in the order of the next pointers.
-/

namespace Msm8974.Dtbtool

/-- What a DTB says it is made for. -/
@[ext] structure ChipTuple where
  chipset : BitVec 32
  platform : BitVec 32
  subtype : BitVec 32
  revNum : BitVec 32
  deriving DecidableEq, Repr

/-- `struct chipInfo_t`. The fields that only its master's copy of is used are kept by the
master's address. -/
structure ChipInfo extends ChipTuple where
  address : Nat
  master : Nat
  deriving DecidableEq, Repr

namespace ChipTuple

/-- The order of the list, as chip_add compares. -/
def precedes (c x : ChipTuple) : Prop :=
  c.chipset < x.chipset ∨ (c.chipset = x.chipset ∧
    (c.platform < x.platform ∨ (c.platform = x.platform ∧
      (c.subtype < x.subtype ∨ (c.subtype = x.subtype ∧ c.revNum < x.revNum)))))

instance (c x : ChipTuple) : Decidable (c.precedes x) := inferInstanceAs (Decidable (_ ∨ _))

def key (c : ChipTuple) : Nat ×ₗ Nat ×ₗ Nat ×ₗ Nat :=
  toLex (c.chipset.toNat, toLex (c.platform.toNat, toLex (c.subtype.toNat, c.revNum.toNat)))

theorem key_injective : Function.Injective key := by
  intro c x same
  simp only [key, EmbeddingLike.apply_eq_iff_eq, Prod.mk.injEq, BitVec.toNat_inj] at same
  exact ChipTuple.ext same.1 same.2.1 same.2.2.1 same.2.2.2

theorem precedes_iff {c x : ChipTuple} : c.precedes x ↔ c.key < x.key := by
  simp only [precedes, key, Prod.Lex.toLex_lt_toLex, BitVec.lt_def, BitVec.toNat_inj]

instance : Std.Irrefl precedes := ⟨fun _ h => lt_irrefl _ (precedes_iff.mp h)⟩

instance : Std.Antisymm precedes :=
  ⟨fun _ _ h h' => (lt_asymm (precedes_iff.mp h) (precedes_iff.mp h')).elim⟩

theorem precedes_trans {c x y : ChipTuple} (h : c.precedes x) (h' : x.precedes y) : c.precedes y :=
  precedes_iff.mpr ((precedes_iff.mp h).trans (precedes_iff.mp h'))

/-- What neither precedes nor equals another tuple comes after it. -/
theorem precedes_of_not {c x : ChipTuple} (before : ¬ c.precedes x) (differs : c ≠ x) :
    x.precedes c := by
  rw [precedes_iff, not_lt] at before
  exact precedes_iff.mpr (lt_of_le_of_ne before fun same => differs (key_injective same.symm))

end ChipTuple

/-- `chip_add`: the list with the new entry, or no list if it is a duplicate. -/
def chipAdd (c : ChipInfo) : List ChipInfo → Option (List ChipInfo)
  | [] => some [c]
  | x :: rest =>
      if c.precedes x.toChipTuple then some (c :: x :: rest)
      else if c.toChipTuple = x.toChipTuple then none
      else (chipAdd c rest).map (x :: ·)

/-- The tuples of a list of entries, in its order. -/
def tuples (chips : List ChipInfo) : List ChipTuple := chips.map ChipInfo.toChipTuple

def Sorted (chips : List ChipInfo) : Prop := (tuples chips).Pairwise ChipTuple.precedes

variable {c : ChipInfo} {chips added : List ChipInfo}

theorem mem_tuples_cons {t : ChipTuple} :
    t ∈ tuples (c :: chips) ↔ t = c.toChipTuple ∨ t ∈ tuples chips := by
  rw [tuples, List.map_cons, List.mem_cons, tuples]

theorem chipAdd_perm (h : chipAdd c chips = some added) : added.Perm (c :: chips) := by
  induction chips generalizing added with
  | nil =>
      obtain rfl := Option.some.inj h
      exact .refl _
  | cons x rest ih =>
      rw [chipAdd] at h
      split at h
      · obtain rfl := Option.some.inj h
        exact .refl _
      · split at h
        · cases h
        · obtain ⟨tail, into, rfl⟩ := Option.map_eq_some_iff.mp h
          exact ((ih into).cons x).trans (.swap c x rest)

theorem mem_chipAdd (h : chipAdd c chips = some added) {d : ChipInfo} :
    d ∈ added ↔ d = c ∨ d ∈ chips := by
  rw [(chipAdd_perm h).mem_iff, List.mem_cons]

theorem mem_tuples_chipAdd (h : chipAdd c chips = some added) {t : ChipTuple} :
    t ∈ tuples added ↔ t = c.toChipTuple ∨ t ∈ tuples chips := by
  have perm : (tuples added).Perm (tuples (c :: chips)) := (chipAdd_perm h).map _
  rw [perm.mem_iff, mem_tuples_cons]

theorem chipAdd_sorted (sorted : Sorted chips) (h : chipAdd c chips = some added) :
    Sorted added := by
  induction chips generalizing added with
  | nil =>
      obtain rfl := Option.some.inj h
      exact List.pairwise_singleton _ _
  | cons x rest ih =>
      obtain ⟨first, sorted'⟩ := List.pairwise_cons.mp sorted
      rw [chipAdd] at h
      split at h
      next before =>
        obtain rfl := Option.some.inj h
        refine List.pairwise_cons.mpr ⟨fun t mem => ?_, sorted⟩
        rcases List.mem_cons.mp mem with rfl | later
        · exact before
        · exact ChipTuple.precedes_trans before (first t later)
      next before =>
        split at h
        · cases h
        next differs =>
          obtain ⟨tail, into, rfl⟩ := Option.map_eq_some_iff.mp h
          refine List.pairwise_cons.mpr ⟨fun t mem => ?_, ih sorted' into⟩
          rcases (mem_tuples_chipAdd into).mp mem with rfl | old
          · exact ChipTuple.precedes_of_not before differs
          · exact first t old

/-- In a sorted list the search comes past an equal tuple, if there is one. -/
theorem chipAdd_eq_none (sorted : Sorted chips) :
    chipAdd c chips = none ↔ c.toChipTuple ∈ tuples chips := by
  induction chips with
  | nil => simp [chipAdd, tuples]
  | cons x rest ih =>
      obtain ⟨first, sorted'⟩ := List.pairwise_cons.mp sorted
      rw [chipAdd, tuples, List.map_cons, List.mem_cons]
      split
      next before =>
        refine iff_of_false (by simp) (not_or.mpr ⟨fun same => ?_, fun later => ?_⟩)
        · exact Std.Irrefl.irrefl (r := ChipTuple.precedes) _ (same ▸ before)
        · exact Std.Irrefl.irrefl (r := ChipTuple.precedes) _
            (ChipTuple.precedes_trans before (first _ later))
      next before =>
        split
        next same => exact iff_of_true rfl (.inl same)
        next differs =>
          rw [Option.map_eq_none_iff, ih sorted', or_iff_right differs]
          rfl

/-- Two sorted lists with the same tuples have them in the same places. -/
theorem sorted_tuples_eq {others : List ChipInfo} (sorted : Sorted chips) (sorted' : Sorted others)
    (same : ∀ t, t ∈ tuples chips ↔ t ∈ tuples others) : tuples chips = tuples others :=
  List.Pairwise.eq_of_mem_iff sorted sorted' same

end Msm8974.Dtbtool
