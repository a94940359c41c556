import Msm8974.Dtbtool.Combine

/-!
Which tuples come on the list. A duplicate among the further entries of a file is skipped alone, a
duplicate in the first place takes the whole file with it.
-/

namespace Msm8974.Dtbtool
open Combiner

variable {dir : InputDir} {ps : PageSize} {s : Combiner}

namespace Combiner

theorem addChip_sorted (sorted : Sorted s.chip_list) (c : ChipInfo) :
    Sorted (s.addChip c).chip_list := by
  rw [addChip]
  split
  next added => exact chipAdd_sorted sorted added
  next => exact sorted

theorem mem_addChip (sorted : Sorted s.chip_list) (c : ChipInfo) {t : ChipTuple} :
    t ∈ tuples (s.addChip c).chip_list ↔ t = c.toChipTuple ∨ t ∈ tuples s.chip_list := by
  rw [addChip]
  split
  next added => exact mem_tuples_chipAdd added
  next duplicate =>
    have present := (chipAdd_eq_none sorted).mp duplicate
    exact (or_iff_right_of_imp fun same => same ▸ present).symm

theorem foldl_addChip (sorted : Sorted s.chip_list) (chips : List ChipInfo) :
    Sorted (chips.foldl addChip s).chip_list ∧
      ∀ t, t ∈ tuples (chips.foldl addChip s).chip_list ↔
        t ∈ tuples chips ∨ t ∈ tuples s.chip_list := by
  induction chips generalizing s with
  | nil => exact ⟨sorted, fun t => by simp [tuples]⟩
  | cons c chips ih =>
      obtain ⟨sorted', rest⟩ := ih (addChip_sorted sorted c)
      refine ⟨sorted', fun t => ?_⟩
      rw [List.foldl_cons, rest, mem_addChip sorted, mem_tuples_cons, or_left_comm, or_assoc]

/-- The entries of a file all come on the list or none does. -/
theorem addChips_spec (sorted : Sorted s.chip_list) (filename : Name) (st_size : Nat)
    (first : ChipInfo) (rest : List ChipInfo) :
    Sorted (s.addChips ps filename st_size (first :: rest)).chip_list ∧
      ∀ t, t ∈ tuples (s.addChips ps filename st_size (first :: rest)).chip_list ↔
        t ∈ tuples s.chip_list ∨
          (first.toChipTuple ∉ tuples s.chip_list ∧ t ∈ tuples (first :: rest)) := by
  rw [addChips]
  split
  next duplicate =>
    have present := (chipAdd_eq_none sorted).mp duplicate
    exact ⟨sorted, fun t => by simp [present]⟩
  next chip_list added =>
    have absent : first.toChipTuple ∉ tuples s.chip_list := fun present => by
      rw [(chipAdd_eq_none sorted).mpr present] at added
      cases added
    obtain ⟨sorted', rest'⟩ := foldl_addChip (s := { s with
      chip_list
      dtb_count := s.dtb_count + 1
      dtb_size := Function.update s.dtb_size first.address
        ((st_size + ps.padding st_size) % 2 ^ 32)
      dtb_file := Function.update s.dtb_file first.address (some filename)
      rc := 0 }) (chipAdd_sorted sorted added) rest
    refine ⟨sorted', fun t => (rest' t).trans ?_⟩
    rw [mem_tuples_chipAdd added, mem_tuples_cons]
    tauto

theorem tuples_allocate (infos : List ChipTuple) : tuples (s.allocate infos) = infos := by
  refine List.ext_getElem (by simp [tuples, allocate]) fun i _ _ => ?_
  simp [tuples, allocate]

end Combiner

theorem addFile_spec (sorted : Sorted s.chip_list) {d_name : Name} (isDtb : dir.isDtb d_name = true)
    {first : ChipTuple} {rest : List ChipTuple} (infos : dir.getChipInfo d_name = first :: rest) :
    Sorted (addFile dir ps s d_name).chip_list ∧
      ∀ t, t ∈ tuples (addFile dir ps s d_name).chip_list ↔ t ∈ tuples s.chip_list ∨
        (first ∉ tuples s.chip_list ∧ t ∈ first :: rest) := by
  have chips := tuples_allocate (s := s) (first :: rest)
  rw [addFile, if_pos isDtb, infos]
  cases allocated : s.allocate (first :: rest) with
  | nil => simp [allocated, tuples] at chips
  | cons chip more =>
      rw [allocated] at chips
      obtain ⟨sorted', mem⟩ := @addChips_spec ps { s with
        allocated := s.allocated + (chip :: more).length } sorted d_name
          (dir.contents d_name).length chip more
      refine ⟨sorted', fun t => (mem t).trans ?_⟩
      rw [chips]
      have head : chip.toChipTuple = first := (List.cons.inj chips).1
      rw [head]

/-- What getChipInfo returns for the DTBs among the directory entries. -/
def InputDir.dtbs (dir : InputDir) (names : List Name) : List (List ChipTuple) :=
  (names.filter dir.isDtb).map dir.getChipInfo

/-- The files whose first tuple no file that was accepted before them has. -/
def accepted : List ChipTuple → List (List ChipTuple) → List (List ChipTuple)
  | _, [] => []
  | seen, [] :: files => accepted seen files
  | seen, (first :: rest) :: files =>
      if first ∈ seen then accepted seen files
      else (first :: rest) :: accepted (first :: rest ++ seen) files

/-- The list takes the tuples of the accepted files. -/
theorem foldl_addFile (sorted : Sorted s.chip_list) (names : List Name) {seen : List ChipTuple}
    (same : ∀ t, t ∈ seen ↔ t ∈ tuples s.chip_list) :
    Sorted (names.foldl (addFile dir ps) s).chip_list ∧
      ∀ t, t ∈ tuples (names.foldl (addFile dir ps) s).chip_list ↔
        t ∈ seen ∨ ∃ file ∈ accepted seen (dir.dtbs names), t ∈ file := by
  induction names generalizing s seen with
  | nil => exact ⟨sorted, fun t => by simp [InputDir.dtbs, accepted, same]⟩
  | cons d_name names ih =>
      rw [List.foldl_cons]
      cases isDtb : dir.isDtb d_name with
      | false =>
          have skipped : addFile dir ps s d_name = s := if_neg (by simp [isDtb])
          have others : dir.dtbs (d_name :: names) = dir.dtbs names := by
            simp [InputDir.dtbs, isDtb]
          rw [skipped, others]
          exact ih sorted same
      | true =>
          have files : dir.dtbs (d_name :: names) = dir.getChipInfo d_name :: dir.dtbs names := by
            simp [InputDir.dtbs, isDtb]
          cases infos : dir.getChipInfo d_name with
          | nil => simp [InputDir.isDtb, infos] at isDtb
          | cons first rest =>
              obtain ⟨sorted', added⟩ := @addFile_spec dir ps s sorted _ isDtb _ _ infos
              rw [files, infos, accepted]
              by_cases present : first ∈ seen
              · rw [if_pos present]
                refine ih sorted' fun t => ?_
                rw [added t, same t]
                exact (or_iff_left fun ⟨absent, _⟩ => absent ((same first).mp present)).symm
              · rw [if_neg present]
                obtain ⟨sorted'', mem⟩ := @ih _ sorted' (first :: rest ++ seen) fun t => by
                  rw [added t, List.mem_append, same t, ← same first]
                  tauto
                refine ⟨sorted'', fun t => ?_⟩
                rw [mem t, List.mem_append, List.exists_mem_cons_iff]
                tauto

theorem collect_spec (dir : InputDir) (ps : PageSize) (names : List Name) :
    Sorted (collect dir ps names).chip_list ∧
      ∀ t, t ∈ tuples (collect dir ps names).chip_list ↔
        ∃ file ∈ accepted [] (dir.dtbs names), t ∈ file := by
  obtain ⟨sorted, mem⟩ := @foldl_addFile dir ps .new .nil names []
    fun t => by simp [Combiner.new, tuples]
  exact ⟨sorted, fun t => (mem t).trans (or_iff_right (List.not_mem_nil))⟩

/-- main() writes a row for each entry of chip_list. They are the tuples of all DTBs exactly if
every tuple of a skipped file is one of an accepted file as well. -/
theorem no_tuple_is_dropped_iff (dir : InputDir) (ps : PageSize) (names : List Name) :
    (∀ d_name ∈ names, dir.isDtb d_name = true → ∀ t ∈ dir.getChipInfo d_name,
        t ∈ tuples (collect dir ps names).chip_list) ↔
      ∀ file ∈ dir.dtbs names, file ∉ accepted [] (dir.dtbs names) →
        ∀ t ∈ file, ∃ other ∈ accepted [] (dir.dtbs names), t ∈ other := by
  have listed := (collect_spec dir ps names).2
  constructor
  · intro all file mem _ t inFile
    obtain ⟨d_name, dtb, rfl⟩ := List.mem_map.mp mem
    obtain ⟨named, isDtb⟩ := List.mem_filter.mp dtb
    exact (listed t).mp (all d_name named isDtb t inFile)
  · intro covered d_name named isDtb t inFile
    have mem : dir.getChipInfo d_name ∈ dir.dtbs names :=
      List.mem_map_of_mem (List.mem_filter.mpr ⟨named, isDtb⟩)
    rw [listed t]
    by_cases taken : dir.getChipInfo d_name ∈ accepted [] (dir.dtbs names)
    · exact ⟨_, taken, inFile⟩
    · exact covered _ mem taken t inFile

/-- The second file is skipped for its first tuple, and its other one with it. -/
theorem further_tuple_is_dropped :
    let dir : InputDir := {
      isRegular := fun _ => true
      getChipInfo := fun d_name =>
        if d_name = ['a', '.', 'd', 't', 'b'] then [⟨126, 8, 0, 2⟩]
        else [⟨126, 8, 0, 2⟩, ⟨126, 11, 0, 2⟩]
      contents := fun _ => [0xd0, 0x0d] }
    let names : List Name := [['a', '.', 'd', 't', 'b'], ['b', '.', 'd', 't', 'b']]
    names.all dir.isDtb = true ∧ ⟨126, 11, 0, 2⟩ ∈ dir.getChipInfo ['b', '.', 'd', 't', 'b'] ∧
      tuples (collect dir ⟨2048, by decide, by decide⟩ names).chip_list = [⟨126, 8, 0, 2⟩] := by
  decide

end Msm8974.Dtbtool
