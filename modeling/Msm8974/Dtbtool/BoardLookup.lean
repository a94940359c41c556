import Mathlib.Data.List.MinMax
import Msm8974.Dtbtool.ChipInfoExtraction
import Msm8974.Dtbtool.DirectoryOrder
import Msm8974.Dtbtool.Layout

/-!
A run of main() from the directory to the bootloader that looks its board up in the table. The
first file that is not skipped and has a tuple is the one that the tuple's row leads to. The
bootloader is not part of this repository; its search is any that does what step 5 of the run-time
operations in dtbtool.txt says.
-/

namespace Msm8974.Dtbtool
open Combiner

/-- GetVersionInfo for the lines that dtc prints. -/
def getVersionInfo (lines : List CString) : Nat :=
  if lines.any (hasTag QCDT_BOARD_TAG) then 2 else 1

/-- A directory of DTBs that dtc prints the lines `dts` for. -/
def InputDir.decompiled (w : Nat) (isRegular : Name → Bool) (dts : Name → List CString)
    (contents : Name → List UInt8) : InputDir where
  isRegular := isRegular
  getChipInfo name :=
    match Dtbtool.getChipInfo w (getVersionInfo (dts name)) (dts name) with
    | some (chip, _) => tuples chip
    | none => []
  contents := contents

/-- The rows of the table. -/
def rows (image : List UInt8) : List Row := (List.range (u32At image 8)).map (rowAt image)

/-- The device tree that the row of a tuple leads to. -/
def lookup (image : List UInt8) (t : ChipTuple) : Option (List UInt8) :=
  ((rows image).find? fun row => row.toChipTuple = t).map fun row =>
    (image.drop row.offset).take row.size

/-- Platform, variant and subtype are the board's, and the soc rev is not above its own. -/
def ChipTuple.Fits (t board : ChipTuple) : Prop :=
  t.chipset = board.chipset ∧ t.platform = board.platform ∧ t.subtype = board.subtype ∧
    t.revNum ≤ board.revNum

instance (t board : ChipTuple) : Decidable (t.Fits board) := inferInstanceAs (Decidable (_ ∧ _))

/-- The search takes a row that fits the board, with the highest soc rev there is. -/
structure IsSearch (search : List Row → ChipTuple → Option Row) : Prop where
  listed : ∀ {table board row}, search table board = some row → row ∈ table
  fits : ∀ {table board row}, search table board = some row → row.toChipTuple.Fits board
  highest : ∀ {table board row}, search table board = some row →
    ∀ other ∈ table, other.toChipTuple.Fits board → other.revNum ≤ row.revNum
  finds : ∀ {table board}, search table board = none →
    ∀ row ∈ table, ¬ row.toChipTuple.Fits board

/-- The device tree that a bootloader with this search loads on a board. -/
def load (search : List Row → ChipTuple → Option Row) (image : List UInt8) (board : ChipTuple) :
    Option (List UInt8) :=
  (search (rows image) board).map fun row => (image.drop row.offset).take row.size

/-- What a file adds to the tuples that are there. -/
def InputDir.added (dir : InputDir) (seen : List ChipTuple) (name : Name) : List ChipTuple :=
  match dir.getChipInfo name with
  | [] => []
  | first :: rest => if dir.isDtb name ∧ first ∉ seen then first :: rest else []

/-- The file that is to serve a tuple. -/
def InputDir.owner (dir : InputDir) (t : ChipTuple) : List ChipTuple → List Name → Option Name
  | _, [] => none
  | seen, name :: names =>
      if t ∈ dir.added seen name then some name
      else dir.owner t (dir.added seen name ++ seen) names

/-- A file with the zeros behind it. -/
def InputDir.padded (dir : InputDir) (ps : PageSize) (name : Name) : List UInt8 :=
  dir.contents name ++ filler (ps.padding (dir.contents name).length)

variable {dir : InputDir} {ps : PageSize} {s : Combiner} {t : ChipTuple} {name d_name : Name}
  {done names : List Name} {seen : List ChipTuple} {image : List UInt8}

section Collecting

/-- The list has an entry for the tuple whose master has the file. -/
def Combiner.Serves (s : Combiner) (t : ChipTuple) (name : Name) : Prop :=
  ∃ c ∈ s.chip_list, c.toChipTuple = t ∧ s.dtb_file c.master = some name

theorem Sorted.unique {chips : List ChipInfo} (sorted : Sorted chips) {c d : ChipInfo}
    (mem : c ∈ chips) (mem' : d ∈ chips) (same : c.toChipTuple = d.toChipTuple) : c = d := by
  induction chips with
  | nil => cases mem
  | cons first rest ih =>
      obtain ⟨before, sorted'⟩ := List.pairwise_cons.mp sorted
      have differs {e : ChipInfo} (later : e ∈ rest) : first.toChipTuple ≠ e.toChipTuple :=
        fun eq => Std.Irrefl.irrefl (r := ChipTuple.precedes) _
          (eq ▸ before _ (List.mem_map_of_mem later))
      cases List.mem_cons.mp mem with
      | inl here =>
          cases List.mem_cons.mp mem' with
          | inl here' => rw [here, here']
          | inr later => exact absurd (here ▸ same) (differs later)
      | inr later =>
          cases List.mem_cons.mp mem' with
          | inl here' => exact absurd (here' ▸ same.symm) (differs later)
          | inr later' => exact ih sorted' later later'

theorem mem_foldl_addChip {c : ChipInfo} (chips : List ChipInfo) (mem : c ∈ s.chip_list) :
    c ∈ (chips.foldl addChip s).chip_list := by
  induction chips generalizing s with
  | nil => exact mem
  | cons d chips ih =>
      refine ih ?_
      rw [addChip]
      split
      · next added => exact (mem_chipAdd added).mpr (.inr mem)
      · exact mem

/-- What addFile does with a file whose first tuple is new: the entries that were there stay as
they are, with their files, and the further ones have the file for their master. -/
theorem addFile_new (ps : PageSize) (h : Collected dir ps done s) (sorted : Sorted s.chip_list)
    (isDtb : dir.isDtb d_name = true)
    {first : ChipTuple} {rest : List ChipTuple} (infos : dir.getChipInfo d_name = first :: rest)
    (absent : first ∉ tuples s.chip_list) :
    (∀ c ∈ s.chip_list, c ∈ (addFile dir ps s d_name).chip_list) ∧
      (∀ c ∈ (addFile dir ps s d_name).chip_list, c ∈ s.chip_list ∨ c.master = s.allocated) ∧
      (∀ c ∈ s.chip_list, c.master ≠ s.allocated ∧
        (addFile dir ps s d_name).dtb_file c.master = s.dtb_file c.master) ∧
      (addFile dir ps s d_name).dtb_file s.allocated = some d_name := by
  have below : ∀ c ∈ s.chip_list, c.master ≠ s.allocated := fun c mem =>
    have ⟨name, file, _⟩ := h.master c mem
    (h.file _ name file).2.1.ne
  rw [addFile, if_pos isDtb, infos, allocate, List.mapIdx_cons]
  generalize allocated : List.mapIdx (fun i info =>
    (⟨info, s.allocated + (i + 1), s.allocated⟩ : ChipInfo)) rest = others
  have master : ∀ c ∈ others, c.master = s.allocated := by
    intro c mem
    obtain ⟨i, _, rfl⟩ := List.mem_mapIdx.mp (allocated ▸ mem)
    rfl
  simp only [addChips]
  split
  · next duplicate =>
      exact absurd ((chipAdd_eq_none sorted).mp duplicate) absent
  · next chip_list added =>
      have count : s.dtb_count + 1 = chip_list.length := by
        rw [(chipAdd_perm added).length_eq, h.count, List.length_cons]
      have adds := foldl_addChip_adds (s := { s with
        chip_list
        dtb_count := s.dtb_count + 1
        dtb_size := Function.update s.dtb_size s.allocated
          (((dir.contents d_name).length + ps.padding (dir.contents d_name).length) % 2 ^ 32)
        dtb_file := Function.update s.dtb_file s.allocated (some d_name)
        allocated := s.allocated + (others.length + 1)
        rc := 0 }) count others
      refine ⟨fun c mem => ?_, fun c mem => ?_, fun c mem => ⟨below c mem, ?_⟩, ?_⟩
      · exact mem_foldl_addChip others ((mem_chipAdd added).mpr (.inr mem))
      · obtain further | before := adds.listed c mem
        · exact .inr (master c further)
        · obtain rfl | old := (mem_chipAdd added).mp before
          · exact .inr rfl
          · exact .inl old
      · exact (congrFun adds.dtb_file c.master).trans (Function.update_of_ne (below c mem) _ _)
      · exact (congrFun adds.dtb_file s.allocated).trans (Function.update_self _ _ _)

theorem added_eq_cons {first : ChipTuple} {rest : List ChipTuple}
    (new : dir.added seen d_name = first :: rest) :
    dir.getChipInfo d_name = first :: rest ∧ dir.isDtb d_name = true ∧ first ∉ seen := by
  rw [InputDir.added] at new
  split at new
  · cases new
  · next infos =>
      split at new
      · next fresh =>
          cases new
          exact ⟨infos, fresh⟩
      · cases new

/-- A file that is skipped changes neither the list nor the files. -/
theorem addFile_skipped (ps : PageSize) (sorted : Sorted s.chip_list)
    (same : ∀ t, t ∈ seen ↔ t ∈ tuples s.chip_list) (skipped : dir.added seen d_name = []) :
    (addFile dir ps s d_name).chip_list = s.chip_list ∧
      (addFile dir ps s d_name).dtb_file = s.dtb_file := by
  rw [addFile]
  split
  · next isDtb =>
      cases infos : dir.getChipInfo d_name with
      | nil => simp [InputDir.isDtb, infos] at isDtb
      | cons first rest =>
          have present : first ∈ seen := by
            by_contra absent
            simp [InputDir.added, infos, isDtb, absent] at skipped
          rw [allocate, List.mapIdx_cons]
          simp only [addChips]
          split
          · exact ⟨rfl, rfl⟩
          · next added =>
              rw [(chipAdd_eq_none sorted).mpr ((same first).mp present)] at added
              cases added
  · exact ⟨rfl, rfl⟩

theorem serves_addFile (h : Collected dir ps done s) (sorted : Sorted s.chip_list)
    (same : ∀ t, t ∈ seen ↔ t ∈ tuples s.chip_list) :
    (addFile dir ps s d_name).Serves t name ↔
      s.Serves t name ∨ t ∉ seen ∧ t ∈ dir.added seen d_name ∧ name = d_name := by
  cases new : dir.added seen d_name with
  | nil =>
      obtain ⟨list, file⟩ := addFile_skipped ps sorted same new
      simp only [Serves, list, file, List.not_mem_nil, false_and, and_false, or_false]
  | cons first rest =>
      obtain ⟨infos, isDtb, absent⟩ := added_eq_cons new
      have absent' : first ∉ tuples s.chip_list := mt (same first).mpr absent
      obtain ⟨stays, comes, kept, file⟩ := addFile_new ps h sorted isDtb infos absent'
      obtain ⟨sorted', mem⟩ := @addFile_spec dir ps s sorted _ isDtb _ _ infos
      constructor
      · rintro ⟨c, listed, rfl, served⟩
        obtain old | here := comes c listed
        · exact .inl ⟨c, old, rfl, (kept c old).2 ▸ served⟩
        · have mine : name = d_name := Option.some.inj (served.symm.trans (here ▸ file))
          have fresh : c.toChipTuple ∉ tuples s.chip_list := by
            intro present
            obtain ⟨d, old, eq⟩ := List.mem_map.mp present
            obtain rfl := sorted'.unique (stays d old) listed eq
            exact (kept d old).1 here
          obtain present | ⟨-, inFile⟩ := (mem c.toChipTuple).mp (List.mem_map_of_mem listed)
          · exact absurd present fresh
          · exact .inr ⟨mt (same _).mp fresh, inFile, mine⟩
      · rintro (⟨c, old, eq, served⟩ | ⟨fresh, inFile, rfl⟩)
        · exact ⟨c, stays c old, eq, (kept c old).2.trans served⟩
        · obtain ⟨c, listed, eq⟩ := List.mem_map.mp ((mem t).mpr (.inr ⟨absent', inFile⟩))
          refine ⟨c, listed, eq, ?_⟩
          obtain old | here := comes c listed
          · exact absurd ((same t).mpr (eq ▸ List.mem_map_of_mem old)) fresh
          · exact here ▸ file

theorem tuples_addFile (dir : InputDir) (ps : PageSize) (d_name : Name)
    (sorted : Sorted s.chip_list) (same : ∀ t, t ∈ seen ↔ t ∈ tuples s.chip_list) :
    Sorted (addFile dir ps s d_name).chip_list ∧
      ∀ t, t ∈ dir.added seen d_name ++ seen ↔ t ∈ tuples (addFile dir ps s d_name).chip_list := by
  cases new : dir.added seen d_name with
  | nil =>
      obtain ⟨list, -⟩ := addFile_skipped ps sorted same new
      rw [list]
      exact ⟨sorted, same⟩
  | cons first rest =>
      obtain ⟨infos, isDtb, absent⟩ := added_eq_cons new
      obtain ⟨sorted', mem⟩ := @addFile_spec dir ps s sorted _ isDtb _ _ infos
      refine ⟨sorted', fun t => ?_⟩
      rw [mem, List.mem_append, same, ← same first, and_iff_right absent, or_comm]

/-- The loop gives each tuple the file that is to serve it. -/
theorem serves_foldl (h : Collected dir ps done s) (sorted : Sorted s.chip_list)
    (same : ∀ t, t ∈ seen ↔ t ∈ tuples s.chip_list) (nodup : names.Nodup)
    (new : ∀ name ∈ names, name ∉ done) :
    (names.foldl (addFile dir ps) s).Serves t name ↔
      s.Serves t name ∨ t ∉ seen ∧ dir.owner t seen names = some name := by
  induction names generalizing s done seen with
  | nil => simp [InputDir.owner]
  | cons d_name names ih =>
      obtain ⟨first, nodup'⟩ := List.nodup_cons.mp nodup
      have new' : ∀ other ∈ names, other ∉ d_name :: done := fun other mem known => by
        obtain rfl | old := List.mem_cons.mp known
        · exact first mem
        · exact new other (List.mem_cons_of_mem _ mem) old
      obtain ⟨sorted', same'⟩ := tuples_addFile dir ps d_name sorted same
      rw [List.foldl_cons, ih (h.addFile (new d_name List.mem_cons_self)) sorted' same' nodup' new',
        serves_addFile h sorted same, InputDir.owner]
      split
      · next here =>
          simp only [Option.some.injEq, List.mem_append, here, true_or, not_true_eq_false,
            false_and, or_false, true_and, eq_comm]
      · next elsewhere => simp only [List.mem_append, elsewhere, false_and, and_false, or_false,
          false_or]

theorem serves_collect (ps : PageSize) (nodup : names.Nodup) :
    (collect dir ps names).Serves t name ↔ dir.owner t [] names = some name := by
  have start : Collected dir ps [] .new := by
    refine ⟨rfl, fun _ => rfl, ?_, ?_, ?_⟩
    all_goals simp [Combiner.new]
  have same (t : ChipTuple) : t ∈ [] ↔ t ∈ tuples Combiner.new.chip_list := .rfl
  rw [collect, serves_foldl start .nil same nodup fun _ _ => List.not_mem_nil]
  simp [Serves, Combiner.new]

end Collecting

section Reading

theorem rows_eq (h : s.Decodes dir ps image) :
    (rows image).map Row.toChipTuple = tuples s.chip_list := by
  refine List.ext_getElem (by simp [rows, tuples, h.count]) fun i inside _ => ?_
  have listed : i < s.chip_list.length := by simpa [rows, h.count] using inside
  simpa [rows, tuples] using h.tuples i listed

/-- No two rows have one tuple, so the row that a search takes is the one of its tuple. -/
theorem lookup_row (h : s.Decodes dir ps image) (sorted : Sorted s.chip_list) {row : Row}
    (listed : row ∈ rows image) :
    lookup image row.toChipTuple = some ((image.drop row.offset).take row.size) := by
  have nodup : ((rows image).map Row.toChipTuple).Nodup := by
    rw [rows_eq h]
    exact List.Pairwise.nodup sorted
  have there : ((rows image).find? fun other => other.toChipTuple = row.toChipTuple).isSome = true :=
    List.find?_isSome.mpr ⟨row, listed, decide_eq_true rfl⟩
  obtain ⟨other, found⟩ := Option.isSome_iff_exists.mp there
  have same : other.toChipTuple = row.toChipTuple := by simpa using List.find?_some found
  obtain rfl := List.inj_on_of_nodup_map nodup (List.mem_of_find?_eq_some found) listed same
  rw [lookup, found, Option.map_some]

/-- The table leads each tuple to the file of its entry's master. -/
theorem lookup_decodes (h : s.Decodes dir ps image) (sorted : Sorted s.chip_list)
    (file : s.Serves t name) : lookup image t = some (dir.padded ps name) := by
  obtain ⟨c, mem, rfl, served⟩ := file
  have named : c.toChipTuple ∈ (rows image).map Row.toChipTuple := by
    rw [rows_eq h]
    exact List.mem_map_of_mem mem
  obtain ⟨row, there, here⟩ := List.mem_map.mp named
  rw [← here, lookup_row h sorted there]
  obtain ⟨i, inside, rfl⟩ := List.mem_map.mp there
  have listed : i < s.chip_list.length := by
    rw [← h.count]
    exact List.mem_range.mp inside
  have entry : s.chip_list[i] = c :=
    sorted.unique (List.getElem_mem listed) mem ((h.tuples i listed).symm.trans here)
  obtain ⟨file, served', bytes⟩ := h.blob i listed
  rw [entry, served] at served'
  obtain rfl := Option.some.inj served'
  rw [bytes]
  rfl

theorem lookup_eq_none : lookup image t = none ↔ ∀ row ∈ rows image, row.toChipTuple ≠ t := by
  simp only [lookup, Option.map_eq_none_iff, List.find?_eq_none, decide_eq_true_eq, ne_eq]

theorem lookup_none (h : s.Decodes dir ps image) (absent : t ∉ tuples s.chip_list) :
    lookup image t = none := by
  rw [← rows_eq h] at absent
  exact lookup_eq_none.mpr fun row mem same => absent (List.mem_map.mpr ⟨row, mem, same⟩)

theorem ChipTuple.Fits.eq {t u board : ChipTuple} (fits : t.Fits board) (fits' : u.Fits board)
    (below : t.revNum ≤ u.revNum) (above : u.revNum ≤ t.revNum) : t = u :=
  ChipTuple.ext (fits.1.trans fits'.1.symm) (fits.2.1.trans fits'.2.1.symm)
    (fits.2.2.1.trans fits'.2.2.1.symm) (BitVec.le_antisymm below above)

theorem collected_complete (nodup : names.Nodup)
    (files : ∀ name ∈ names, (dir.padded ps name).length < 2 ^ 32)
    (small : (collect dir ps names).imageSize ps < 2 ^ 31) :
    (collect dir ps names).Complete dir ps := by
  have run : Collected dir ps names.reverse (collect dir ps names) := .collect nodup
  refine ⟨run.count, fun c mem => ?_, small⟩
  obtain ⟨name, file, -⟩ := run.master c mem
  obtain ⟨listed, -, size⟩ := run.file c.master name file
  have fits := files name (List.mem_reverse.mp listed)
  rw [InputDir.padded, List.length_append, filler, List.length_replicate] at fits
  exact ⟨name, file, size.trans (Nat.mod_eq_of_lt fits)⟩

/-- A file that has tuples and bytes is looked at unless its first tuple is there. -/
theorem owner_eq_none : (∀ t, dir.owner t [] names = none) ↔
    ∀ name ∈ names, dir.isDtb name = false := by
  induction names with
  | nil => simp [InputDir.owner]
  | cons name names ih =>
      rw [List.forall_mem_cons]
      cases isDtb : dir.isDtb name with
      | false =>
          have nothing : dir.added [] name = [] := by
            rw [InputDir.added]
            split
            · rfl
            · exact if_neg (by simp [isDtb])
          simpa [InputDir.owner, nothing] using ih
      | true =>
          refine iff_of_false (fun never => ?_) (by simp)
          cases infos : dir.getChipInfo name with
          | nil => simp [InputDir.isDtb, infos] at isDtb
          | cons first rest =>
              have served := never first
              simp [InputDir.owner, InputDir.added, infos, isDtb] at served

theorem combine_of_empty (nodup : names.Nodup) (empty : (collect dir ps names).chip_list = []) :
    combine dir ps names = (0, none) := by
  have run : Collected dir ps names.reverse (collect dir ps names) := .collect nodup
  have uncounted : (collect dir ps names).dtb_count = 0 := by
    rw [run.count, empty]
    rfl
  rw [combine, if_pos uncounted, run.rc empty]

theorem combine_of_complete (complete : (collect dir ps names).Complete dir ps)
    (listed : (collect dir ps names).chip_list ≠ []) :
    combine dir ps names = (0, some ((collect dir ps names).image dir ps)) := by
  have counted : (collect dir ps names).dtb_count ≠ 0 := by
    rw [complete.count]
    exact mt List.length_eq_zero_iff.mp listed
  rw [combine, if_neg counted, complete.generate_eq.1]

/-- A tuple's row leads to the file that is to serve it. -/
theorem lookup_image (nodup : names.Nodup) (complete : (collect dir ps names).Complete dir ps)
    (t : ChipTuple) :
    lookup ((collect dir ps names).image dir ps) t =
      (dir.owner t [] names).map (dir.padded ps) := by
  have run : Collected dir ps names.reverse (collect dir ps names) := .collect nodup
  have sorted := (collect_spec dir ps names).1
  by_cases present : t ∈ tuples (collect dir ps names).chip_list
  · obtain ⟨c, mem, same⟩ := List.mem_map.mp present
    obtain ⟨name, file, -⟩ := run.master c mem
    have serves : (collect dir ps names).Serves t name := ⟨c, mem, same, file⟩
    rw [lookup_decodes complete.decodes sorted serves, (serves_collect ps nodup).mp serves]
    rfl
  · have unserved : dir.owner t [] names = none := by
      refine Option.eq_none_iff_forall_ne_some.mpr fun name owned => present ?_
      obtain ⟨c, mem, same, -⟩ := (serves_collect ps nodup).mpr owned
      exact same ▸ List.mem_map_of_mem mem
    rw [lookup_none complete.decodes present, unserved]
    rfl

/-- The search on a board finds the tuple with the highest soc rev of those that have a file. -/
theorem load_image {search : List Row → ChipTuple → Option Row} (selects : IsSearch search)
    (nodup : names.Nodup) (complete : (collect dir ps names).Complete dir ps)
    (board : ChipTuple) :
    let image := (collect dir ps names).image dir ps
    (load search image board = none ↔ ∀ t, t.Fits board → dir.owner t [] names = none) ∧
      ∀ t name, t.Fits board → dir.owner t [] names = some name →
        (∀ u, u.Fits board → dir.owner u [] names ≠ none → u.revNum ≤ t.revNum) →
        load search image board = some (dir.padded ps name) := by
  intro image
  have sorted := (collect_spec dir ps names).1
  have found_iff (t : ChipTuple) : (∃ row ∈ rows image, row.toChipTuple = t) ↔
      dir.owner t [] names ≠ none := by
    have looked : lookup image t = (dir.owner t [] names).map (dir.padded ps) :=
      lookup_image nodup complete t
    rw [Ne, ← Option.map_eq_none_iff (f := dir.padded ps), ← looked, lookup_eq_none]
    simp
  cases found : search (rows image) board with
  | none =>
      have nobody (t : ChipTuple) (fits : t.Fits board) : dir.owner t [] names = none := by
        by_contra owned
        obtain ⟨row, mem, rfl⟩ := (found_iff t).mpr owned
        exact selects.finds found row mem fits
      refine ⟨iff_of_true (by rw [load, found, Option.map_none]) nobody, ?_⟩
      intro t name fits owned
      cases (nobody t fits).symm.trans owned
  | some row =>
      have listed := selects.listed found
      have fits := selects.fits found
      have served := (found_iff row.toChipTuple).mp ⟨row, listed, rfl⟩
      have loaded : load search image board = lookup image row.toChipTuple := by
        rw [load, found, lookup_row complete.decodes sorted listed, Option.map_some]
      constructor
      · refine iff_of_false (fun nothing => ?_) fun nobody => served (nobody _ fits)
        exact lookup_eq_none.mp (loaded.symm.trans nothing) row listed rfl
      · intro t name fits' owned highest
        obtain ⟨other, mem, rfl⟩ := (found_iff t).mpr (by simp [owned])
        have same : row.toChipTuple = other.toChipTuple :=
          fits.eq fits' (highest _ fits served) (selects.highest found other mem fits')
        rw [loaded, lookup_image nodup complete, same, owned]
        rfl

/-- main() succeeds and leaves a file if there is a DTB. On every board a bootloader that searches
as dtbtool.txt says loads the file that is to serve the tuple which fits the board best, and nothing
where no tuple that fits has a file. -/
theorem boards_get_their_device_trees (dir : InputDir) (ps : PageSize)
    {search : List Row → ChipTuple → Option Row} (selects : IsSearch search) {names : List Name}
    (nodup : names.Nodup) (files : ∀ name ∈ names, (dir.padded ps name).length < 2 ^ 32)
    (small : (collect dir ps names).imageSize ps < 2 ^ 31) :
    (combine dir ps names).1 = 0 ∧
      ((combine dir ps names).2 = none ↔ ∀ name ∈ names, dir.isDtb name = false) ∧
      ∀ image ∈ (combine dir ps names).2, ∀ board,
        (load search image board = none ↔ ∀ t, t.Fits board → dir.owner t [] names = none) ∧
          ∀ t name, t.Fits board → dir.owner t [] names = some name →
            (∀ u, u.Fits board → dir.owner u [] names ≠ none → u.revNum ≤ t.revNum) →
            load search image board = some (dir.padded ps name) := by
  have run : Collected dir ps names.reverse (collect dir ps names) := .collect nodup
  have complete := collected_complete nodup files small
  rw [← owner_eq_none]
  by_cases empty : (collect dir ps names).chip_list = []
  · have nobody (t : ChipTuple) : dir.owner t [] names = none := by
      refine Option.eq_none_iff_forall_ne_some.mpr fun name owned => ?_
      obtain ⟨c, mem, -⟩ := (serves_collect ps nodup).mpr owned
      rw [empty] at mem
      cases mem
    rw [combine_of_empty nodup empty]
    exact ⟨rfl, iff_of_true rfl nobody, by simp⟩
  · rw [combine_of_complete complete empty]
    refine ⟨rfl, iff_of_false (by simp) fun nobody => ?_, ?_⟩
    · obtain ⟨c, mem⟩ := List.exists_mem_of_ne_nil _ empty
      obtain ⟨name, file, -⟩ := run.master c mem
      cases (nobody _).symm.trans ((serves_collect ps nodup).mp ⟨c, mem, rfl, file⟩)
    · rintro image ⟨⟩ board
      exact load_image selects nodup complete board

theorem owner_spec {owner : Name} (owned : dir.owner t seen names = some owner) :
    owner ∈ names ∧ dir.isDtb owner = true ∧ t ∈ dir.getChipInfo owner := by
  induction names generalizing seen with
  | nil => cases owned
  | cons name names ih =>
      rw [InputDir.owner] at owned
      split at owned
      · next here =>
          obtain rfl := Option.some.inj owned
          cases new : dir.added seen name with
          | nil => simp [new] at here
          | cons first rest =>
              obtain ⟨infos, isDtb, -⟩ := added_eq_cons new
              exact ⟨List.mem_cons_self, isDtb, infos ▸ new ▸ here⟩
      · obtain ⟨mem, rest⟩ := ih owned
        exact ⟨List.mem_cons_of_mem _ mem, rest⟩

theorem owner_of_disjoint (nodup : names.Nodup) (disjoint : dir.Disjoint names)
    (mem : name ∈ names) (isDtb : dir.isDtb name = true) (inFile : t ∈ dir.getChipInfo name) :
    dir.owner t [] names = some name := by
  have ps : PageSize := ⟨1, by decide, by decide⟩
  have run : Collected dir ps names.reverse (collect dir ps names) := .collect nodup
  have present : t ∈ tuples (collect dir ps names).chip_list :=
    (mem_collect_of_disjoint nodup disjoint).mpr ⟨name, mem, isDtb, inFile⟩
  obtain ⟨c, listed, same⟩ := List.mem_map.mp present
  obtain ⟨other, file, -⟩ := run.master c listed
  have owned := (serves_collect ps nodup).mp ⟨c, listed, same, file⟩
  obtain ⟨mem', isDtb', inFile'⟩ := owner_spec owned
  by_cases one : name = other
  · rw [owned, one]
  · exact absurd inFile' (disjoint name mem other mem' isDtb isDtb' one t inFile)

/-- Both files have the first board, and the second one is skipped for it. -/
def sharedBoard : InputDir where
  isRegular _ := true
  getChipInfo name :=
    if name = "a.dtb".toList then [⟨126, 8, 0, 2⟩, ⟨126, 1, 0, 2⟩]
    else [⟨126, 8, 0, 2⟩, ⟨130, 8, 0, 1⟩]
  contents name := if name = "a.dtb".toList then [0xd0, 0x0d] else [0xfe, 0xed]

/-- A search through all rows. -/
def scan (table : List Row) (board : ChipTuple) : Option Row :=
  (table.filter fun row => row.toChipTuple.Fits board).argmax fun row => row.revNum.toNat

theorem scan_isSearch : IsSearch scan where
  listed found := (List.mem_filter.mp (List.argmax_mem found)).1
  fits found := of_decide_eq_true (List.mem_filter.mp (List.argmax_mem found)).2
  highest found other mem fits :=
    List.le_of_mem_argmax (List.mem_filter.mpr ⟨mem, decide_eq_true fits⟩) found
  finds nothing row mem fits := by
    have none_fits := List.filter_eq_nil_iff.mp (List.argmax_eq_none.mp nothing)
    exact none_fits row mem (decide_eq_true fits)

theorem shared_board_gets_first_file :
    let names := ["a.dtb".toList, "b.dtb".toList]
    let ps : PageSize := ⟨64, by decide, by decide⟩
    (combine sharedBoard ps names).1 = 0 ∧
      ((combine sharedBoard ps names).2 = none ↔ ∀ name ∈ names, sharedBoard.isDtb name = false) ∧
      ∀ image ∈ (combine sharedBoard ps names).2, ∀ board,
        (load scan image board = none ↔
          ∀ t, t.Fits board → sharedBoard.owner t [] names = none) ∧
          ∀ t name, t.Fits board → sharedBoard.owner t [] names = some name →
            (∀ u, u.Fits board → sharedBoard.owner u [] names ≠ none → u.revNum ≤ t.revNum) →
            load scan image board = some (sharedBoard.padded ps name) :=
  boards_get_their_device_trees sharedBoard ⟨64, by decide, by decide⟩ scan_isSearch (by decide)
    (by decide) (by decide)

/-- A newer revision of the shared board takes the tree of the one before it. -/
example : ((combine sharedBoard ⟨64, by decide, by decide⟩ ["a.dtb".toList, "b.dtb".toList]).2.bind
    fun image => load scan image ⟨126, 8, 0, 5⟩) =
      some (sharedBoard.padded ⟨64, by decide, by decide⟩ "a.dtb".toList) := by
  decide +kernel

end Reading

section Text

/-- What dtc prints of a DTB of either version, and the boards that its properties name. -/
inductive Prints (w : Nat) : List CString → List ChipTuple → Prop
  | v1 {lines : List CString} {indent : CString} {items : List (CString × CString)} :
      WellSpaced items → '<' ∉ indent →
      lines.filter (hasTag QCDT_DT_TAG) = [propertyLine indent QCDT_DT_TAG items] →
      lines.filter (hasTag QCDT_BOARD_TAG) = [] →
      Prints w lines ((triples (numbers w items)).map fun t => ⟨t.1, t.2.1, 0, t.2.2⟩)
  | v2 {lines : List CString} {indent indent' : CString} {items items' : List (CString × CString)} :
      WellSpaced items → '<' ∉ indent → WellSpaced items' → '<' ∉ indent' →
      lines.filter (hasTag QCDT_DT_TAG) = [propertyLine indent QCDT_DT_TAG items] →
      lines.filter (hasTag QCDT_BOARD_TAG) = [propertyLine indent' QCDT_BOARD_TAG items'] →
      2 ≤ items.length → 2 ≤ items'.length →
      Prints w lines ((pairs (numbers w items)).flatMap fun p =>
        (pairs (numbers w items')).map fun q => ⟨p.1, q.1, q.2, p.2⟩)

variable {w : Nat} {isRegular : Name → Bool} {dts : Name → List CString}
  {contents : Name → List UInt8} {boards : List ChipTuple}

theorem Prints.getChipInfo (h : Prints w (dts name) boards) :
    ((InputDir.decompiled w isRegular dts contents).getChipInfo name).Perm boards := by
  cases h with
  | v1 spacing before one no_board =>
      have version : getVersionInfo (dts name) = 1 := if_neg (by simpa using no_board)
      obtain ⟨chip, result, chained⟩ := getChipInfo_v1_eq (w := w) spacing before one
      have read : Dtbtool.getChipInfo w 1 (dts name) = some (chip, some chip.length) := result
      simp only [InputDir.decompiled, version, read]
      exact chained.infos
  | v2 spacing before spacing' before' one one' some_pair some_pair' =>
      have version : getVersionInfo (dts name) = 2 := if_pos (any_of_filter_eq one')
      obtain ⟨chip, result, infos, chained, perm⟩ :=
        getChipInfo_v2_eq (w := w) spacing before spacing' before' one one' some_pair some_pair'
      have read : Dtbtool.getChipInfo w 2 (dts name) = _ := result
      simp only [InputDir.decompiled, version, read]
      exact chained.infos.trans perm

/-- In a directory in which no board is named twice, the row of each board that the properties of a
DTB name leads to this DTB. -/
theorem named_boards_get_the_file (w : Nat) (isRegular : Name → Bool) (dts : Name → List CString)
    (contents : Name → List UInt8) (ps : PageSize) {names : List Name} (nodup : names.Nodup)
    (files : ∀ name ∈ names,
      ((InputDir.decompiled w isRegular dts contents).padded ps name).length < 2 ^ 32)
    (small : (collect (.decompiled w isRegular dts contents) ps names).imageSize ps < 2 ^ 31)
    (disjoint : (InputDir.decompiled w isRegular dts contents).Disjoint names)
    {name : Name} (mem : name ∈ names) (regular : isRegular name = true)
    (named : isDtbName name = true) (nonempty : contents name ≠ [])
    {boards : List ChipTuple} (prints : Prints w (dts name) boards) :
    ∀ t ∈ boards, ∃ image,
      combine (.decompiled w isRegular dts contents) ps names = (0, some image) ∧
        lookup image t =
          some (contents name ++ filler (ps.padding (contents name).length)) := by
  intro t board
  have complete := collected_complete nodup files small
  have perm : ((InputDir.decompiled w isRegular dts contents).getChipInfo name).Perm boards :=
    prints.getChipInfo
  have inFile := perm.mem_iff.mpr board
  have isDtb : (InputDir.decompiled w isRegular dts contents).isDtb name = true := by
    simp only [InputDir.isDtb, Bool.and_eq_true, bne_iff_ne]
    exact ⟨⟨⟨regular, named⟩, List.ne_nil_of_mem inFile⟩, nonempty⟩
  have owned := owner_of_disjoint nodup disjoint mem isDtb inFile
  obtain ⟨c, listed, -⟩ := (serves_collect ps nodup).mpr owned
  refine ⟨_, combine_of_complete complete (List.ne_nil_of_mem listed), ?_⟩
  rw [lookup_image nodup complete, owned]
  rfl

theorem decompiled_prints : Prints 64 decompiled ((pairs (numbers 64 chipItems)).flatMap fun p =>
    (pairs (numbers 64 boardItems)).map fun q => ⟨p.1, q.1, q.2, p.2⟩) := by
  have value : ∀ item ∈ chipItems ++ boardItems, IsValue item.2 := by
    simp only [chipItems, boardItems, List.cons_append, List.nil_append, List.forall_mem_cons]
    refine ⟨?_, ?_, ?_, ?_, ?_, ?_, ?_, fun _ none => absurd none List.not_mem_nil⟩
    all_goals exact ⟨by decide, by simp [isBlank]⟩
  obtain ⟨values, values'⟩ := List.forall_mem_append.mp value
  exact @Prints.v2 64 decompiled ['\t'] ['\t'] chipItems boardItems
    ⟨by simp [chipItems, isBlank], by simp [chipItems], values⟩ (by decide)
    ⟨by simp [boardItems, isBlank], by simp [boardItems], values'⟩ (by decide) (by decide)
    (by decide) (by decide) (by decide)

theorem two_chips_get_the_file :
    let dir : InputDir := .decompiled 64 (fun _ => true) (fun _ => decompiled) fun _ => [0xd0, 0x0d]
    let ps : PageSize := ⟨64, by decide, by decide⟩
    ∀ t ∈ ((pairs (numbers 64 chipItems)).flatMap fun p =>
        (pairs (numbers 64 boardItems)).map fun q => (⟨p.1, q.1, q.2, p.2⟩ : ChipTuple)),
      ∃ image, combine dir ps ["a.dtb".toList] = (0, some image) ∧
        lookup image t = some ([0xd0, 0x0d] ++ filler (ps.padding 2)) :=
  named_boards_get_the_file 64 (fun _ => true) (fun _ => decompiled) (fun _ => [0xd0, 0x0d])
    ⟨64, by decide, by decide⟩ (by decide) (by decide) (by decide +kernel) (by decide +kernel)
    (List.mem_singleton_self _) rfl rfl (by decide) decompiled_prints

end Text
end Msm8974.Dtbtool
