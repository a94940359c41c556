import Mathlib.Data.List.Forall2
import Msm8974.Dtbtool.Collecting

/-!
The image does not tell in which order readdir returned the files. Two runs allocate their
entries at different addresses and use an entry of another address as master, but the list
is sorted, and both loops look at a master's address only to find its fields.
-/

namespace Msm8974.Dtbtool
open Combiner

variable {dir : InputDir} {ps : PageSize}

/-- Addresses of two runs that stand for the same master. -/
structure SameMasters (R : Nat → Nat → Prop) (s s' : Combiner) : Prop where
  unique : ∀ a a' b b', R a a' → R b b' → (a = b ↔ a' = b')
  dtb_size : ∀ a a', R a a' → s.dtb_size a = s'.dtb_size a'
  dtb_file : ∀ a a', R a a' → s.dtb_file a = s'.dtb_file a'

def SameEntry (R : Nat → Nat → Prop) (c c' : ChipInfo) : Prop :=
  c.toChipTuple = c'.toChipTuple ∧ R c.master c'.master

structure SameOutput (R : Nat → Nat → Prop) (out out' : Output) : Prop where
  bytes : out.bytes = out'.bytes
  expected : out.expected = out'.expected
  offset : ∀ a a', R a a' → out.master_offset a = out'.master_offset a'
  wrote : ∀ a a', R a a' → out.wroteDtb a = out'.wroteDtb a'

section SameRuns
variable {R : Nat → Nat → Prop} {s s' : Combiner} {out out' : Output} {c c' : ChipInfo}

theorem update_same {α : Type} {f f' : Nat → α} {a a' : Nat} (same : SameMasters R s s')
    (related : R a a') (values : ∀ b b', R b b' → f b = f' b') (x : α) :
    ∀ b b', R b b' → Function.update f a x b = Function.update f' a' x b' := by
  intro b b' other
  by_cases here : b = a
  · have here' : b' = a' := (same.unique b b' a a' other related).mp here
    rw [here, here', Function.update_self, Function.update_self]
  · have there : b' ≠ a' := fun eq => here ((same.unique b b' a a' other related).mpr eq)
    rw [Function.update_of_ne here, Function.update_of_ne there]
    exact values b b' other

theorem writeEntry_same (same : SameMasters R s s') (outs : SameOutput R out out')
    (entry : SameEntry R c c') : SameOutput R (s.writeEntry out c) (s'.writeEntry out' c') := by
  obtain ⟨fields, master⟩ := entry
  have size := same.dtb_size _ _ master
  have offset := outs.offset _ _ master
  simp only [writeEntry, fields, size, offset, outs.bytes, outs.expected]
  split
  · exact ⟨rfl, rfl, outs.offset, outs.wrote⟩
  · exact ⟨rfl, rfl, update_same same master outs.offset _, outs.wrote⟩

theorem writeDtb_same (same : SameMasters R s s') (outs : SameOutput R out out')
    (entry : SameEntry R c c') :
    Option.Rel (SameOutput R) (s.writeDtb dir ps out c) (s'.writeDtb dir ps out' c') := by
  have master := entry.2
  have size := same.dtb_size _ _ master
  have file := same.dtb_file _ _ master
  have wrote := outs.wrote _ _ master
  simp only [writeDtb, size, file, wrote, outs.bytes]
  split
  · exact .some outs
  · split
    · exact .none
    · split
      · exact .none
      · exact .some ⟨rfl, outs.expected, outs.offset, update_same same master outs.wrote true⟩

theorem foldl_writeEntry_same (same : SameMasters R s s') {chips chips' : List ChipInfo}
    (entries : List.Forall₂ (SameEntry R) chips chips') (outs : SameOutput R out out') :
    SameOutput R (chips.foldl s.writeEntry out) (chips'.foldl s'.writeEntry out') := by
  induction entries generalizing out out' with
  | nil => exact outs
  | cons entry _ ih => exact ih (writeEntry_same same outs entry)

theorem foldlM_writeDtb_same (same : SameMasters R s s') {chips chips' : List ChipInfo}
    (entries : List.Forall₂ (SameEntry R) chips chips') (outs : SameOutput R out out') :
    Option.Rel (SameOutput R) (chips.foldlM (s.writeDtb dir ps) out)
      (chips'.foldlM (s'.writeDtb dir ps) out') := by
  induction entries generalizing out out' with
  | nil => exact .some outs
  | @cons c c' chips chips' entry _ ih =>
      rw [List.foldlM_cons, List.foldlM_cons]
      have first : Option.Rel (SameOutput R) (s.writeDtb dir ps out c)
          (s'.writeDtb dir ps out' c') := writeDtb_same same outs entry
      cases step : s.writeDtb dir ps out c with
      | none =>
          rw [step] at first
          cases step' : s'.writeDtb dir ps out' c' with
          | none => exact .none
          | some next => rw [step'] at first; cases first
      | some next =>
          rw [step] at first
          cases step' : s'.writeDtb dir ps out' c' with
          | none => rw [step'] at first; cases first
          | some next' =>
              rw [step'] at first
              cases first with
              | some outs' => exact ih outs'

/-- Runs with the same entries, whatever the addresses of their masters, leave the same file. -/
theorem generate_same (same : SameMasters R s s') (count : s.dtb_count = s'.dtb_count)
    (entries : List.Forall₂ (SameEntry R) s.chip_list s'.chip_list) :
    s.generate dir ps = s'.generate dir ps := by
  have tableSize : s.tableSize = s'.tableSize := by rw [tableSize, count, Combiner.tableSize]
  have header : SameOutput R (s.header ps) (s'.header ps) :=
    ⟨by simp only [Combiner.header, count], by simp only [Combiner.header, dtb_offset, tableSize],
      fun _ _ _ => rfl, fun _ _ _ => rfl⟩
  have entries' := foldl_writeEntry_same same entries header
  have table : SameOutput R (s.writeTable ps) (s'.writeTable ps) :=
    ⟨by simp only [writeTable, entries'.bytes, tableSize], entries'.expected, entries'.offset,
      entries'.wrote⟩
  have dtbs : Option.Rel (SameOutput R) (s.chip_list.foldlM (s.writeDtb dir ps) (s.writeTable ps))
      (s'.chip_list.foldlM (s'.writeDtb dir ps) (s'.writeTable ps)) :=
    foldlM_writeDtb_same same entries table
  rw [generate, generate]
  cases written : s.chip_list.foldlM (s.writeDtb dir ps) (s.writeTable ps) with
  | none =>
      rw [written] at dtbs
      cases written' : s'.chip_list.foldlM (s'.writeDtb dir ps) (s'.writeTable ps) with
      | none => rfl
      | some out => rw [written'] at dtbs; cases dtbs
  | some out =>
      rw [written] at dtbs
      cases written' : s'.chip_list.foldlM (s'.writeDtb dir ps) (s'.writeTable ps) with
      | none => rw [written'] at dtbs; cases dtbs
      | some out' =>
          rw [written'] at dtbs
          cases dtbs with
          | some outs => simp only [outs.bytes, outs.expected]

end SameRuns

section Collected

/-- What main() has collected from the files in `done`. -/
structure Collected (dir : InputDir) (ps : PageSize) (done : List Name) (s : Combiner) : Prop where
  count : s.dtb_count = s.chip_list.length
  rc : s.chip_list = [] → s.rc = 0
  master : ∀ c ∈ s.chip_list, ∃ name, s.dtb_file c.master = some name ∧ dir.isDtb name = true ∧
    c.toChipTuple ∈ dir.getChipInfo name
  file : ∀ a name, s.dtb_file a = some name → name ∈ done ∧ a < s.allocated ∧
    s.dtb_size a = ((dir.contents name).length + ps.padding (dir.contents name).length) % 2 ^ 32
  distinct : ∀ a b name, s.dtb_file a = some name → s.dtb_file b = some name → a = b

/-- Adding an entry leaves all but the list alone. -/
theorem Collected.addChip {done : List Name} {s : Combiner} (h : Collected dir ps done s)
    {c : ChipInfo} {name : Name} (file : s.dtb_file c.master = some name)
    (isDtb : dir.isDtb name = true) (info : c.toChipTuple ∈ dir.getChipInfo name) :
    Collected dir ps done (s.addChip c) ∧ (s.addChip c).dtb_file = s.dtb_file := by
  rw [Combiner.addChip]
  split
  next chip_list added =>
    refine ⟨⟨?_, fun _ => rfl, fun d mem => ?_, h.file, h.distinct⟩, rfl⟩
    · have length := (chipAdd_perm added).length_eq
      simp only [length, h.count, List.length_cons]
    · rcases (mem_chipAdd added).mp mem with rfl | old
      · exact ⟨name, file, isDtb, info⟩
      · exact h.master d old
  next duplicate =>
    refine ⟨⟨h.count, fun empty => ?_, h.master, h.file, h.distinct⟩, rfl⟩
    simp only at empty
    rw [empty, chipAdd] at duplicate
    cases duplicate

theorem Collected.foldl_addChip {done : List Name} {name : Name} (isDtb : dir.isDtb name = true)
    {chips : List ChipInfo} {s : Combiner} (h : Collected dir ps done s)
    (entries : ∀ c ∈ chips, s.dtb_file c.master = some name ∧
      c.toChipTuple ∈ dir.getChipInfo name) :
    Collected dir ps done (chips.foldl Combiner.addChip s) := by
  induction chips generalizing s with
  | nil => exact h
  | cons c chips ih =>
      obtain ⟨file, info⟩ := entries c List.mem_cons_self
      obtain ⟨next, files⟩ := h.addChip file isDtb info
      refine ih next fun d mem => ?_
      rw [files]
      exact entries d (List.mem_cons_of_mem _ mem)

theorem Collected.more {done : List Name} {s : Combiner} (h : Collected dir ps done s) (name : Name)
    (n : Nat) : Collected dir ps (name :: done) { s with allocated := s.allocated + n } where
  count := h.count
  rc := h.rc
  master := h.master
  file a other file :=
    have ⟨mem, allocated, size⟩ := h.file a other file
    ⟨List.mem_cons_of_mem _ mem, Nat.lt_add_right n allocated, size⟩
  distinct := h.distinct

/-- The first entry of a file brings the fields of a new master. -/
theorem Collected.addMaster {done : List Name} {s : Combiner} (h : Collected dir ps done s)
    {name : Name} (new : name ∉ done) (isDtb : dir.isDtb name = true) {chip : ChipInfo}
    (address : chip.address = s.allocated) (master : chip.master = s.allocated)
    (info : chip.toChipTuple ∈ dir.getChipInfo name) {chip_list : List ChipInfo}
    (added : chipAdd chip s.chip_list = some chip_list) (n : Nat) (pos : 0 < n) :
    Collected dir ps (name :: done) { s with
      chip_list
      dtb_count := s.dtb_count + 1
      dtb_size := Function.update s.dtb_size chip.address
        (((dir.contents name).length + ps.padding (dir.contents name).length) % 2 ^ 32)
      dtb_file := Function.update s.dtb_file chip.address (some name)
      allocated := s.allocated + n
      rc := 0 } := by
  rw [address]
  constructor
  case count =>
    have length := (chipAdd_perm added).length_eq
    simp only [length, h.count, List.length_cons]
  case rc => exact fun _ => rfl
  case master =>
    intro c mem
    rcases (mem_chipAdd added).mp mem with rfl | old
    · exact ⟨name, by simp [master], isDtb, info⟩
    · obtain ⟨other, file, rest⟩ := h.master c old
      have below := (h.file _ _ file).2.1
      exact ⟨other, by simp [Function.update_of_ne below.ne, file], rest⟩
  case file =>
    intro a other file
    by_cases here : a = s.allocated
    · subst here
      obtain rfl : name = other := by simpa using file
      exact ⟨List.mem_cons_self, by dsimp only; omega, by simp⟩
    · simp only [Function.update_of_ne here] at file ⊢
      obtain ⟨mem, below, size⟩ := h.file a other file
      exact ⟨List.mem_cons_of_mem _ mem, by omega, size⟩
  case distinct =>
    have fresh : ∀ a, s.dtb_file a ≠ some name := fun a file => new (h.file a name file).1
    intro a b other file file'
    by_cases here : a = s.allocated <;> by_cases there : b = s.allocated
    · rw [here, there]
    · subst here
      obtain rfl : name = other := by simpa using file
      exact absurd (by simpa [Function.update_of_ne there] using file') (fresh b)
    · subst there
      obtain rfl : name = other := by simpa using file'
      exact absurd (by simpa [Function.update_of_ne here] using file) (fresh a)
    · simp only [Function.update_of_ne here, Function.update_of_ne there] at file file'
      exact h.distinct a b other file file'

theorem Collected.addFile {done : List Name} {s : Combiner} (h : Collected dir ps done s)
    {name : Name} (new : name ∉ done) :
    Collected dir ps (name :: done) (Dtbtool.addFile dir ps s name) := by
  rw [Dtbtool.addFile]
  split
  next isDtb =>
    have entry : ∀ c ∈ s.allocate (dir.getChipInfo name), c.master = s.allocated ∧
        c.toChipTuple ∈ dir.getChipInfo name := by
      intro c mem
      have info : c.toChipTuple ∈ tuples (s.allocate (dir.getChipInfo name)) :=
        List.mem_map_of_mem mem
      rw [tuples_allocate] at info
      obtain ⟨i, _, rfl⟩ := List.mem_mapIdx.mp mem
      exact ⟨rfl, info⟩
    cases infos : dir.getChipInfo name with
    | nil => simp [InputDir.isDtb, infos] at isDtb
    | cons first tail =>
        rw [infos, allocate, List.mapIdx_cons, ← infos] at entry
        rw [allocate, List.mapIdx_cons]
        generalize allocated : List.mapIdx (fun i info =>
          (⟨info, s.allocated + (i + 1), s.allocated⟩ : ChipInfo)) tail = rest at entry ⊢
        obtain ⟨master, info⟩ := entry _ List.mem_cons_self
        simp only [addChips]
        split
        next duplicate =>
          refine { h.more name _ with rc := fun empty => ?_ }
          simp only at empty
          rw [empty, chipAdd] at duplicate
          cases duplicate
        next chip_list added =>
          refine (h.addMaster new isDtb rfl rfl info added (rest.length + 1)
            (Nat.succ_pos _)).foldl_addChip isDtb fun c mem => ?_
          obtain ⟨master', info'⟩ := entry c (List.mem_cons_of_mem _ mem)
          exact ⟨by simp [master'], info'⟩
  next => exact h.more name 0

theorem Collected.foldl_addFile {done : List Name} {s : Combiner} (h : Collected dir ps done s)
    {names : List Name} (nodup : names.Nodup) (new : ∀ name ∈ names, name ∉ done) :
    Collected dir ps (names.reverse ++ done) (names.foldl (Dtbtool.addFile dir ps) s) := by
  induction names generalizing s done with
  | nil => exact h
  | cons name names ih =>
      obtain ⟨first, rest⟩ := List.nodup_cons.mp nodup
      rw [List.reverse_cons, List.append_assoc, List.singleton_append]
      refine ih (h.addFile (new name List.mem_cons_self)) rest fun other mem known => ?_
      rcases List.mem_cons.mp known with same | old
      · exact first (same ▸ mem)
      · exact new other (List.mem_cons_of_mem _ mem) old

theorem Collected.collect {names : List Name} (nodup : names.Nodup) :
    Collected dir ps names.reverse (collect dir ps names) := by
  have start : Collected dir ps [] .new := by
    refine ⟨rfl, fun _ => rfl, ?_, ?_, ?_⟩
    all_goals simp [Combiner.new]
  have all := start.foldl_addFile nodup fun _ _ => List.not_mem_nil
  rwa [List.append_nil] at all

end Collected

/-- Masters with the same file. -/
def SameFile (s s' : Combiner) (a a' : Nat) : Prop :=
  ∃ name, s.dtb_file a = some name ∧ s'.dtb_file a' = some name

theorem sameMasters_of_collected {done done' : List Name} {s s' : Combiner}
    (h : Collected dir ps done s) (h' : Collected dir ps done' s') :
    SameMasters (SameFile s s') s s' where
  unique := by
    rintro a a' b b' ⟨name, file, file'⟩ ⟨other, other_file, other_file'⟩
    constructor
    · rintro rfl
      obtain rfl : name = other := Option.some.inj (file.symm.trans other_file)
      exact h'.distinct a' b' name file' other_file'
    · rintro rfl
      obtain rfl : name = other := Option.some.inj (file'.symm.trans other_file')
      exact h.distinct a b name file other_file
  dtb_size := by
    rintro a a' ⟨name, file, file'⟩
    rw [(h.file a name file).2.2, (h'.file a' name file').2.2]
  dtb_file := by
    rintro a a' ⟨name, file, file'⟩
    rw [file, file']

/-- No tuple comes from two files of the directory. -/
def InputDir.Disjoint (dir : InputDir) (names : List Name) : Prop :=
  ∀ name ∈ names, ∀ other ∈ names, dir.isDtb name = true → dir.isDtb other = true →
    name ≠ other → ∀ t ∈ dir.getChipInfo name, t ∉ dir.getChipInfo other

/-- Then no file is skipped. -/
theorem accepted_of_disjoint {names : List Name} (nodup : names.Nodup)
    (disjoint : dir.Disjoint names) {seen : List ChipTuple}
    (unseen : ∀ name ∈ names, dir.isDtb name = true → ∀ t ∈ dir.getChipInfo name, t ∉ seen) :
    accepted seen (dir.dtbs names) = dir.dtbs names := by
  induction names generalizing seen with
  | nil => rfl
  | cons name names ih =>
      obtain ⟨first, nodup'⟩ := List.nodup_cons.mp nodup
      have disjoint' : dir.Disjoint names := fun one mem other mem' =>
        disjoint one (List.mem_cons_of_mem _ mem) other (List.mem_cons_of_mem _ mem')
      have unseen' : ∀ other ∈ names, dir.isDtb other = true → ∀ t ∈ dir.getChipInfo other,
          t ∉ seen := fun other mem => unseen other (List.mem_cons_of_mem _ mem)
      cases isDtb : dir.isDtb name with
      | false =>
          have others : dir.dtbs (name :: names) = dir.dtbs names := by simp [InputDir.dtbs, isDtb]
          rw [others]
          exact ih nodup' disjoint' unseen'
      | true =>
          have files : dir.dtbs (name :: names) = dir.getChipInfo name :: dir.dtbs names := by
            simp [InputDir.dtbs, isDtb]
          rw [files]
          have fresh := unseen name List.mem_cons_self isDtb
          have others := fun other mem isDtb' => disjoint other (List.mem_cons_of_mem _ mem) name
            List.mem_cons_self isDtb' isDtb fun same => first (same ▸ mem)
          cases infos : dir.getChipInfo name with
          | nil => simp [InputDir.isDtb, infos] at isDtb
          | cons head tail =>
              rw [infos] at fresh others
              rw [accepted, if_neg (fresh head List.mem_cons_self)]
              refine congrArg _ (ih nodup' disjoint' fun other mem isDtb' t inFile known => ?_)
              rcases List.mem_append.mp known with here | old
              · exact others other mem isDtb' t inFile here
              · exact unseen' other mem isDtb' t inFile old

theorem mem_collect_of_disjoint {names : List Name} (nodup : names.Nodup)
    (disjoint : dir.Disjoint names) {t : ChipTuple} :
    t ∈ tuples (collect dir ps names).chip_list ↔
      ∃ name ∈ names, dir.isDtb name = true ∧ t ∈ dir.getChipInfo name := by
  rw [(collect_spec dir ps names).2 t,
    accepted_of_disjoint nodup disjoint fun _ _ _ _ _ => List.not_mem_nil]
  simp [InputDir.dtbs, and_assoc]

/-- Two orders of the same files give the same result and the same output file. -/
theorem directory_order_does_not_matter (dir : InputDir) (ps : PageSize) {names names' : List Name}
    (nodup : names.Nodup) (disjoint : dir.Disjoint names) (perm : names.Perm names') :
    combine dir ps names = combine dir ps names' := by
  have nodup' := perm.nodup_iff.mp nodup
  have disjoint' : dir.Disjoint names' := fun name mem other mem' =>
    disjoint name (perm.mem_iff.mpr mem) other (perm.mem_iff.mpr mem')
  have run : Collected dir ps names.reverse (collect dir ps names) := .collect nodup
  have run' : Collected dir ps names'.reverse (collect dir ps names') := .collect nodup'
  have same_tuples : tuples (collect dir ps names).chip_list =
      tuples (collect dir ps names').chip_list := by
    refine sorted_tuples_eq (collect_spec dir ps names).1 (collect_spec dir ps names').1 fun t => ?_
    rw [mem_collect_of_disjoint nodup disjoint, mem_collect_of_disjoint nodup' disjoint']
    simp only [perm.mem_iff]
  have length : (collect dir ps names).chip_list.length =
      (collect dir ps names').chip_list.length := by
    simpa [tuples] using congrArg List.length same_tuples
  have count : (collect dir ps names).dtb_count = (collect dir ps names').dtb_count := by
    rw [run.count, run'.count, length]
  have image : (collect dir ps names).generate dir ps = (collect dir ps names').generate dir ps :=
    generate_same (sameMasters_of_collected run run') count ?_
  · simp only [combine, image, count]
    split
    next empty =>
      have none_listed : (collect dir ps names').chip_list = [] :=
        List.length_eq_zero_iff.mp (run'.count.symm.trans empty)
      have none_listed' : (collect dir ps names).chip_list = [] :=
        List.length_eq_zero_iff.mp (length.trans (congrArg List.length none_listed))
      rw [run.rc none_listed', run'.rc none_listed]
    next => rfl
  · have pointwise : List.Forall₂ (fun c c' => c.toChipTuple = c'.toChipTuple)
        (collect dir ps names).chip_list (collect dir ps names').chip_list := by
      have equal : List.Forall₂ Eq (tuples (collect dir ps names).chip_list)
          (tuples (collect dir ps names').chip_list) := by
        rw [List.forall₂_eq_eq_eq]
        exact same_tuples
      exact List.forall₂_map_left_iff.mp (List.forall₂_map_right_iff.mp equal)
    refine List.forall₂_iff_zip.mpr ⟨length, fun {c c'} pair => ?_⟩
    obtain ⟨mem, mem'⟩ := List.of_mem_zip pair
    have fields := List.forall₂_zip pointwise pair
    obtain ⟨name, file, isDtb, info⟩ := run.master c mem
    obtain ⟨name', file', isDtb', info'⟩ := run'.master c' mem'
    have named := List.mem_reverse.mp (run.file _ _ file).1
    have named' := perm.mem_iff.mpr (List.mem_reverse.mp (run'.file _ _ file').1)
    have one_file : name = name' := by
      by_contra differ
      exact disjoint name named name' named' isDtb isDtb' differ _ info (fields ▸ info')
    exact ⟨fields, name, file, one_file ▸ file'⟩

/-- Two files with two tuples each, one of them twice. -/
def twoFiles : InputDir where
  isRegular _ := true
  getChipInfo d_name :=
    if d_name = ['a', '.', 'd', 't', 'b'] then [⟨126, 8, 0, 2⟩, ⟨126, 1, 0, 2⟩, ⟨126, 8, 0, 2⟩]
    else [⟨126, 11, 0, 2⟩, ⟨126, 2, 0, 1⟩]
  contents d_name := if d_name = ['a', '.', 'd', 't', 'b'] then [0xd0, 0x0d] else [0xfe, 0xed, 0x01]

instance (dir : InputDir) (names : List Name) : Decidable (dir.Disjoint names) :=
  inferInstanceAs (Decidable (∀ name ∈ names, ∀ other ∈ names, _))

theorem two_files_in_either_order :
    combine twoFiles ⟨64, by decide, by decide⟩
        [['a', '.', 'd', 't', 'b'], ['b', '.', 'd', 't', 'b']] =
      combine twoFiles ⟨64, by decide, by decide⟩
        [['b', '.', 'd', 't', 'b'], ['a', '.', 'd', 't', 'b']] :=
  directory_order_does_not_matter twoFiles _ (by decide) (by decide) (.swap _ _ _)

end Msm8974.Dtbtool
