import Msm8974.Utils.LocCfgLines

/-!
loc_update_conf. Its countdown starts one record off, and it returns how many lines it took: it
applies the whole buffer, and returns how many records it updated, exactly if each of the first
lines sets a record, up to one less than there are records, and no later line does.
-/

namespace Msm8974.LocCfg
open DelimitedText

theorem strtok_length {delim : Char} {str token rest : List Char}
    (h : strtok delim str = some (token, rest)) : rest.length < str.length := by
  obtain all | ⟨skipped, token', rest', rfl, all, free, nonempty, shape⟩ := token_cases delim str
  · have none : str.dropWhile (· = delim) = [] :=
      List.dropWhile_eq_nil_iff.mpr fun c mem => by simp [all c mem]
    simp [strtok, none] at h
  · have ends : rest'.takeWhile (· ≠ delim) = [] := by
      obtain rfl | ⟨rest, rfl⟩ := shape
      · rfl
      · simp
    rw [strtok_skip all, strtok_eq_some free nonempty ends] at h
    obtain ⟨-, rfl⟩ := Prod.mk.inj (Option.some.inj h)
    have := List.length_pos_of_ne_nil nonempty
    simp
    omega

/-- The loop, with what strtok_r has left of the copy. -/
def updateLoop (num_params : BitVec 32) (ret : Nat) (saveptr : List Char)
    (config_table : List LocParamS) : Nat × List LocParamS :=
  match _h : strtok '\n' saveptr with
  | none => (ret, config_table)
  | some (input_buf, rest) =>
      if num_params = 0 then (ret, config_table)
      else
        let (filled, config_table) := locFillConfItem input_buf config_table
        updateLoop (num_params - BitVec.ofNat 32 filled) (ret + 1) rest config_table
termination_by saveptr.length
decreasing_by exact strtok_length _h

/-- `conf_data` is the buffer of the given length, NULL is `none`; `malloc` is whether there is
memory for the copy. -/
def locUpdateConf (malloc : Bool) (conf_data : Option (List Char))
    (config_table : List LocParamS) : Int × List LocParamS :=
  match conf_data with
  | none => (-1, config_table)
  | some conf_data =>
      if conf_data.length ≠ 0 ∧ config_table.length ≠ 0 ∧ malloc then
        -- start with one record off
        let num_params := BitVec.ofNat 32 config_table.length - 1
        let (ret, config_table) := updateLoop num_params 0 (cString conf_data) config_table
        (ret, config_table)
      else (-1, config_table)

/-- The lines of a string that are not empty. -/
def items (str : List Char) : List (List Char) := (str.splitOn '\n').filter (· ≠ [])

section Items
variable {str : List Char} {table : List LocParamS}

theorem items_skip {skipped : List Char} (all : ∀ c ∈ skipped, c = '\n') (str : List Char) :
    items (skipped ++ str) = items str := by
  induction skipped with
  | nil => rfl
  | cons c skipped ih =>
      obtain ⟨rfl, others⟩ := List.forall_mem_cons.mp all
      have first : ('\n' :: (skipped ++ str)).splitOn '\n' = [] :: (skipped ++ str).splitOn '\n' :=
        List.splitOn_append_cons_self_of_not_mem List.not_mem_nil (skipped ++ str)
      rw [List.cons_append, items, first, ← ih others]
      rfl

/-- strtok_r takes the lines one by one and leaves out the empty ones. -/
theorem items_eq (str : List Char) :
    strtok '\n' str = none ∧ items str = [] ∨
    ∃ line rest, strtok '\n' str = some (line, rest) ∧ items str = line :: items rest ∧
      line ⊆ str ∧ rest ⊆ str := by
  obtain all | ⟨skipped, token, rest, rfl, all, free, nonempty, shape⟩ := token_cases '\n' str
  · left
    have skip := items_skip all []
    have none := strtok_skip all []
    rw [List.append_nil] at skip none
    rw [skip, none]
    exact ⟨rfl, rfl⟩
  · right
    rw [items_skip all, strtok_skip all]
    obtain rfl | ⟨rest, rfl⟩ := shape
    · refine ⟨token, [], strtok_eq_some free nonempty rfl, ?_, by simp, List.nil_subset _⟩
      rw [List.append_nil, items, List.splitOn_eq_singleton free]
      exact List.filter_cons_of_pos (by simpa using nonempty)
    · refine ⟨token, rest, strtok_eq_some free nonempty (by simp), ?_, by simp,
        fun c mem => by simp [mem]⟩
      rw [items, List.splitOn_append_cons_self_of_not_mem free]
      simp [nonempty, items]

theorem cString_of_free (free : '\x00' ∉ str) : cString str = str :=
  takeWhile_ne_self free

/-- The loop takes the lines that a countdown over the lines that set a record lets it take. -/
theorem updateLoop_eq {num_params : Nat} (ret : Nat) (plain : '\x00' ∉ str)
    (distinct : (table.map LocParamS.param_name).Nodup) (lt : num_params < 2 ^ 32) :
    updateLoop (BitVec.ofNat 32 num_params) ret str table =
      (ret + (linesRead (Fills table ·) (items str) num_params).length,
        table.map fun entry =>
          (linesRead (Fills table ·) (items str) num_params).foldl setBy entry) := by
  induction length : str.length using Nat.strongRecOn generalizing str ret num_params table with
  | ind n ih =>
      obtain ⟨none, empty⟩ | ⟨line, rest, some, next, inLine, inRest⟩ := items_eq str
      · rw [updateLoop, empty]
        split
        · simp [linesRead]
        · next h => simp [none] at h
      · rw [updateLoop, next]
        split
        · next h => simp [some] at h
        · next h =>
            obtain ⟨rfl, rfl⟩ := Prod.mk.inj (Option.some.inj (some.symm.trans h))
            simp only [countdown_eq_zero_iff lt, linesRead]
            split
            · simp
            · next nonzero =>
                have line_eq := locFillConfItem_eq distinct line
                rw [cString_of_free fun mem => plain (inLine mem)] at line_eq
                have names : (table.map (setBy · line)).map LocParamS.param_name =
                    table.map LocParamS.param_name := by
                  simp [(setBy_same _ line).param_name]
                simp only [line_eq, countdown_sub nonzero lt]
                rw [ih _ (length ▸ strtok_length some) (ret + 1) (fun mem => plain (inRest mem))
                  (names ▸ distinct) (by omega) rfl]
                simp [fills_map, Nat.add_assoc, Nat.add_comm 1]

end Items

section Records
variable {table : List LocParamS} {lines : List (List Char)} {line : List Char}

/-- The record has been set. -/
def LocParamS.Updated (entry : LocParamS) : Prop := entry.param_ptr ∉ [none, some .previous]

instance (entry : LocParamS) : Decidable entry.Updated := inferInstanceAs (Decidable (¬ _))

/-- Each name occurs in one of the lines at most. -/
def Once (table : List LocParamS) (lines : List (List Char)) : Prop :=
  ∀ entry ∈ table, lines.countP (fun line => (valueFor entry line).isSome) ≤ 1

instance (table : List LocParamS) (lines : List (List Char)) : Decidable (Once table lines) :=
  inferInstanceAs (Decidable (∀ entry ∈ table, _))

theorem Once.sublist {some : List (List Char)} (once : Once table lines)
    (sublist : some.Sublist lines) : Once table some :=
  fun entry mem => sublist.countP_le.trans (once entry mem)

theorem updated_iff {entry : LocParamS} (untouched : entry.param_ptr ∈ [none, some .previous])
    (lines : List (List Char)) :
    (lines.foldl setBy entry).Updated ↔
      entry.Settable ∧ ∃ line ∈ lines, (valueFor entry line).isSome := by
  obtain ⟨unnamed, same⟩ | ⟨line, mem, settable, value, named, content, stored, ptr, -⟩ :=
    foldl_setBy_cases entry lines
  · rw [same, LocParamS.Updated]
    exact iff_of_false (not_not.mpr untouched)
      fun ⟨settable, line, mem, named⟩ => unnamed line mem ⟨settable, named⟩
  · refine iff_of_true ?_ ⟨settable, line, mem, Option.isSome_of_mem named⟩
    rw [LocParamS.Updated, ptr]
    simpa using stored_ne_previous stored

theorem countP_disjoint {α : Type*} {p q : α → Bool} {xs : List α}
    (disjoint : ∀ x ∈ xs, ¬(p x ∧ q x)) :
    xs.countP (fun x => p x || q x) = xs.countP p + xs.countP q := by
  induction xs with
  | nil => rfl
  | cons x xs ih =>
      obtain ⟨apart, disjoint⟩ := List.forall_mem_cons.mp disjoint
      simp only [List.countP_cons, ih disjoint]
      cases hp : p x with
      | false => simp; omega
      | true =>
          have hq : q x = false := by simpa [hp] using apart
          simp [hq]
          omega

/-- Each line that sets a record sets another one. -/
theorem countP_updated (distinct : (table.map LocParamS.param_name).Nodup)
    (once : Once table lines) :
    table.countP (fun entry => entry.Settable ∧ ∃ line ∈ lines, (valueFor entry line).isSome) =
      lines.countP (Fills table ·) := by
  induction lines with
  | nil => simp
  | cons line lines ih =>
      have fewer : Once table lines := once.sublist (List.sublist_cons_self line lines)
      have disjoint : ∀ entry ∈ table, ¬(
          decide (entry.Settable ∧ (valueFor entry line).isSome) = true ∧
            decide (entry.Settable ∧ ∃ line ∈ lines, (valueFor entry line).isSome) = true) := by
        intro entry mem ⟨first, later⟩
        have atMost := once entry mem
        have named := (of_decide_eq_true first).2
        have again := List.countP_pos_iff.mpr (of_decide_eq_true later).2
        rw [List.countP_cons, if_pos named] at atMost
        omega
      have apart : (fun entry : LocParamS =>
          decide (entry.Settable ∧ ∃ l ∈ line :: lines, (valueFor entry l).isSome)) =
          fun entry => decide (entry.Settable ∧ (valueFor entry line).isSome) ||
            decide (entry.Settable ∧ ∃ line ∈ lines, (valueFor entry line).isSome) := by
        funext entry
        simp [and_or_left]
      have sum : filled table line = if Fills table line then 1 else 0 := filled_eq distinct line
      rw [List.countP_cons, ← ih fewer, Nat.add_comm, apart, countP_disjoint disjoint]
      simp only [decide_eq_true_eq, ← sum]
      rfl

theorem countP_updated_foldl (table : ConfigTable) (once : Once table.entries lines) :
    (table.entries.map fun entry => lines.foldl setBy entry).countP (·.Updated) =
      lines.countP (Fills table.entries ·) := by
  rw [← countP_updated table.distinct once, List.countP_map]
  refine List.countP_congr fun entry mem => ?_
  simpa using updated_iff (table.untouched entry mem) lines

/-- The loop reads a first part of the lines, the whole of them if its countdown does not end. -/
theorem linesRead_cases (fills : List Char → Bool) (lines : List (List Char)) (num_params : Nat) :
    ∃ rest, lines = linesRead fills lines num_params ++ rest ∧
      (linesRead fills lines num_params).countP fills ≤ num_params ∧
      (rest ≠ [] → (linesRead fills lines num_params).countP fills = num_params) := by
  induction lines generalizing num_params with
  | nil => exact ⟨[], rfl, Nat.zero_le _, absurd rfl⟩
  | cons line lines ih =>
      rw [linesRead]
      split
      · next zero => exact ⟨line :: lines, by simp, by simp, by simp [zero]⟩
      · next nonzero =>
          obtain ⟨rest, eq, le, ended⟩ := ih (num_params - if fills line then 1 else 0)
          have step : (if fills line then 1 else 0) ≤ 1 := by split <;> decide
          refine ⟨rest, by rw [List.cons_append, ← eq], ?_, fun more => ?_⟩
          · rw [List.countP_cons]
            omega
          · have last := ended more
            rw [List.countP_cons]
            omega

theorem linesRead_eq_take {fills : List Char → Bool} {lines : List (List Char)}
    {num_params : Nat} (all : ∀ line ∈ lines.take num_params, fills line) :
    linesRead fills lines num_params = lines.take num_params := by
  induction lines generalizing num_params with
  | nil => simp [linesRead]
  | cons line lines ih =>
      cases num_params with
      | zero => rfl
      | succ num_params =>
          rw [List.take_succ_cons] at all ⊢
          obtain ⟨first, all⟩ := List.forall_mem_cons.mp all
          rw [linesRead, if_neg (Nat.succ_ne_zero num_params), if_pos first, Nat.add_sub_cancel,
            ih all]

/-- The lines that are read all set a record and the others do not, exactly if this holds of the
first lines that would end the countdown and of the others. -/
theorem linesRead_exact_iff {fills : List Char → Bool} {lines rest : List (List Char)}
    {num_params : Nat} (eq : lines = linesRead fills lines num_params ++ rest)
    (le : (linesRead fills lines num_params).countP fills ≤ num_params)
    (ended : rest ≠ [] → (linesRead fills lines num_params).countP fills = num_params) :
    ((∀ line ∈ linesRead fills lines num_params, fills line) ∧ ∀ line ∈ rest, ¬ fills line) ↔
      (∀ line ∈ lines.take num_params, fills line) ∧
        ∀ line ∈ lines.drop num_params, ¬ fills line := by
  constructor
  · rintro ⟨all, none⟩
    rw [List.countP_eq_length.mpr all] at le ended
    by_cases more : rest = []
    · rw [more, List.append_nil] at eq
      rw [← eq] at all le
      rw [List.take_of_length_le le, List.drop_eq_nil_of_le le]
      exact ⟨all, by simp⟩
    · have length := ended more
      rw [eq, List.take_left' length, List.drop_left' length]
      exact ⟨all, none⟩
  · rintro ⟨all, none⟩
    have taken := linesRead_eq_take all
    rw [taken] at eq ⊢
    have whole : lines.take num_params ++ lines.drop num_params = lines.take num_params ++ rest :=
      (List.take_append_drop num_params lines).trans eq
    have same : lines.drop num_params = rest := List.append_cancel_left whole
    exact ⟨all, same ▸ none⟩

/-- A record keeps what it has exactly if no later line sets one. -/
theorem map_foldl_append_iff (table : ConfigTable) {read rest : List (List Char)}
    (once : Once table.entries (read ++ rest)) :
    (table.entries.map fun entry => read.foldl setBy entry) =
        (table.entries.map fun entry => (read ++ rest).foldl setBy entry) ↔
      ∀ line ∈ rest, ¬ Fills table.entries line := by
  have before : Once table.entries read := once.sublist (List.sublist_append_left read rest)
  constructor
  · intro same
    have counts := countP_updated_foldl table once
    rw [← same, countP_updated_foldl table before, List.countP_append] at counts
    have none : rest.countP (Fills table.entries ·) = 0 := by omega
    simpa using List.countP_eq_zero.mp none
  · intro none
    refine List.map_congr_left fun entry mem => ?_
    rw [List.foldl_append]
    have same := foldl_setBy_same entry read
    obtain ⟨-, kept⟩ | ⟨line, inRest, settable, value, named, -⟩ :=
      foldl_setBy_cases (read.foldl setBy entry) rest
    · exact kept.symm
    · rw [same.valueFor_eq] at named
      exact (none line inRest ⟨entry, mem, same.settable.mp settable,
        Option.isSome_of_mem named⟩).elim

/-- All lines are applied, and as many are read as records are updated. -/
theorem read_is_complete_iff (table : ConfigTable) (once : Once table.entries lines)
    (num_params : Nat) :
    let read := linesRead (Fills table.entries ·) lines num_params
    let after := table.entries.map fun entry => read.foldl setBy entry
    (after = (table.entries.map fun entry => lines.foldl setBy entry) ∧
        (read.length : Int) = after.countP (·.Updated)) ↔
      (∀ line ∈ lines.take num_params, Fills table.entries line) ∧
        ∀ line ∈ lines.drop num_params, ¬ Fills table.entries line := by
  obtain ⟨rest, eq, le, ended⟩ := linesRead_cases (Fills table.entries ·) lines num_params
  have exact_iff := linesRead_exact_iff eq le ended
  simp only [decide_eq_true_eq] at exact_iff
  simp only [← exact_iff]
  generalize linesRead (Fills table.entries ·) lines num_params = read at eq ⊢
  subst eq
  have onceRead : Once table.entries read := once.sublist (List.sublist_append_left read rest)
  rw [map_foldl_append_iff table once, countP_updated_foldl table onceRead, and_comm]
  refine and_congr_left fun _ => ?_
  rw [Int.natCast_inj, eq_comm, List.countP_eq_length]
  simp

end Records

section Update
variable {conf_data : List Char}

/-- The lines of the buffer, the empty ones too. -/
def bufferLines (conf_data : List Char) : List (List Char) := (cString conf_data).splitOn '\n'

/-- loc_fill_conf_item applied to every line in order. -/
def applyAll (lines : List (List Char)) (table : List LocParamS) : List LocParamS :=
  lines.foldl (fun table line => (locFillConfItem line table).2) table

theorem applyAll_items {str : List Char} (plain : '\x00' ∉ str) (lines : List (List Char))
    (inside : ∀ line ∈ lines, line ⊆ str) (table : List LocParamS) :
    applyAll lines table = table.map fun entry => lines.foldl setBy entry := by
  induction lines generalizing table with
  | nil => simp [applyAll]
  | cons line lines ih =>
      obtain ⟨first, inside⟩ := List.forall_mem_cons.mp inside
      have filled := locFillConfItem_filled table line
      rw [cString_of_free fun mem => plain (first mem)] at filled
      have rest := ih inside (table.map (setBy · line))
      rw [applyAll] at rest ⊢
      rw [List.foldl_cons, filled, rest, List.map_map]
      rfl

theorem applyAll_filter (lines : List (List Char)) (table : List LocParamS) :
    applyAll (lines.filter (· ≠ [])) table = applyAll lines table := by
  rw [applyAll, applyAll, List.foldl_filter]
  congr 1
  funext table line
  by_cases empty : line = []
  · subst empty
    rfl
  · simp [empty]

theorem subset_of_mem_bufferLines {line : List Char} (mem : line ∈ bufferLines conf_data) :
    line ⊆ cString conf_data :=
  subset_of_mem_splitOn mem

theorem free_cString (conf_data : List Char) : '\x00' ∉ cString conf_data :=
  fun mem => by simpa using List.mem_takeWhile_imp mem

/-- The first lines are as many as there are records but one; each name occurs once at most. -/
theorem update_is_complete_iff (table : ConfigTable) (nonempty : table.entries ≠ [])
    (conf_data : List Char) (once : Once table.entries (bufferLines conf_data)) (malloc : Bool) :
    let result := locUpdateConf malloc (some conf_data) table.entries
    let lines := (bufferLines conf_data).filter (· ≠ [])
    (result.2 = applyAll (bufferLines conf_data) table.entries ∧
        result.1 = result.2.countP (·.Updated)) ↔
      malloc ∧ conf_data ≠ [] ∧
        (∀ line ∈ lines.take (table.entries.length - 1), Fills table.entries line) ∧
        ∀ line ∈ lines.drop (table.entries.length - 1), ¬ Fills table.entries line := by
  have records : table.entries.length ≠ 0 :=
    fun none => nonempty (List.eq_nil_of_length_eq_zero none)
  by_cases copied : malloc ∧ conf_data ≠ []
  · have lt := table.length_lt
    have start : BitVec.ofNat 32 table.entries.length - 1 =
        BitVec.ofNat 32 (table.entries.length - 1) := by
      simpa using countdown_sub records lt True
    have ran : conf_data.length ≠ 0 ∧ table.entries.length ≠ 0 ∧ malloc :=
      ⟨by simpa using copied.2, records, copied.1⟩
    have loop := updateLoop_eq 0 (free_cString conf_data) table.distinct
      (Nat.lt_of_le_of_lt (Nat.sub_le table.entries.length 1) lt)
    simp only [locUpdateConf, if_pos ran, start, loop, Nat.zero_add]
    have whole : applyAll (bufferLines conf_data) table.entries = table.entries.map fun entry =>
        (items (cString conf_data)).foldl setBy entry := by
      rw [← applyAll_filter]
      refine applyAll_items (free_cString conf_data) _ (fun line mem => ?_) _
      exact subset_of_mem_bufferLines (List.mem_of_mem_filter mem)
    have onceItems : Once table.entries (items (cString conf_data)) := fun entry mem =>
      Nat.le_trans List.filter_sublist.countP_le (once entry mem)
    rw [whole, and_assoc.symm.trans (and_iff_right copied)]
    exact read_is_complete_iff table onceItems _
  · have failed : ¬(conf_data.length ≠ 0 ∧ table.entries.length ≠ 0 ∧ malloc) :=
      fun ran => copied ⟨ran.2.2, by simpa using ran.1⟩
    simp only [locUpdateConf, if_neg failed]
    exact iff_of_false (fun holds => by have := holds.2; omega)
      fun holds => copied ⟨holds.1, holds.2.1⟩

/-- One of two records: the only line is taken. -/
theorem first_of_two_records_is_updated :
    let result := locUpdateConf true (some "A=1".toList) twoEntries.entries
    result.2 = applyAll (bufferLines "A=1".toList) twoEntries.entries ∧
      result.1 = result.2.countP (·.Updated) :=
  (update_is_complete_iff twoEntries (by simp [twoEntries]) "A=1".toList (by decide +kernel)
    true).mpr ⟨rfl, by simp, by decide +kernel, by decide +kernel⟩

/-- The second of two lines is not taken, and a line for no record is counted. -/
theorem second_record_is_not_updated :
    Once twoEntries.entries (bufferLines "A=1\nB=3".toList) ∧
      (locUpdateConf true (some "A=1\nB=3".toList) twoEntries.entries).2 ≠
        applyAll (bufferLines "A=1\nB=3".toList) twoEntries.entries ∧
      Once twoEntries.entries (bufferLines "X=1".toList) ∧
      (locUpdateConf true (some "X=1".toList) twoEntries.entries).1 ≠
        (locUpdateConf true (some "X=1".toList) twoEntries.entries).2.countP (·.Updated) := by
  decide +kernel

end Update

end Msm8974.LocCfg
