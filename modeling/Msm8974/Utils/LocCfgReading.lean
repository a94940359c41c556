import Mathlib.Data.List.Forall2
import Mathlib.Data.List.Induction
import Mathlib.Data.List.TakeWhile
import Msm8974.Library.DelimitedText
import Msm8974.Utils.LocCfg

/-!
What loc_read_conf makes of a table. Each entry sees the lines one by one and keeps the last value
it was given, up to the line at which the countdown reaches zero. The countdown counts fills: a key
that occurs again takes the place of an entry that has not been seen yet.
-/

namespace Msm8974.LocCfg
open DelimitedText

/-- The lines of a file, each with its newline. -/
def linesFrom (line : List Char) : List Char → List (List Char)
  | [] => if line = [] then [] else [line]
  | c :: conf_fp =>
      if c = '\n' then (line ++ [c]) :: linesFrom [] conf_fp else linesFrom (line ++ [c]) conf_fp

def linesOf (conf_fp : List Char) : List (List Char) := linesFrom [] conf_fp

def contents (line : List Char) : List Char := line.takeWhile (· ≠ '\n')

/-- The value that a line has for an entry. -/
def valueFor (entry : LocParamS) (line : List Char) : Option LocParamV :=
  (configValue (cString line)).filter (·.param_name = entry.param_name)

def LocParamS.Settable (entry : LocParamS) : Prop :=
  entry.param_ptr.isSome ∧ entry.param_type ∈ ['s', 'n', 'f']

instance (entry : LocParamS) : Decidable entry.Settable := inferInstanceAs (Decidable (_ ∧ _))

def Fills (table : List LocParamS) (line : List Char) : Prop :=
  ∃ entry ∈ table, entry.Settable ∧ (valueFor entry line).isSome

instance (table : List LocParamS) (line : List Char) : Decidable (Fills table line) :=
  inferInstanceAs (Decidable (∃ entry ∈ table, _))

/-- The entry has been set to the value that a line has for it. -/
def SetFrom (entry : LocParamS) (line : List Char) (after : LocParamS) : Prop :=
  ∃ value ∈ valueFor entry line, ∃ content ∈ value.stored entry.param_type,
    after.param_ptr = some content ∧ after.param_set = entry.param_set.map fun _ => 1

def ReadFrom (lines : List (List Char)) (entry after : LocParamS) : Prop :=
  ((∃ line ∈ lines, (valueFor entry line).isSome) → ∃ line ∈ lines, SetFrom entry line after) ∧
    ((∀ line ∈ lines, valueFor entry line = none) → after.param_ptr = entry.param_ptr)

/-- An entry that the file names can be set, and one of its lines is read before as many lines as
the table has entries have set something. -/
def ReadInTime (table : List LocParamS) (lines : List (List Char)) (entry : LocParamS) : Prop :=
  (∃ line ∈ lines, (valueFor entry line).isSome) →
    entry.Settable ∧ ∃ before line after, lines = before ++ line :: after ∧
      (valueFor entry line).isSome ∧ before.countP (Fills table ·) < table.length

section Lines

variable {line conf_fp : List Char}

/-- The first line goes on from what has been read of it. -/
theorem exists_mem_linesFrom (nonempty : line ≠ []) : ∃ l ∈ linesFrom line conf_fp, line <+: l := by
  induction conf_fp generalizing line with
  | nil => simp [linesFrom, nonempty]
  | cons c conf_fp ih =>
      simp only [linesFrom]
      split
      · exact ⟨line ++ [c], by simp, by simp⟩
      · have nonempty' : line ++ [c] ≠ [] := by simp
        apply (ih nonempty').imp
        exact fun l ⟨mem, isPrefix⟩ => ⟨mem, (List.prefix_append line [c]).trans isPrefix⟩

theorem length_le_contents {l : List Char} (free : '\n' ∉ line) (h : line <+: l) :
    line.length ≤ (contents l).length := by
  apply h.elim
  intro rest eq
  rw [contents, ← eq, takeWhile_ne_append free, List.length_append]
  exact Nat.le_add_right _ _

/-- A buffer that is long enough takes a line whole. -/
theorem fgets_eq_linesFrom {size : Nat} (free : '\n' ∉ line)
    (short : ∀ l ∈ linesFrom line conf_fp, (contents l).length + 1 < size) :
    fgets size line conf_fp = linesFrom line conf_fp := by
  induction conf_fp generalizing line with
  | nil => rfl
  | cons c conf_fp ih =>
      by_cases newline : c = '\n'
      · have rest : fgets size [] conf_fp = linesFrom [] conf_fp := ih (by simp) fun l mem =>
          short l (by simp [linesFrom, newline, mem])
        simp [fgets, linesFrom, newline, rest]
      · have free' : '\n' ∉ line ++ [c] := by simp [free, Ne.symm newline]
        have same : linesFrom line (c :: conf_fp) = linesFrom (line ++ [c]) conf_fp := by
          simp [linesFrom, newline]
        have room : line.length + 2 ≠ size := by
          have first : ∃ l ∈ linesFrom (line ++ [c]) conf_fp, line ++ [c] <+: l :=
            exists_mem_linesFrom (by simp)
          apply first.elim
          intro l ⟨mem, isPrefix⟩
          have := length_le_contents free' isPrefix
          have := short l (by rwa [same])
          simp at *
          omega
        rw [same] at short ⊢
        simp [fgets, newline, room, ih free' short]

end Lines

section Operands

variable {delim : Char} {token rest : List Char}

theorem strtok_eq_some (free : delim ∉ token) (nonempty : token ≠ [])
    (ends : rest.takeWhile (· ≠ delim) = []) :
    strtok delim (token ++ rest) = some (token, rest.drop 1) := by
  have take : (token ++ rest).takeWhile (· ≠ delim) = token := by
    rw [takeWhile_ne_append free, ends, List.append_nil]
  have drop : (token ++ rest).dropWhile (· ≠ delim) = rest := by
    have all := List.takeWhile_append_dropWhile (p := (· ≠ delim)) (l := rest)
    rw [ends, List.nil_append] at all
    rw [List.dropWhile_append_of_pos fun c mem => by simpa using ne_of_mem_of_not_mem mem free, all]
  cases token with
  | nil => contradiction
  | cons c token =>
      have head : c ≠ delim := fun eq => free (eq ▸ List.mem_cons_self)
      rw [strtok, List.cons_append, List.dropWhile_cons_of_neg (by simpa using head)]
      simp only [← List.cons_append, take, drop]

end Operands

section Entry

variable {entry after : LocParamS} {line : List Char} {lines : List (List Char)}

/-- What loc_fill_conf_item does to one entry. -/
def setBy (entry : LocParamS) (line : List Char) : LocParamS :=
  match configValue (cString line) with
  | none => entry
  | some value => (locSetConfigEntry entry value).2

/-- The two differ in what the storage and the flag hold. -/
structure SameEntry (entry after : LocParamS) : Prop where
  param_name : after.param_name = entry.param_name
  param_type : after.param_type = entry.param_type
  param_ptr : after.param_ptr.isSome = entry.param_ptr.isSome
  param_set : ∀ flag : BitVec 8,
    after.param_set.map (fun _ => flag) = entry.param_set.map fun _ => flag

theorem SameEntry.trans {last : LocParamS} (first : SameEntry entry after)
    (second : SameEntry after last) : SameEntry entry last where
  param_name := second.param_name.trans first.param_name
  param_type := second.param_type.trans first.param_type
  param_ptr := second.param_ptr.trans first.param_ptr
  param_set flag := (second.param_set flag).trans (first.param_set flag)

theorem SameEntry.settable (same : SameEntry entry after) : after.Settable ↔ entry.Settable := by
  rw [LocParamS.Settable, LocParamS.Settable, same.param_ptr, same.param_type]

theorem SameEntry.valueFor_eq (same : SameEntry entry after) (line : List Char) :
    valueFor after line = valueFor entry line := by
  rw [valueFor, valueFor, same.param_name]

theorem SameEntry.setFrom {last : LocParamS} (same : SameEntry entry after)
    (h : SetFrom after line last) : SetFrom entry line last := by
  apply h.imp
  intro value ⟨mem, content, stored, ptr, set⟩
  rw [same.valueFor_eq] at mem
  rw [same.param_type] at stored
  exact ⟨mem, content, stored, ptr, set.trans (same.param_set 1)⟩

theorem stored_isSome (value : LocParamV) (param_type : Char) :
    (value.stored param_type).isSome ↔ param_type ∈ ['s', 'n', 'f'] := by
  unfold LocParamV.stored
  split
  · simp_all
  · split
    · simp_all
    · split <;> simp_all

/-- An entry is set when it can be and the value is for it, and is left alone otherwise. -/
theorem locSetConfigEntry_cases (entry : LocParamS) (value : LocParamV) :
    (value.param_name = entry.param_name ∧ entry.Settable ∧
      ∃ content ∈ value.stored entry.param_type, locSetConfigEntry entry value =
        (0, { entry with
          param_ptr := some content, param_set := entry.param_set.map fun _ => 1 })) ∨
    (¬(value.param_name = entry.param_name ∧ entry.Settable) ∧
      locSetConfigEntry entry value = (-1, entry)) := by
  have known := stored_isSome value entry.param_type
  unfold locSetConfigEntry LocParamS.Settable
  rw [← known]
  split
  case isTrue h =>
    cases stored : value.stored entry.param_type with
    | none => simp
    | some content => exact .inl ⟨h.1.symm, ⟨h.2, rfl⟩, content, rfl, rfl⟩
  case isFalse h => exact .inr ⟨fun ⟨name, ptr, _⟩ => h ⟨name.symm, ptr⟩, rfl⟩

theorem valueFor_eq_some {value : LocParamV} :
    valueFor entry line = some value ↔
      configValue (cString line) = some value ∧ value.param_name = entry.param_name := by
  simp [valueFor, Option.filter_eq_some_iff]

theorem setBy_cases (entry : LocParamS) (line : List Char) :
    (entry.Settable ∧ ∃ value ∈ valueFor entry line, ∃ content ∈ value.stored entry.param_type,
      setBy entry line =
        { entry with param_ptr := some content, param_set := entry.param_set.map fun _ => 1 }) ∨
    (¬(entry.Settable ∧ (valueFor entry line).isSome) ∧ setBy entry line = entry) := by
  unfold setBy
  cases read : configValue (cString line) with
  | none => simp [valueFor, read]
  | some value =>
      cases locSetConfigEntry_cases entry value with
      | inl set =>
          apply set.2.2.elim
          intro content ⟨stored, eq⟩
          refine .inl ⟨set.2.1, value, valueFor_eq_some.mpr ⟨read, set.1⟩, content, stored, ?_⟩
          simp [eq]
      | inr left =>
          refine .inr ⟨fun ⟨settable, named⟩ => left.1 ⟨?_, settable⟩, by simp [left.2]⟩
          have eq := (valueFor_eq_some.mp (Option.some_get named).symm)
          exact (Option.some.inj (read.symm.trans eq.1)) ▸ eq.2

theorem setBy_same (entry : LocParamS) (line : List Char) : SameEntry entry (setBy entry line) := by
  cases setBy_cases entry line with
  | inl set =>
      apply set.2.elim
      intro value ⟨_, content, _, eq⟩
      rw [eq]
      exact ⟨rfl, rfl, by simpa using set.1.1.symm, fun flag => by cases entry.param_set <;> rfl⟩
  | inr left =>
      rw [left.2]
      exact ⟨rfl, rfl, rfl, fun _ => rfl⟩

theorem setFrom_setBy (settable : entry.Settable) (named : (valueFor entry line).isSome) :
    SetFrom entry line (setBy entry line) := by
  cases setBy_cases entry line with
  | inl set =>
      apply set.2.imp
      intro value ⟨mem, content, stored, eq⟩
      exact ⟨mem, content, stored, by simp [eq]⟩
  | inr left => exact absurd ⟨settable, named⟩ left.1

theorem setBy_of_not (h : ¬(entry.Settable ∧ (valueFor entry line).isSome)) :
    setBy entry line = entry := by
  cases setBy_cases entry line with
  | inl set =>
      apply set.2.elim
      intro value ⟨mem, _⟩
      exact absurd ⟨set.1, Option.isSome_of_mem mem⟩ h
  | inr left => exact left.2

theorem foldl_setBy_same (entry : LocParamS) (lines : List (List Char)) :
    SameEntry entry (lines.foldl setBy entry) := by
  induction lines generalizing entry with
  | nil => exact ⟨rfl, rfl, rfl, fun _ => rfl⟩
  | cons line lines ih => exact (setBy_same entry line).trans (ih (setBy entry line))

/-- An entry holds the value of the last line that names it. -/
theorem foldl_setBy_cases (entry : LocParamS) (lines : List (List Char)) :
    ((∀ line ∈ lines, ¬(entry.Settable ∧ (valueFor entry line).isSome)) ∧
      lines.foldl setBy entry = entry) ∨
    ∃ line ∈ lines, entry.Settable ∧ SetFrom entry line (lines.foldl setBy entry) := by
  induction lines using List.reverseRecOn with
  | nil => simp
  | append_singleton lines line ih =>
      have same := foldl_setBy_same entry lines
      rw [List.foldl_append, List.foldl_cons, List.foldl_nil]
      by_cases h : entry.Settable ∧ (valueFor entry line).isSome
      · right
        refine ⟨line, by simp, h.1, same.setFrom (setFrom_setBy (same.settable.mpr h.1) ?_)⟩
        rw [same.valueFor_eq]
        exact h.2
      · have left : setBy (lines.foldl setBy entry) line = lines.foldl setBy entry := by
          apply setBy_of_not
          rwa [same.settable, same.valueFor_eq]
        rw [left]
        apply ih.imp
        · intro ⟨unnamed, eq⟩
          refine ⟨fun l mem => ?_, eq⟩
          cases List.mem_append.mp mem with
          | inl mem => exact unnamed l mem
          | inr mem => rwa [List.mem_singleton.mp mem]
        · exact fun ⟨l, mem, set⟩ => ⟨l, List.mem_append_left _ mem, set⟩

end Entry

section Table

variable {entry : LocParamS} {table : List LocParamS} {line : List Char} {lines : List (List Char)}

/-- The lines that are read before the countdown reaches zero. -/
def linesRead (fills : List Char → Bool) : List (List Char) → Nat → List (List Char)
  | [], _ => []
  | line :: lines, num_params =>
      if num_params = 0 then []
      else line :: linesRead fills lines (num_params - if fills line then 1 else 0)

theorem mem_linesRead {fills : List Char → Bool} {num_params : Nat} :
    line ∈ linesRead fills lines num_params ↔ ∃ before after,
      lines = before ++ line :: after ∧ before.countP fills < num_params := by
  induction lines generalizing num_params with
  | nil => simp [linesRead]
  | cons first lines ih =>
      simp only [linesRead]
      split
      case isTrue zero => simp [zero]
      case isFalse nonzero =>
        rw [List.mem_cons, ih]
        constructor
        · intro h
          cases h with
          | inl eq => exact ⟨[], lines, by rw [eq]; rfl, Nat.pos_of_ne_zero nonzero⟩
          | inr h =>
              apply h.elim
              intro before ⟨after, eq, lt⟩
              refine ⟨first :: before, after, by rw [eq]; rfl, ?_⟩
              rw [List.countP_cons]
              omega
        · intro ⟨before, after, eq, lt⟩
          cases before with
          | nil => exact .inl (List.cons.inj eq).1.symm
          | cons l before =>
              have inj := List.cons.inj eq
              rw [List.countP_cons, ← inj.1] at lt
              exact .inr ⟨before, after, inj.2, by omega⟩

theorem linesRead_subset {fills : List Char → Bool} {num_params : Nat} :
    linesRead fills lines num_params ⊆ lines := by
  intro line mem
  apply (mem_linesRead.mp mem).elim
  intro before ⟨after, eq, _⟩
  simp [eq]

theorem locSetConfigEntry_eq_zero {value : LocParamV} :
    (locSetConfigEntry entry value).1 = 0 ↔
      value.param_name = entry.param_name ∧ entry.Settable := by
  cases locSetConfigEntry_cases entry value with
  | inl set =>
      apply set.2.2.elim
      intro content ⟨_, eq⟩
      simp [eq, set.1, set.2.1]
  | inr left => simp [left.2, left.1]

/-- With distinct names a line fills one entry at most. -/
theorem countP_filled (distinct : (table.map LocParamS.param_name).Nodup) (value : LocParamV) :
    table.countP (fun entry => value.param_name = entry.param_name ∧ entry.Settable) =
      if ∃ entry ∈ table, value.param_name = entry.param_name ∧ entry.Settable then 1 else 0 := by
  have atMostOne : table.countP
      (fun entry => value.param_name = entry.param_name ∧ entry.Settable) ≤ 1 :=
    calc table.countP (fun entry => value.param_name = entry.param_name ∧ entry.Settable)
      _ ≤ table.countP (fun entry => entry.param_name == value.param_name) := by
        apply List.countP_mono_left
        intro entry _ h
        simp at h
        simp [h.1]
      _ = (table.map LocParamS.param_name).count value.param_name := by
        rw [List.count, List.countP_map]
        rfl
      _ ≤ 1 := List.nodup_iff_count_le_one.mp distinct value.param_name
  split
  case isTrue h =>
    have := List.countP_pos_iff.mpr (h.imp fun entry ⟨mem, h⟩ =>
      (⟨mem, decide_eq_true h⟩ : entry ∈ table ∧
        decide (value.param_name = entry.param_name ∧ entry.Settable) = true))
    omega
  case isFalse h =>
    rw [List.countP_eq_zero]
    exact fun entry mem filled => h ⟨entry, mem, of_decide_eq_true filled⟩

/-- How many entries a line sets. -/
def filled (table : List LocParamS) (line : List Char) : Nat :=
  table.countP fun entry => entry.Settable ∧ (valueFor entry line).isSome

theorem locFillConfItem_filled (table : List LocParamS) (line : List Char) :
    locFillConfItem (cString line) table = (filled table line, table.map (setBy · line)) := by
  unfold locFillConfItem filled setBy
  cases read : configValue (cString line) with
  | none => simp [valueFor, read]
  | some value =>
      simp only [List.countP_map, List.map_map, Function.comp_def, locSetConfigEntry_eq_zero,
        valueFor, read]
      congr 1
      simp [Option.filter, and_comm]

theorem filled_eq (distinct : (table.map LocParamS.param_name).Nodup) (line : List Char) :
    filled table line = if Fills table line then 1 else 0 := by
  unfold filled Fills
  cases read : configValue (cString line) with
  | none => simp [valueFor, read]
  | some value => simpa [valueFor, read, Option.filter, and_comm] using countP_filled distinct value

theorem locFillConfItem_eq (distinct : (table.map LocParamS.param_name).Nodup)
    (line : List Char) : locFillConfItem (cString line) table =
      (if Fills table line then 1 else 0, table.map (setBy · line)) := by
  rw [locFillConfItem_filled, filled_eq distinct]

theorem fills_map (table : List LocParamS) (first line : List Char) :
    Fills (table.map (setBy · first)) line ↔ Fills table line := by
  unfold Fills
  simp [(setBy_same _ first).settable, (setBy_same _ first).valueFor_eq]

theorem countdown_eq_zero_iff {num_params : Nat} (lt : num_params < 2 ^ 32) :
    BitVec.ofNat 32 num_params = 0 ↔ num_params = 0 := by
  rw [← BitVec.toNat_inj]
  simp
  omega

theorem countdown_sub {num_params : Nat} (nonzero : num_params ≠ 0) (lt : num_params < 2 ^ 32)
    (fills : Prop) [Decidable fills] :
    BitVec.ofNat 32 num_params - BitVec.ofNat 32 (if fills then 1 else 0) =
      BitVec.ofNat 32 (num_params - if fills then 1 else 0) := by
  apply BitVec.eq_of_toNat_eq
  split
  · simp
    omega
  · simp

/-- The countdown never wraps: it stops at zero, and a line takes one off at most. -/
theorem readLoop_eq (lines : List (List Char)) {num_params : Nat}
    (distinct : (table.map LocParamS.param_name).Nodup) (lt : num_params < 2 ^ 32) :
    readLoop lines (BitVec.ofNat 32 num_params) table =
      table.map fun entry => (linesRead (Fills table ·) lines num_params).foldl setBy entry := by
  induction lines generalizing num_params table with
  | nil => simp [readLoop, linesRead]
  | cons line lines ih =>
      have names : (table.map (setBy · line)).map LocParamS.param_name =
          table.map LocParamS.param_name := by
        simp [(setBy_same _ line).param_name]
      simp only [readLoop, countdown_eq_zero_iff lt, linesRead, locFillConfItem_eq distinct line]
      split
      case isTrue => simp
      case isFalse nonzero =>
        rw [countdown_sub nonzero lt, ih (names ▸ distinct) (by omega)]
        simp [fills_map]

end Table

section Reading

variable {entry : LocParamS} {lines : List (List Char)}

theorem stored_ne_previous {value : LocParamV} {param_type : Char} {content : Storage}
    (h : content ∈ value.stored param_type) : content ≠ .previous := by
  unfold LocParamV.stored at h
  intro previous
  rw [previous] at h
  repeat' split at h
  all_goals simp at h

/-- Clears the validity bit. -/
def LocParamS.cleared (entry : LocParamS) : LocParamS :=
  { entry with param_set := entry.param_set.map fun _ => 0 }

theorem cleared_same (entry : LocParamS) : SameEntry entry entry.cleared :=
  ⟨rfl, rfl, rfl, fun flag => by cases entry with | mk _ _ param_set _ => cases param_set <;> rfl⟩

theorem entry_is_read_iff {read : List (List Char)} (subset : read ⊆ lines)
    (untouched : entry.param_ptr ∈ [none, some .previous]) :
    ReadFrom lines entry (read.foldl setBy entry.cleared) ↔
      ((∃ line ∈ lines, (valueFor entry line).isSome) →
        entry.Settable ∧ ∃ line ∈ read, (valueFor entry line).isSome) := by
  have same := cleared_same entry
  cases foldl_setBy_cases entry.cleared read with
  | inl left =>
      simp only [same.settable, same.valueFor_eq] at left
      rw [left.2, ReadFrom]
      constructor
      · intro h named
        apply (h.1 named).elim
        intro line ⟨_, value, _, content, stored, ptr, _⟩
        refine absurd ?_ (stored_ne_previous stored)
        have kept : entry.param_ptr = some content := ptr
        simpa [kept] using untouched
      · refine fun h => ⟨fun named => ?_, fun _ => rfl⟩
        apply (h named).2.elim
        exact fun line ⟨mem, isSome⟩ => absurd ⟨(h named).1, isSome⟩ (left.1 line mem)
  | inr set =>
      apply set.elim
      intro line ⟨mem, settable, setFrom⟩
      have setFrom := same.setFrom setFrom
      have named : (valueFor entry line).isSome := setFrom.elim fun _ h => Option.isSome_of_mem h.1
      constructor
      · exact fun _ _ => ⟨same.settable.mp settable, line, mem, named⟩
      · refine fun _ => ⟨fun _ => ⟨line, subset mem, setFrom⟩, fun unnamed => ?_⟩
        simp [unnamed line (subset mem)] at named

/-- Every entry is read in time, whatever the order and number of the lines. -/
theorem table_is_read_iff (table : ConfigTable) (conf_fp : List Char)
    (short : ∀ line ∈ linesOf conf_fp, (contents line).length < LOC_MAX_PARAM_LINE - 1) :
    List.Forall₂ (ReadFrom (linesOf conf_fp)) table.entries
        (locReadConf (some conf_fp) table.entries).1 ↔
      ∀ entry ∈ table.entries, ReadInTime table.entries (linesOf conf_fp) entry := by
  have buffers : fgets LOC_MAX_PARAM_LINE [] conf_fp = linesOf conf_fp := by
    apply fgets_eq_linesFrom (List.not_mem_nil)
    intro line mem
    have := short line mem
    omega
  have names : (table.entries.map LocParamS.cleared).map LocParamS.param_name =
      table.entries.map LocParamS.param_name := by
    simp [LocParamS.cleared]
  have fills (line : List Char) :
      Fills (table.entries.map LocParamS.cleared) line ↔ Fills table.entries line := by
    unfold Fills
    simp [(cleared_same _).settable, (cleared_same _).valueFor_eq]
  have result : (locReadConf (some conf_fp) table.entries).1 = table.entries.map fun entry =>
      (linesRead (Fills table.entries ·) (linesOf conf_fp) table.entries.length).foldl setBy
        entry.cleared := by
    by_cases empty : table.entries = []
    · simp [locReadConf, empty]
    · have loop := readLoop_eq (linesOf conf_fp) (names ▸ table.distinct) table.length_lt
      simp only [locReadConf, empty, if_false, locReadConfR, buffers, List.length_map]
      refine loop.trans ?_
      simp [fills]
  rw [result, List.forall₂_map_right_iff, List.forall₂_same]
  apply forall₂_congr
  intro entry mem
  rw [entry_is_read_iff linesRead_subset (table.untouched entry mem), ReadInTime]
  apply imp_congr_right
  intro _
  apply and_congr_right
  intro _
  simp only [mem_linesRead]
  constructor
  · exact fun ⟨line, ⟨before, after, eq, lt⟩, named⟩ => ⟨before, line, after, eq, named, lt⟩
  · exact fun ⟨before, line, after, eq, named, lt⟩ => ⟨line, ⟨before, after, eq, lt⟩, named⟩

def twoEntries : ConfigTable where
  entries := [⟨"A".toList, some .previous, none, 'n'⟩, ⟨"B".toList, some .previous, none, 'n'⟩]
  length_lt := by decide
  distinct := by decide
  untouched := by decide

/-- Each key once: the two fills end the countdown after the last key. -/
theorem one_line_for_each_entry_is_read :
    List.Forall₂ (ReadFrom (linesOf "A=1\nB=3\n".toList)) twoEntries.entries
      (locReadConf (some "A=1\nB=3\n".toList) twoEntries.entries).1 := by
  apply (table_is_read_iff twoEntries "A=1\nB=3\n".toList (by decide +kernel)).mpr
  intro entry mem
  cases mem with
  | head =>
      exact fun _ => ⟨by decide, [], "A=1\n".toList, ["B=3\n".toList], by decide +kernel⟩
  | tail _ mem =>
      rw [List.mem_singleton.mp mem]
      exact fun _ => ⟨by decide, ["A=1\n".toList], "B=3\n".toList, [], by decide +kernel⟩

/-- The second line for A ends the countdown: B is never reached. -/
theorem repeated_key_ends_the_reading :
    ¬∀ (table : ConfigTable) (conf_fp : List Char),
      (∀ line ∈ linesOf conf_fp, (contents line).length < LOC_MAX_PARAM_LINE - 1) →
        List.Forall₂ (ReadFrom (linesOf conf_fp)) table.entries
          (locReadConf (some conf_fp) table.entries).1 := by
  intro h
  have read := h twoEntries "A=1\nA=2\nB=3\n".toList (by decide +kernel)
  have result : (locReadConf (some "A=1\nA=2\nB=3\n".toList) twoEntries.entries).1 =
      [⟨"A".toList, some (.number 2), none, 'n'⟩, ⟨"B".toList, some .previous, none, 'n'⟩] := by
    decide +kernel
  rw [result] at read
  cases read with
  | cons _ read =>
      cases read with
      | cons read _ =>
          apply (read.1 ⟨"B=3\n".toList, by decide +kernel⟩).elim
          intro line ⟨_, value, _, content, stored, ptr, _⟩
          exact stored_ne_previous stored (Option.some.inj ptr).symm

end Reading

end Msm8974.LocCfg
