import Msm8974.Utils.LocCfgValues

/-!
The buffers of loc_read_conf_r against the lines of the file. A line of LOC_MAX_PARAM_LINE - 1
characters or more arrives in pieces, and a piece keeps the newline that ends it. An item is
applied when it sets an entry; it is that of a whole line without its newline unless it comes
from a longer line or its value is blank up to the newline.
-/

namespace Msm8974.LocCfg
open DelimitedText

section Files
variable {line rest : List Char} {size : Nat}

/-- Induction over the lines of a file: the last one may lack its newline. -/
theorem lines_induction {motive : List Char → Prop} (conf_fp : List Char)
    (last : ∀ line, '\n' ∉ line → motive line)
    (next : ∀ line rest, '\n' ∉ line → motive rest → motive (line ++ '\n' :: rest)) :
    motive conf_fp := by
  induction length : conf_fp.length using Nat.strongRecOn generalizing conf_fp with
  | ind n ih =>
      by_cases newline : '\n' ∈ conf_fp
      · obtain ⟨line, rest, rfl, free⟩ := List.eq_append_cons_of_mem newline
        refine next line rest free (ih rest.length ?_ rest rfl)
        simp [← length]
        omega
      · exact last conf_fp newline

theorem linesFrom_last (free : '\n' ∉ rest) :
    linesFrom line rest = if line ++ rest = [] then [] else [line ++ rest] := by
  induction rest generalizing line with
  | nil => simp [linesFrom]
  | cons c rest ih =>
      obtain ⟨other, free⟩ : '\n' ≠ c ∧ '\n' ∉ rest := by simpa using free
      rw [linesFrom, if_neg (Ne.symm other), ih free]
      simp

theorem linesFrom_next {text : List Char} (free : '\n' ∉ text) :
    linesFrom line (text ++ '\n' :: rest) = (line ++ text ++ ['\n']) :: linesOf rest := by
  induction text generalizing line with
  | nil => simp [linesFrom, linesOf]
  | cons c text ih =>
      obtain ⟨other, free⟩ : '\n' ≠ c ∧ '\n' ∉ text := by simpa using free
      rw [List.cons_append, linesFrom, if_neg (Ne.symm other), ih free]
      simp

theorem linesOf_last (free : '\n' ∉ line) : linesOf line = if line = [] then [] else [line] :=
  linesFrom_last free

theorem linesOf_next (free : '\n' ∉ line) :
    linesOf (line ++ '\n' :: rest) = (line ++ ['\n']) :: linesOf rest :=
  linesFrom_next free

theorem contents_last (free : '\n' ∉ line) : contents line = line :=
  takeWhile_ne_self free

theorem contents_next (free : '\n' ∉ line) : contents (line ++ '\n' :: rest) = line :=
  takeWhile_ne_cons free rest

/-- A line is its contents, with or without a newline. -/
theorem line_cases {conf_fp : List Char} (mem : line ∈ linesOf conf_fp) :
    '\n' ∉ contents line ∧ (line = contents line ∨ line = contents line ++ ['\n']) := by
  induction conf_fp using lines_induction with
  | last text free =>
      rw [linesOf_last free] at mem
      split at mem
      · cases mem
      · rw [List.mem_singleton.mp mem, contents_last free]
        exact ⟨free, .inl rfl⟩
  | next text rest free ih =>
      rw [linesOf_next free, List.mem_cons] at mem
      obtain rfl | mem := mem
      · rw [contents_next free]
        exact ⟨free, .inr rfl⟩
      · exact ih mem

/-- fgets starts afresh behind a newline. -/
theorem fgets_next (input_buf text rest : List Char) :
    fgets size input_buf (text ++ '\n' :: rest) =
      fgets size input_buf (text ++ ['\n']) ++ fgets size [] rest := by
  induction text generalizing input_buf with
  | nil => simp [fgets]
  | cons c text ih =>
      simp only [List.cons_append, fgets]
      split
      · rw [ih, List.cons_append]
      · exact ih _

theorem fgets_eq_flatMap (conf_fp : List Char) :
    fgets size [] conf_fp = (linesOf conf_fp).flatMap (fgets size []) := by
  induction conf_fp using lines_induction with
  | last line free =>
      rw [linesOf_last free]
      split
      · next empty => simp [empty, fgets]
      · simp
  | next line rest free ih =>
      rw [linesOf_next free, fgets_next, ih, List.flatMap_cons]

/-- A buffer that is full before the line ends. -/
theorem fgets_full {input_buf text : List Char} (free : '\n' ∉ text) (nonempty : text ≠ [])
    (full : input_buf.length + text.length + 1 = size) :
    fgets size input_buf (text ++ rest) = (input_buf ++ text) :: fgets size [] rest := by
  induction text generalizing input_buf with
  | nil => contradiction
  | cons c text ih =>
      obtain ⟨other, free⟩ : '\n' ≠ c ∧ '\n' ∉ text := by simpa using free
      rw [List.length_cons] at full
      rw [List.cons_append, fgets]
      cases text with
      | nil => rw [if_pos (.inr (by simpa using full)), List.nil_append]
      | cons d text =>
          rw [if_neg, ih free (by simp) (by simp at full ⊢; omega)]
          · simp
          · simp only [List.length_cons] at full
            exact fun h => h.elim (fun eq => other eq.symm) (by omega)

theorem length_of_mem_fgets {input_buf buf : List Char} {conf_fp : List Char}
    (room : input_buf.length + 1 < size) (mem : buf ∈ fgets size input_buf conf_fp) :
    buf.length < size := by
  induction conf_fp generalizing input_buf with
  | nil =>
      rw [fgets] at mem
      split at mem
      · cases mem
      · rw [List.mem_singleton.mp mem]
        omega
  | cons c conf_fp ih =>
      rw [fgets] at mem
      split at mem
      · rw [List.mem_cons] at mem
        obtain rfl | mem := mem
        · simpa using room
        · exact ih (by simp; omega) mem
      · next notFull => exact ih (by simp; omega) mem

theorem linesOf_line {conf_fp : List Char} (mem : line ∈ linesOf conf_fp) :
    linesOf line = [line] := by
  induction conf_fp using lines_induction with
  | last text free =>
      rw [linesOf_last free] at mem
      split at mem
      · cases mem
      · next nonempty => rw [List.mem_singleton.mp mem, linesOf_last free, if_neg nonempty]
  | next text rest free ih =>
      rw [linesOf_next free, List.mem_cons] at mem
      obtain rfl | mem := mem
      · rw [linesOf_next free]
        rfl
      · exact ih mem

/-- A line that is short enough comes in one buffer. -/
theorem fgets_line {conf_fp : List Char} (mem : line ∈ linesOf conf_fp)
    (short : (contents line).length + 1 < size) : fgets size [] line = [line] := by
  have single : linesFrom [] line = [line] := linesOf_line mem
  rw [fgets_eq_linesFrom List.not_mem_nil fun l inLine => ?_, single]
  rw [single, List.mem_singleton] at inLine
  rwa [inLine]

/-- A line that just fills the buffer leaves its newline for the next one. -/
theorem fgets_line_full {conf_fp buf : List Char} (mem : line ∈ linesOf conf_fp)
    (full : (contents line).length + 1 = size) (room : 1 < size)
    (piece : buf ∈ fgets size [] line) : buf = contents line ∨ buf = ['\n'] := by
  obtain ⟨free, shape⟩ := line_cases mem
  have nonempty : contents line ≠ [] := List.ne_nil_of_length_pos (by omega)
  have first (tail : List Char) : fgets size [] (contents line ++ tail) =
      contents line :: fgets size [] tail := fgets_full free nonempty (by simpa using full)
  obtain eq | eq := shape
  · have whole := first []
    rw [List.append_nil, ← eq] at whole
    rw [whole] at piece
    have isLine : buf = line := by simpa [fgets] using piece
    exact .inl (isLine.trans eq)
  · rw [eq, first] at piece
    simpa [fgets] using piece

end Files

section Newline
variable {delim : Char} {str : List Char}

theorem strtok_skip {skipped : List Char} (all : ∀ c ∈ skipped, c = delim) (str : List Char) :
    strtok delim (skipped ++ str) = strtok delim str := by
  unfold strtok
  rw [List.dropWhile_append_of_pos fun c mem => by simp [all c mem]]

/-- A string of delimiters, or a token behind some of them, up to the end or the next one. -/
theorem token_cases (delim : Char) (str : List Char) :
    (∀ c ∈ str, c = delim) ∨ ∃ skipped token rest, str = skipped ++ (token ++ rest) ∧
      (∀ c ∈ skipped, c = delim) ∧ delim ∉ token ∧ token ≠ [] ∧
      (rest = [] ∨ ∃ rest', rest = delim :: rest') := by
  induction str with
  | nil => simp
  | cons c str ih =>
      by_cases isDelim : c = delim
      · obtain all | ⟨skipped, token, rest, rfl, all, more⟩ := ih
        · exact .inl (List.forall_mem_cons.mpr ⟨isDelim, all⟩)
        · exact .inr ⟨c :: skipped, token, rest, rfl, List.forall_mem_cons.mpr ⟨isDelim, all⟩, more⟩
      · refine .inr ⟨[], ?_⟩
        by_cases mem : delim ∈ str
        · obtain ⟨token, rest, rfl, free⟩ := List.eq_append_cons_of_mem mem
          exact ⟨c :: token, delim :: rest, rfl, by simp, by simp [free, Ne.symm isDelim], by simp,
            .inr ⟨rest, rfl⟩⟩
        · exact ⟨c :: str, [], by simp, by simp, by simp [mem, Ne.symm isDelim], by simp, .inl rfl⟩

/-- A character behind the end goes to the last token or to what is left of the string. -/
theorem strtok_concat {x : Char} (other : x ≠ delim) (str : List Char) :
    strtok delim (str ++ [x]) = some ([x], []) ∨
    (∃ token, strtok delim str = some (token, []) ∧
      strtok delim (str ++ [x]) = some (token ++ [x], [])) ∨
    ∃ token rest, strtok delim str = some (token, rest) ∧
      strtok delim (str ++ [x]) = some (token, rest ++ [x]) := by
  obtain all | ⟨skipped, token, rest, rfl, all, free, nonempty, shape⟩ := token_cases delim str
  · left
    rw [strtok_skip all]
    have alone : strtok delim ([x] ++ []) = some ([x], []) :=
      strtok_eq_some (by simpa using Ne.symm other) (by simp) rfl
    exact alone
  · right
    rw [List.append_assoc, strtok_skip all, strtok_skip all]
    obtain rfl | ⟨rest, rfl⟩ := shape
    · have longer : strtok delim (token ++ [x] ++ []) = some (token ++ [x], []) :=
        strtok_eq_some (by simp [free, Ne.symm other]) (by simp) rfl
      rw [List.append_nil] at longer ⊢
      have whole : strtok delim (token ++ []) = some (token, []) := strtok_eq_some free nonempty rfl
      rw [List.append_nil] at whole
      exact .inl ⟨token, whole, longer⟩
    · rw [List.append_assoc]
      exact .inr ⟨token, rest, strtok_eq_some free nonempty (by simp),
        strtok_eq_some free nonempty (by simp)⟩

theorem locUtilTrimSpace_blank (blank : ∀ c ∈ str, isspace c) : locUtilTrimSpace str = str := by
  rw [locUtilTrimSpace, trimScan_spaces blank, if_pos rfl]

theorem trimScan_of_some (str written : List Char) {n : Nat} (le : n ≤ written.length)
    (nonempty : written ≠ []) :
    ∃ written' n', trimScan str (written, some n) = (written', some n') ∧
      n' ≤ written'.length ∧ written' ≠ [] := by
  induction str generalizing written n with
  | nil => exact ⟨written, n, rfl, le, nonempty⟩
  | cons c str ih =>
      rw [trimScan]
      split
      · exact ih _ (by simp; omega) (by simp)
      · exact ih _ (by simp) (by simp)

theorem trimScan_nonblank (nonblank : ∃ c ∈ str, isspace c = false) :
    ∃ written n, trimScan str ([], none) = (written, some n) ∧ n ≤ written.length ∧
      written ≠ [] := by
  induction str with
  | nil => simp at nonblank
  | cons c str ih =>
      rw [trimScan]
      split
      · next space =>
          rw [if_pos rfl]
          exact ih (by simpa [space] using nonblank)
      · exact trimScan_of_some str _ (by simp) (by simp)

/-- White space behind the last character that is none does not matter. -/
theorem locUtilTrimSpace_concat {x : Char} (space : isspace x)
    (nonblank : ∃ c ∈ str, isspace c = false) :
    locUtilTrimSpace (str ++ [x]) = locUtilTrimSpace str := by
  obtain ⟨written, n, scanned, le, nonempty⟩ := trimScan_nonblank nonblank
  have longer : trimScan (str ++ [x]) ([], none) = (written ++ [x], some n) := by
    rw [trimScan_append, scanned, trimScan_spaces (by simpa using space), if_neg nonempty]
  rw [locUtilTrimSpace, longer, locUtilTrimSpace, scanned]
  exact List.take_append_of_le_length le

/-- The value of the line is blank up to its newline. -/
def BlankValue (line : List Char) : Prop :=
  ∃ name value, strtok '=' line = some name ∧ strtok '=' name.2 = some value ∧
    '\n' ∈ value.1 ∧ ∀ c ∈ value.1, isspace c

/-- A newline behind the line changes nothing, unless the value is blank up to there. -/
theorem configValue_newline (item : (configValue (str ++ ['\n'])).isSome)
    (nonblank : ¬ BlankValue (str ++ ['\n'])) :
    configValue (str ++ ['\n']) = configValue str := by
  rw [configValue_eq] at item ⊢
  rw [configValue_eq]
  obtain alone | ⟨token, -, ended⟩ | ⟨name, lasts, first, first'⟩ :=
    strtok_concat (by decide : '\n' ≠ '=') str
  · rw [alone] at item
    exact absurd item (by simp [strtok])
  · rw [ended] at item
    exact absurd item (by simp [strtok])
  · rw [first, first', Option.bind_some, Option.bind_some]
    obtain alone | ⟨token, second, second'⟩ | ⟨token, rest, second, second'⟩ :=
      strtok_concat (by decide : '\n' ≠ '=') lasts
    · exact absurd ⟨_, _, first', alone, by simp, by simp [isspace]⟩ nonblank
    · have visible : ∃ c ∈ token, isspace c = false := by
        by_contra! blank
        refine nonblank ⟨_, _, first', second', by simp, fun c mem => ?_⟩
        obtain mem | mem := List.mem_append.mp mem
        · simpa using blank c mem
        · rw [List.mem_singleton.mp mem]
          rfl
      rw [second, second', Option.bind_some, Option.bind_some,
        locUtilTrimSpace_concat rfl visible]
    · rw [second, second', Option.bind_some, Option.bind_some]

theorem mem_of_configValue {config_value : LocParamV} {c : Char}
    (read : configValue str = some config_value) (mem : c ∈ config_value.param_str_value) :
    c ∈ str := by
  have inside {text : List Char} {token : List Char × List Char}
      (h : strtok '=' text = some token) : token.1 ⊆ text ∧ token.2 ⊆ text := by
    unfold strtok at h
    split at h
    · cases h
    · obtain rfl := Option.some.inj h
      have skipped := (List.dropWhile_suffix (l := text) (· = '=')).subset
      exact ⟨fun c mem => skipped ((List.takeWhile_prefix _).subset mem),
        fun c mem => skipped ((List.dropWhile_suffix _).subset (List.mem_of_mem_drop mem))⟩
  rw [configValue_eq] at read
  obtain ⟨name, first, read⟩ := Option.bind_eq_some_iff.mp read
  obtain ⟨value, second, read⟩ := Option.bind_eq_some_iff.mp read
  obtain rfl := Option.some.inj read
  rw [(paramValue_operands _ _).2] at mem
  exact (inside first).2 ((inside second).1 (mem_locUtilTrimSpace mem))

/-- Read with its newline, a blank value has the newline in it. -/
theorem mem_of_blankValue (blank : BlankValue str) :
    ∃ config_value, configValue str = some config_value ∧
      '\n' ∈ config_value.param_str_value := by
  obtain ⟨name, value, first, second, newline, spaces⟩ := blank
  refine ⟨_, by rw [configValue_eq, first, Option.bind_some, second, Option.bind_some], ?_⟩
  rw [(paramValue_operands _ _).2, locUtilTrimSpace_blank spaces]
  exact newline

end Newline

section Items
variable {table : List LocParamS} {line conf_fp : List Char}

/-- A buffer with the line that it is a piece of. -/
structure Piece where
  line : List Char
  input_buf : List Char

def pieces (conf_fp : List Char) : List Piece :=
  (linesOf conf_fp).flatMap fun line => (fgets LOC_MAX_PARAM_LINE [] line).map (Piece.mk line)

/-- The buffers that the loop takes before its countdown ends. -/
def reached (table : List LocParamS) : List Piece → BitVec 32 → List Piece
  | [], _ => []
  | piece :: rest, num_params =>
      if num_params = 0 then []
      else piece :: reached table rest (num_params - BitVec.ofNat 32 (filled table piece.input_buf))

/-- The items that loc_read_conf_r applies: the buffers that set an entry. -/
def applied (table : List LocParamS) (conf_fp : List Char) : List Piece :=
  (reached table (pieces conf_fp) (BitVec.ofNat 32 table.length)).filter (Fills table ·.input_buf)

/-- The item is that of the whole line, with the newline removed. -/
def Piece.Whole (piece : Piece) : Prop :=
  contents piece.input_buf = contents piece.line ∧
    configValue (cString piece.input_buf) = configValue (cString (contents piece.line))

def applyItem (table : List LocParamS) (piece : Piece) : List LocParamS :=
  (locFillConfItem (cString piece.input_buf) table).2

theorem map_pieces (conf_fp : List Char) :
    (pieces conf_fp).map Piece.input_buf = fgets LOC_MAX_PARAM_LINE [] conf_fp := by
  rw [fgets_eq_flatMap, pieces, List.map_flatMap]
  simp [Function.comp_def]

theorem mem_pieces {piece : Piece} (mem : piece ∈ pieces conf_fp) :
    piece.line ∈ linesOf conf_fp ∧ piece.input_buf ∈ fgets LOC_MAX_PARAM_LINE [] piece.line := by
  obtain ⟨line, inFile, mem⟩ := List.mem_flatMap.mp mem
  obtain ⟨buf, inLine, rfl⟩ := List.mem_map.mp mem
  exact ⟨inFile, inLine⟩

theorem reached_subset (table : List LocParamS) (rest : List Piece) (num_params : BitVec 32) :
    reached table rest num_params ⊆ rest := by
  induction rest generalizing num_params with
  | nil => exact List.Subset.refl _
  | cons piece rest ih =>
      rw [reached]
      split
      · exact List.nil_subset _
      · exact List.cons_subset_cons piece (ih _)

theorem filled_ne_zero_iff (table : List LocParamS) (line : List Char) :
    filled table line ≠ 0 ↔ Fills table line := by
  rw [filled, ← Nat.pos_iff_ne_zero, List.countP_pos_iff]
  simp [Fills]

theorem map_setBy_of_not_fills (h : ¬ Fills table line) : table.map (setBy · line) = table :=
  (List.map_congr_left fun entry mem => setBy_of_not fun named => h ⟨entry, mem, named⟩).trans
    (List.map_id table)

theorem filled_map_setBy (table : List LocParamS) (first line : List Char) :
    filled (table.map (setBy · first)) line = filled table line := by
  unfold filled
  simp [List.countP_map, Function.comp_def, (setBy_same _ first).settable,
    (setBy_same _ first).valueFor_eq]

/-- The loop changes the table by the items that it applies. -/
theorem readLoop_eq_foldl (rest : List Piece) (num_params : BitVec 32)
    {now : List LocParamS} (same : ∀ line, filled now line = filled table line) :
    readLoop (rest.map Piece.input_buf) num_params now =
      ((reached table rest num_params).filter (Fills table ·.input_buf)).foldl applyItem now := by
  induction rest generalizing num_params now with
  | nil => rfl
  | cons piece rest ih =>
      rw [List.map_cons, readLoop, reached]
      split
      · rfl
      · have next := ih (num_params - BitVec.ofNat 32 (filled table piece.input_buf))
          fun line => (filled_map_setBy now piece.input_buf line).trans (same line)
        simp only [locFillConfItem_filled, same, next]
        by_cases fills : Fills table piece.input_buf
        · rw [List.filter_cons_of_pos (by simpa using fills), List.foldl_cons, applyItem,
            locFillConfItem_filled]
        · have unchanged : ¬ Fills now piece.input_buf := by
            rwa [← filled_ne_zero_iff, same, filled_ne_zero_iff]
          rw [List.filter_cons_of_neg (by simpa using fills), map_setBy_of_not_fills unchanged]

theorem filled_cleared (table : List LocParamS) (line : List Char) :
    filled (table.map LocParamS.cleared) line = filled table line := by
  unfold filled
  simp [List.countP_map, Function.comp_def, (cleared_same _).settable,
    (cleared_same _).valueFor_eq]

theorem locReadConfR_eq (table : List LocParamS) (conf_fp : List Char) :
    locReadConfR conf_fp table =
      (applied table conf_fp).foldl applyItem (table.map LocParamS.cleared) := by
  rw [applied, ← readLoop_eq_foldl _ _ (filled_cleared table), map_pieces, locReadConfR]
  simp only [List.length_map]
  rfl

theorem isSome_of_fills (fills : Fills table line) : (configValue (cString line)).isSome := by
  obtain ⟨entry, -, -, named⟩ := fills
  obtain ⟨value, named⟩ := Option.isSome_iff_exists.mp named
  exact Option.isSome_of_mem (valueFor_eq_some.mp named).1

/-- A terminator in a string hides what comes behind it. -/
theorem cString_newline (text : List Char) :
    cString (text ++ ['\n']) = cString text ∨
      cString (text ++ ['\n']) = text ++ ['\n'] ∧ cString text = text := by
  by_cases terminated : '\x00' ∈ text
  · obtain ⟨before, after, rfl, free⟩ := List.eq_append_cons_of_mem terminated
    left
    rw [cString, cString, List.append_assoc, List.cons_append, takeWhile_ne_cons free,
      takeWhile_ne_cons free]
  · exact .inr ⟨takeWhile_ne_append terminated ['\n'], takeWhile_ne_self terminated⟩

/-- An item is that of its whole line exactly if the line is short enough to come whole and does
not give a blank value. -/
theorem whole_iff {piece : Piece} (mem : piece ∈ pieces conf_fp)
    (fills : Fills table piece.input_buf) :
    piece.Whole ↔ (contents piece.line).length < LOC_MAX_PARAM_LINE ∧
      ¬ BlankValue (cString piece.input_buf) := by
  obtain ⟨inFile, inLine⟩ := mem_pieces mem
  obtain ⟨free, shape⟩ := line_cases inFile
  have item := isSome_of_fills fills
  constructor
  · rintro ⟨whole, same⟩
    constructor
    · have bound := length_of_mem_fgets (by decide) inLine
      have prefixed := (List.takeWhile_prefix (l := piece.input_buf) (· ≠ '\n')).length_le
      rw [← whole]
      exact Nat.lt_of_le_of_lt prefixed bound
    · intro blank
      obtain ⟨config_value, read, newline⟩ := mem_of_blankValue blank
      have inContents := mem_of_configValue (same ▸ read) newline
      exact free ((List.takeWhile_prefix _).subset inContents)
  · rintro ⟨short, nonblank⟩
    by_cases full : (contents piece.line).length + 1 = LOC_MAX_PARAM_LINE
    · obtain eq | eq := fgets_line_full inFile full (by decide) inLine
      · rw [Piece.Whole, eq, contents_last free]
        exact ⟨rfl, rfl⟩
      · rw [eq] at item
        exact absurd item (by decide)
    · have single := fgets_line inFile (Nat.lt_of_le_of_ne short full)
      have isLine : piece.input_buf = piece.line := by simpa [single] using inLine
      rw [isLine] at item nonblank
      refine ⟨by rw [isLine], ?_⟩
      rw [isLine]
      obtain eq | eq := shape
      · rw [← eq]
      · obtain hidden | ⟨whole, all⟩ := cString_newline (contents piece.line)
        · rw [← eq] at hidden
          rw [hidden]
        · rw [← eq] at whole
          rw [whole, eq] at item nonblank ⊢
          rw [configValue_newline item nonblank, ← eq, all]

/-- The table is what the applied items make of it, and these are those of whole lines exactly if
each comes from a short line and gives a value that is not blank up to the newline. -/
theorem lines_are_applied_whole_iff (table : List LocParamS) (conf_fp : List Char) :
    locReadConfR conf_fp table =
        (applied table conf_fp).foldl applyItem (table.map LocParamS.cleared) ∧
      ((∀ piece ∈ applied table conf_fp, piece.Whole) ↔
        ∀ piece ∈ applied table conf_fp, (contents piece.line).length < LOC_MAX_PARAM_LINE ∧
          ¬ BlankValue (cString piece.input_buf)) := by
  refine ⟨locReadConfR_eq table conf_fp, forall₂_congr fun piece mem => ?_⟩
  obtain ⟨isReached, fills⟩ := List.mem_filter.mp mem
  exact whole_iff (reached_subset table _ _ isReached) (of_decide_eq_true fills)

instance (piece : Piece) : Decidable piece.Whole := inferInstanceAs (Decidable (_ ∧ _))

/-- The newline is the value of KEY=, and the middle of a long line is an item. -/
theorem pieces_are_applied :
    (∃ piece ∈ applied (oneEntry 's') "KEY=\n".toList, ¬ piece.Whole) ∧
      ∃ piece ∈ applied (oneEntry 's') (List.replicate 159 '#' ++ "KEY=value\n".toList),
        ¬ piece.Whole := by
  decide +kernel

end Items

end Msm8974.LocCfg
