import Msm8974.Utils.LocCfgReading

/-!
Round trips of single items. A key and a value keep their characters through strtok_r and the
trimming; a number then goes through strtol or atoi, which stay within a long, and a string
through a bounded copy. What the items do not survive is a number from 2^31 on and a string
with the delimiter in it.
-/

namespace Msm8974.LocCfg

/-- Neither the first nor the last character is white space. -/
structure Trimmed (text : List Char) : Prop where
  head : ∀ c ∈ text.head?, isspace c = false
  last : ∀ c ∈ text.getLast?, isspace c = false

/-- A name that an item can give. -/
structure Key (key : List Char) : Prop where
  nonempty : key ≠ []
  free : '=' ∉ key
  trimmed : Trimmed key

/-- The line is KEY=value with blanks around the two. -/
def Item (key value line : List Char) : Prop :=
  ∃ a b c d, (∀ x ∈ a ++ b ++ c ++ d, isspace x) ∧
    line = (a ++ key ++ b) ++ '=' :: (c ++ value ++ d)

section Trimming
variable {text spaces : List Char}

theorem trimScan_append (first second : List Char) (state : List Char × Option Nat) :
    trimScan (first ++ second) state = trimScan second (trimScan first state) := by
  induction first generalizing state with
  | nil => rfl
  | cons c first ih =>
      simp only [List.cons_append, trimScan]
      split <;> exact ih _

theorem trimScan_spaces (blank : ∀ c ∈ spaces, isspace c) (written : List Char)
    (last_nonspace : Option Nat) :
    trimScan spaces (written, last_nonspace) =
      (if written = [] then [] else written ++ spaces, last_nonspace) := by
  induction spaces generalizing written with
  | nil => simp [trimScan]
  | cons c spaces ih =>
      obtain ⟨space, blank⟩ := List.forall_mem_cons.mp blank
      rw [trimScan, if_pos space, ih blank]
      by_cases empty : written = [] <;> simp [empty]

theorem trimScan_written {written : List Char} (nonempty : written ≠ []) (text : List Char)
    (last_nonspace : Option Nat) :
    (trimScan text (written, last_nonspace)).1 = written ++ text := by
  induction text generalizing written last_nonspace with
  | nil => simp [trimScan]
  | cons c text ih =>
      rw [trimScan]
      split
      · rw [ih (by simp), List.append_assoc, List.singleton_append]
      · rw [ih (by simp), List.append_assoc, List.singleton_append]

/-- The scan keeps a text from its first character on. -/
theorem trimScan_of_head (head : ∀ c ∈ text.head?, isspace c = false) :
    (trimScan text ([], none)).1 = text := by
  cases text with
  | nil => rfl
  | cons c text =>
      rw [trimScan, if_neg (by simp [head c rfl]), List.nil_append,
        trimScan_written (by simp), List.singleton_append]

theorem locUtilTrimSpace_eq {before after : List Char} (nonempty : text ≠ [])
    (trimmed : Trimmed text) (blank : ∀ c ∈ before ++ after, isspace c) :
    locUtilTrimSpace (before ++ text ++ after) = text := by
  obtain ⟨first, last, rfl⟩ := (List.eq_nil_or_concat text).resolve_left nonempty
  rw [List.concat_eq_append] at trimmed ⊢
  obtain ⟨blank, blank'⟩ := List.forall_mem_append.mp blank
  have nonspace : isspace last = false := trimmed.last last (by simp)
  have head : ∀ c ∈ first.head?, isspace c = false := by
    intro c mem
    cases first with
    | nil => cases mem
    | cons d first => exact trimmed.head c mem
  have scanned : trimScan (before ++ (first ++ [last]) ++ after) ([], none) =
      (first ++ [last] ++ after, some (first.length + 1)) := by
    rw [trimScan_append, trimScan_append, trimScan_spaces blank, if_pos rfl, trimScan_append]
    rw [trimScan, if_neg (by simp [nonspace]), trimScan_of_head head, trimScan,
      trimScan_spaces blank', if_neg (by simp)]
  rw [locUtilTrimSpace, scanned]
  exact List.take_left' (by simp)

theorem mem_locUtilTrimSpace {c : Char} (mem : c ∈ locUtilTrimSpace text) : c ∈ text := by
  have kept (text : List Char) (written : List Char) (last_nonspace : Option Nat)
      (mem : c ∈ (trimScan text (written, last_nonspace)).1) : c ∈ written ∨ c ∈ text := by
    induction text generalizing written last_nonspace with
    | nil => exact .inl mem
    | cons d text ih =>
        rw [trimScan] at mem
        split at mem
        · have := ih _ _ mem
          grind
        · have := ih _ _ mem
          grind
  unfold locUtilTrimSpace at mem
  split at mem
  · exact mem
  · next written n scanned =>
      have := kept text [] none (by rw [scanned]; exact List.mem_of_mem_take mem)
      simpa using this

end Trimming

section Operands
variable {key value line : List Char}

/-- What is read from the two operands once they are trimmed. -/
def paramValue (param_name param_str_value : List Char) : LocParamV :=
  match param_str_value with
  | '0' :: x :: hex :: rest =>
      if x.toLower = 'x' then ⟨param_name, param_str_value, strtol (hex :: rest) 16, .zero⟩
      else ⟨param_name, param_str_value, atoi param_str_value, .atof param_str_value⟩
  | _ => ⟨param_name, param_str_value, atoi param_str_value, .atof param_str_value⟩

theorem paramValue_operands (param_name param_str_value : List Char) :
    (paramValue param_name param_str_value).param_name = param_name ∧
      (paramValue param_name param_str_value).param_str_value = param_str_value := by
  unfold paramValue
  split
  · split <;> exact ⟨rfl, rfl⟩
  · exact ⟨rfl, rfl⟩

theorem paramValue_decimal {param_str_value : List Char} (param_name : List Char)
    (other : ∀ x hex rest, param_str_value = '0' :: x :: hex :: rest → False) :
    paramValue param_name param_str_value =
      ⟨param_name, param_str_value, atoi param_str_value, .atof param_str_value⟩ := by
  unfold paramValue
  split
  · next x hex rest => exact (other x hex rest rfl).elim
  · rfl

theorem configValue_eq (input_buf : List Char) :
    configValue input_buf = (strtok '=' input_buf).bind fun name => (strtok '=' name.2).bind
      fun value => some (paramValue (locUtilTrimSpace name.1) (locUtilTrimSpace value.1)) := by
  unfold configValue
  cases strtok '=' input_buf with
  | none => rfl
  | some name =>
      cases second : strtok '=' name.2 with
      | none => simp [second]
      | some value =>
          simp only [second, Option.bind_eq_bind, Option.bind_some]
          generalize locUtilTrimSpace value.1 = param_str_value
          split
          · next x hex rest =>
              by_cases prefixed : x.toLower = 'x' <;> simp [paramValue, prefixed]
          · next other => exact congrArg some (paramValue_decimal _ other).symm

theorem configValue_item (isKey : Key key) (nonempty : value ≠ []) (free : '=' ∉ value)
    (trimmed : Trimmed value) (item : Item key value line) :
    configValue line = some (paramValue key value) := by
  obtain ⟨a, b, c, d, blank, rfl⟩ := item
  have noDelim {spaces : List Char} (blank : ∀ x ∈ spaces, isspace x) : '=' ∉ spaces :=
    fun mem => absurd (blank '=' mem) (by decide)
  simp only [List.forall_mem_append] at blank
  obtain ⟨⟨⟨blankA, blankB⟩, blankC⟩, blankD⟩ := blank
  have first : strtok '=' ((a ++ key ++ b) ++ '=' :: (c ++ value ++ d)) =
      some (a ++ key ++ b, c ++ value ++ d) :=
    strtok_eq_some (by simp [noDelim blankA, noDelim blankB, isKey.free])
      (by simp [isKey.nonempty]) (by simp)
  have second : strtok '=' (c ++ value ++ d ++ []) = some (c ++ value ++ d, []) :=
    strtok_eq_some (by simp [noDelim blankC, noDelim blankD, free]) (by simp [nonempty]) rfl
  rw [List.append_nil] at second
  rw [configValue_eq, first, Option.bind_some, second, Option.bind_some,
    locUtilTrimSpace_eq isKey.nonempty isKey.trimmed (List.forall_mem_append.mpr ⟨blankA, blankB⟩),
    locUtilTrimSpace_eq nonempty trimmed (List.forall_mem_append.mpr ⟨blankC, blankD⟩)]

theorem not_mem_of_strtok {delim : Char} {str token rest : List Char}
    (h : strtok delim str = some (token, rest)) : delim ∉ token := by
  unfold strtok at h
  split at h
  · cases h
  · obtain ⟨rfl, -⟩ := Prod.mk.inj (Option.some.inj h)
    intro mem
    simpa using List.mem_takeWhile_imp mem

/-- The delimiter is never part of a value. -/
theorem not_mem_of_configValue {config_value : LocParamV}
    (read : configValue line = some config_value) : '=' ∉ config_value.param_str_value := by
  rw [configValue_eq] at read
  obtain ⟨name, -, read⟩ := Option.bind_eq_some_iff.mp read
  obtain ⟨value, second, read⟩ := Option.bind_eq_some_iff.mp read
  obtain rfl := Option.some.inj read
  rw [(paramValue_operands _ _).2]
  exact fun mem => not_mem_of_strtok second (mem_locUtilTrimSpace mem)

end Operands

section Numbers
variable {base v : Nat} {text : List Char}

/-- The digits of a number, with any zeros in front and letters of either case. -/
structure Digits (base v : Nat) (text : List Char) : Prop where
  nonempty : text ≠ []
  digits : ∀ c ∈ text, digit c < base
  value : text.foldl (fun n c => n * base + digit c) 0 = v

/-- The number as 0x and hexadecimal digits, or as decimal digits. -/
def Numeral (v : Nat) (text : List Char) : Prop :=
  (∃ x hex, text = '0' :: x :: hex ∧ x.toLower = 'x' ∧ Digits 16 v hex) ∨ Digits 10 v text

theorem digit_of_isspace {c : Char} (space : isspace c) : digit c = 36 := by
  simp only [isspace, List.mem_cons, List.not_mem_nil, or_false, decide_eq_true_eq] at space
  obtain rfl | rfl | rfl | rfl | rfl | rfl := space
  all_goals rfl

theorem toLower_ne_x {c : Char} (small : digit c < 16) : c.toLower ≠ 'x' := by
  intro eq
  unfold digit at small
  split at small
  · next decimal =>
      have unchanged : c.toLower = c :=
        dif_neg fun upper => absurd (UInt32.le_trans upper.1 decimal.2) (by decide)
      rw [unchanged] at eq
      subst eq
      exact absurd decimal (by decide)
  · rw [eq] at small
    exact absurd small (by decide)

theorem Digits.head_ne (digits : Digits base v text) (le : base ≤ 36) {c : Char}
    (other : digit c = 36) (rest : List Char) : text ≠ c :: rest := by
  rintro rfl
  have := digits.digits c List.mem_cons_self
  omega

/-- strtol reads all digits and stays within a long. -/
theorem strtol_digits (digits : Digits base v text) (le : base ≤ 16) :
    strtol text base = BitVec.ofNat 32 (min v (2 ^ 31 - 1)) := by
  obtain ⟨c, rest, rfl⟩ := List.exists_cons_of_ne_nil digits.nonempty
  have first := digits.digits c List.mem_cons_self
  have nonspace : isspace c = false := by
    cases space : isspace c with
    | false => rfl
    | true => have := digit_of_isspace space; omega
  have all : (c :: rest).takeWhile (digit · < base) = c :: rest :=
    List.takeWhile_eq_self_iff.mpr fun d mem => decide_eq_true (digits.digits d mem)
  have saturated : BitVec.ofInt 32 (min (v : Int) (2 ^ 31 - 1)) =
      BitVec.ofNat 32 (min v (2 ^ 31 - 1)) := by
    rw [← BitVec.ofInt_natCast]
    congr 1
    omega
  unfold strtol
  rw [List.dropWhile_cons_of_neg (by simp [nonspace])]
  simp only
  split
  · next eq => exact (digits.head_ne (by omega) rfl _ eq).elim
  · next eq => exact (digits.head_ne (by omega) rfl _ eq).elim
  · simp only [Bool.false_eq_true, if_false]
    split
    · next x rest' eq =>
        -- a digit is not the x of a prefix
        have notPrefix : ¬(base = 16 ∧ x.toLower = 'x') := fun ⟨hex, isX⟩ =>
          toLower_ne_x (hex ▸ digits.digits x (by simp [eq])) isX
        rw [if_neg notPrefix, all, digits.value, saturated]
    · rw [all, digits.value, saturated]

theorem paramValue_numeral (param_name : List Char) (numeral : Numeral v text) :
    (paramValue param_name text).param_int_value = BitVec.ofNat 32 (min v (2 ^ 31 - 1)) := by
  obtain ⟨x, hex, rfl, isX, digits⟩ | digits := numeral
  · obtain ⟨c, rest, rfl⟩ := List.exists_cons_of_ne_nil digits.nonempty
    rw [paramValue, if_pos isX]
    exact strtol_digits digits (Nat.le_refl 16)
  · have decimal : atoi text = BitVec.ofNat 32 (min v (2 ^ 31 - 1)) :=
      strtol_digits digits (by decide)
    unfold paramValue
    split
    · next x hex rest =>
        have small : digit x < 16 := Nat.lt_trans (digits.digits x (by simp)) (by decide)
        rw [if_neg (toLower_ne_x small)]
        exact decimal
    · exact decimal

theorem Digits.plain (digits : Digits base v text) (le : base ≤ 36) :
    ∀ c ∈ text, isspace c = false ∧ c ≠ '=' := by
  intro c mem
  have small := digits.digits c mem
  constructor
  · cases space : isspace c with
    | false => rfl
    | true =>
        have := digit_of_isspace space
        omega
  · rintro rfl
    exact absurd (Nat.lt_of_lt_of_le small le) (by decide)

/-- A numeral has neither the delimiter nor white space. -/
theorem Numeral.plain (numeral : Numeral v text) :
    text ≠ [] ∧ ∀ c ∈ text, isspace c = false ∧ c ≠ '=' := by
  obtain ⟨x, hex, rfl, isX, digits⟩ | digits := numeral
  · refine ⟨by simp, List.forall_mem_cons.mpr ⟨by decide, List.forall_mem_cons.mpr ⟨⟨?_, ?_⟩,
      digits.plain (by decide)⟩⟩⟩
    · cases space : isspace x with
      | false => rfl
      | true =>
          simp only [isspace, List.mem_cons, List.not_mem_nil, or_false, decide_eq_true_eq] at space
          obtain rfl | rfl | rfl | rfl | rfl | rfl := space
          all_goals exact absurd isX (by decide)
    · rintro rfl
      exact absurd isX (by decide)
  · exact ⟨digits.nonempty, digits.plain (by decide)⟩

theorem trimmed_of_plain (plain : ∀ c ∈ text, isspace c = false) : Trimmed text where
  head c mem := plain c (List.mem_of_mem_head? mem)
  last c mem := plain c (List.mem_of_getLast? mem)

end Numbers

section Storing
variable {key value line : List Char} {table : List LocParamS} {i : Nat} {entry : LocParamS}

/-- What the storage of an entry holds after loc_fill_conf_item. -/
def storedAt (line : List Char) (table : List LocParamS) (i : Nat) : Option Storage :=
  (locFillConfItem line table).2[i]?.bind LocParamS.param_ptr

theorem storedAt_eq {config_value : LocParamV} (read : configValue line = some config_value)
    (at_i : table[i]? = some entry) :
    storedAt line table i = (locSetConfigEntry entry config_value).2.param_ptr := by
  simp [storedAt, locFillConfItem, read, at_i]

theorem storedAt_of_named {config_value : LocParamV} {content : Storage}
    (read : configValue line = some config_value) (at_i : table[i]? = some entry)
    (named : entry.param_name = config_value.param_name) (ptr : entry.param_ptr.isSome)
    (stored : config_value.stored entry.param_type = some content) :
    storedAt line table i = some content := by
  rw [storedAt_eq read at_i, locSetConfigEntry, if_pos ⟨named, ptr⟩, stored]

/-- A number comes back exactly if it is in the range of a long. -/
theorem number_is_stored_iff {text : List Char} (v : BitVec 32) (numeral : Numeral v.toNat text)
    (isKey : Key key) (item : Item key text line) (at_i : table[i]? = some entry)
    (named : entry.param_name = key) (type_n : entry.param_type = 'n')
    (ptr : entry.param_ptr.isSome) :
    storedAt line table i = some (.number v) ↔ v.toNat < 2 ^ 31 := by
  obtain ⟨nonempty, plain⟩ := numeral.plain
  have read := configValue_item isKey nonempty (fun mem => (plain '=' mem).2 rfl)
    (trimmed_of_plain fun c mem => (plain c mem).1) item
  have stored : (paramValue key text).stored entry.param_type =
      some (.number (BitVec.ofNat 32 (min v.toNat (2 ^ 31 - 1)))) := by
    rw [LocParamV.stored, type_n, if_neg (by decide), if_pos rfl, paramValue_numeral key numeral]
  rw [storedAt_of_named read at_i (named.trans (paramValue_operands key text).1.symm) ptr stored]
  rw [Option.some_inj, Storage.number.injEq, ← BitVec.toNat_inj, BitVec.toNat_ofNat]
  omega

/-- A table with one entry, for a number or a string. -/
def oneEntry (param_type : Char) : List LocParamS :=
  [⟨"KEY".toList, some .previous, none, param_type⟩]

theorem key_of_oneEntry : Key "KEY".toList where
  nonempty := by simp
  free := by simp
  trimmed := ⟨by simp [isspace], by simp [isspace]⟩

theorem small_number_is_stored :
    storedAt " KEY = 0x1F\n".toList (oneEntry 'n') 0 = some (.number 0x1F) ↔
      (0x1F : BitVec 32).toNat < 2 ^ 31 :=
  number_is_stored_iff 0x1F
    (.inl ⟨'x', "1F".toList, rfl, rfl, by simp, by simp [digit], by decide⟩) key_of_oneEntry
    ⟨[' '], [' '], [' '], ['\n'], by simp [isspace], rfl⟩ rfl rfl rfl rfl

/-- The highest bit of a mask: all other bits are stored in its place. -/
theorem high_bit_is_not_stored :
    ¬∀ (v : BitVec 32) (text line : List Char), Numeral v.toNat text →
      Item "KEY".toList text line → storedAt line (oneEntry 'n') 0 = some (.number v) := by
  intro all
  have stored := all 0x80000000 "0x80000000".toList "KEY=0x80000000".toList
    (.inl ⟨'x', "80000000".toList, rfl, rfl, by simp, by simp [digit], by decide⟩)
    ⟨[], [], [], [], by simp, rfl⟩
  have saturated : storedAt "KEY=0x80000000".toList (oneEntry 'n') 0 =
      some (.number 0x7FFFFFFF) := by decide +kernel
  exact absurd (saturated.symm.trans stored) (by decide)

/-- A string comes back exactly if the delimiter does not occur in it. -/
theorem string_is_stored_iff (isKey : Key key) (nonempty : value ≠ [])
    (short : value.length ≤ LOC_MAX_PARAM_STRING) (trimmed : Trimmed value)
    (notNull : value ≠ "NULL".toList) (item : Item key value line)
    (at_i : table[i]? = some entry) (named : entry.param_name = key)
    (type_s : entry.param_type = 's') (ptr : entry.param_ptr = some .previous) :
    storedAt line table i = some (.string value) ↔ '=' ∉ value := by
  constructor
  · intro stored delimiter
    cases read : configValue line with
    | none => simp [storedAt, locFillConfItem, read, at_i, ptr] at stored
    | some config_value =>
        rw [storedAt_eq read at_i] at stored
        cases locSetConfigEntry_cases entry config_value with
        | inl set =>
            obtain ⟨-, -, content, isStored, eq⟩ := set
            rw [eq] at stored
            obtain rfl : content = .string value := Option.some.inj stored
            rw [LocParamV.stored, type_s, if_pos rfl, Option.mem_some_iff] at isStored
            obtain eq := Storage.string.inj isStored
            split at eq
            · exact nonempty eq.symm
            · exact not_mem_of_configValue read (List.mem_of_mem_take (eq ▸ delimiter))
        | inr left => simp [left.2, ptr] at stored
  · intro free
    have read := configValue_item isKey nonempty free trimmed item
    have operands := paramValue_operands key value
    refine storedAt_of_named read at_i (named.trans operands.1.symm) (by simp [ptr]) ?_
    rw [LocParamV.stored, type_s, if_pos rfl, operands.2, if_neg notNull,
      List.take_of_length_le short]

theorem url_is_stored :
    storedAt "KEY= http://host/path\n".toList (oneEntry 's') 0 =
      some (.string "http://host/path".toList) ↔ '=' ∉ "http://host/path".toList :=
  string_is_stored_iff key_of_oneEntry (by simp) (by decide)
    ⟨by simp [isspace], by simp [isspace]⟩ (by simp)
    ⟨[], [], [' '], ['\n'], by simp [isspace], rfl⟩ rfl rfl rfl rfl

/-- The query of a URL is cut off. -/
theorem query_is_not_stored :
    ¬∀ value line : List Char, value ≠ [] → value.length ≤ LOC_MAX_PARAM_STRING → Trimmed value →
      value ≠ "NULL".toList → Item "KEY".toList value line →
        storedAt line (oneEntry 's') 0 = some (.string value) := by
  intro all
  have stored := all "http://host/path?id=1".toList "KEY=http://host/path?id=1".toList (by simp)
    (by decide) ⟨by simp [isspace], by simp [isspace]⟩ (by simp) ⟨[], [], [], [], by simp, rfl⟩
  have cut : storedAt "KEY=http://host/path?id=1".toList (oneEntry 's') 0 =
      some (.string "http://host/path?id".toList) := by decide +kernel
  exact absurd (cut.symm.trans stored) (by decide)

end Storing

end Msm8974.LocCfg
