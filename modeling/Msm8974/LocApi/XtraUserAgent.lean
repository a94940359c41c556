import Msm8974.LocApi.ChipsetSerial
import Msm8974.LocApi.UserAgent

/-!
LocSetXtraUserAgent of LocEngAdapter.cpp, which leaves a description of the device for the XTRA
client. What the file system answers is part of the folder; a call on a folder that cannot be had
leaves the file as it is.
-/

namespace Msm8974.UserAgent
open DelimitedText PercentEncoding LocCfg Loops

def PROPERTY_VALUE_MAX : Nat := 92
def CHIPSET_SERIAL_NUMBER_MAX_LEN : BitVec 32 := 16
def USER_AGENT_MAX_LEN : Nat := 512
def defVal : List Char := "-".toList

/-- An array that property_get() has filled. -/
structure PropertyValue where
  value : List Char
  held : value.length = PROPERTY_VALUE_MAX
  terminated : '\x00' ∈ value

structure Properties where
  release : PropertyValue
  manufacture : PropertyValue
  model : PropertyValue
  board : PropertyValue
  brand : PropertyValue

/-- What a conversion of a format prints. -/
inductive Argument
  | string (s : List Char)
  | unsigned (n : BitVec 32)

def printf : List Char → List Argument → List Char
  | '%' :: 's' :: format, .string s :: arguments => cString s ++ printf format arguments
  | '%' :: 'u' :: format, .unsigned n :: arguments =>
      Nat.toDigits 10 n.toNat ++ printf format arguments
  | c :: format, arguments => c :: printf format arguments
  | [], _ => []

def snprintf (str : List Char) (size : Nat) (format : List Char) (arguments : List Argument) :
    Option (List Char) :=
  copyTo str ((printf format arguments).take (size - 1) ++ ['\x00'])

def hash (c : Char) : Char := if c = ' ' then '#' else c

/-- The loop over userAgent. -/
def replaceSpaces : List Char → List Char
  | [] => []
  | c :: userAgent => if c = '\x00' then c :: userAgent else hash c :: replaceSpaces userAgent

inductive Stat
  | found
  | missing
  | invalid
  deriving DecidableEq

/-- The folder of useragent.txt; `space` is how much of a text fwrite() gets into the file. -/
structure XtraFolder where
  stat : Stat
  mkdir : Bool
  fopen : Bool
  space : Nat
  useragent : Option (List Char)

def saveUserAgentString (folder : XtraFolder) (data : List Char) : XtraFolder :=
  if data.length < 1 then folder
  else
    match folder.stat, folder.mkdir with
    | .invalid, _ | .missing, false => folder
    | .found, _ | .missing, true =>
        let folder := { folder with stat := .found }
        if folder.fopen then { folder with useragent := some (data.take folder.space) } else folder

/-- proc(), where `chipsetsn` and `userAgent` are the arrays as they come. -/
def proc (fuel : Nat) (props : Properties) (izatDevId : BitVec 32) (serial : Option (List Char))
    (chipsetsn userAgent : List Char) (folder : XtraFolder) : Option XtraFolder := do
  let chipsetsn ← getChipsetSerialNo fuel serial chipsetsn CHIPSET_SERIAL_NUMBER_MAX_LEN defVal
  let release := encodeInPlace props.release.value PROPERTY_VALUE_MAX
  let manufacture := encodeInPlace props.manufacture.value PROPERTY_VALUE_MAX
  let model := encodeInPlace props.model.value PROPERTY_VALUE_MAX
  let board := encodeInPlace props.board.value PROPERTY_VALUE_MAX
  let brand := encodeInPlace props.brand.value PROPERTY_VALUE_MAX
  let userAgent ← snprintf userAgent USER_AGENT_MAX_LEN
    "A/%s/%s/%s/%s/-/QCX3/s%u/-/%s/-/%s/-/-/-".toList
    [.string release, .string manufacture, .string model, .string board, .unsigned izatDevId,
      .string chipsetsn, .string brand]
  let userAgent := replaceSpaces userAgent
  let len ← strlen userAgent
  some (saveUserAgentString folder (userAgent.take len.toNat))

/-- What snprintf has to print. -/
def printed (props : Properties) (izatDevId : BitVec 32) (chipsetsn : List Char) : List Char :=
  printf "A/%s/%s/%s/%s/-/QCX3/s%u/-/%s/-/%s/-/-/-".toList
    [.string (encodeInPlace props.release.value PROPERTY_VALUE_MAX),
      .string (encodeInPlace props.manufacture.value PROPERTY_VALUE_MAX),
      .string (encodeInPlace props.model.value PROPERTY_VALUE_MAX),
      .string (encodeInPlace props.board.value PROPERTY_VALUE_MAX), .unsigned izatDevId,
      .string chipsetsn, .string (encodeInPlace props.brand.value PROPERTY_VALUE_MAX)]

/-- What a reader of the file learns. -/
structure Device where
  release : List Char
  manufacture : List Char
  model : List Char
  board : List Char
  izatDevId : Nat
  chipsetsn : List Char
  brand : List Char
  deriving DecidableEq

/-- The text in its fifteen fields. -/
def Device.read (text : List Char) : Option Device :=
  match text.splitOn '/' with
  | [_, release, manufacture, model, board, _, _, _ :: izatDevId, _, chipsetsn, _, brand, _, _,
      _] =>
      some
        { release := decode release
          manufacture := decode manufacture
          model := decode model
          board := decode board
          izatDevId := Nat.ofDigitChars 10 izatDevId 0
          chipsetsn := chipsetsn
          brand := decode brand }
  | _ => none

/-- The value with a # for each space, or the part of it whose code the array can hold. -/
def PropertyValue.Tells (v : PropertyValue) (field : List Char) : Prop :=
  field <+: (cString v.value).map hash ∧
    (((cString v.value).flatMap encodeChar).length < PROPERTY_VALUE_MAX →
      field = (cString v.value).map hash)

/-- The serial number as the file or the default gives it. -/
def serialNumber (serial : Option (List Char)) : List Char :=
  (source serial CHIPSET_SERIAL_NUMBER_MAX_LEN defVal).rdropWhile isspace

structure Device.Describes (d : Device) (props : Properties) (izatDevId : BitVec 32)
    (serial : Option (List Char)) : Prop where
  release : props.release.Tells d.release
  manufacture : props.manufacture.Tells d.manufacture
  model : props.model.Tells d.model
  board : props.board.Tells d.board
  izatDevId : d.izatDevId = izatDevId.toNat
  chipsetsn : d.chipsetsn = (serialNumber serial).map hash
  brand : props.brand.Tells d.brand

/-- The folder is there or can be made, and the file can take a whole text. -/
structure XtraFolder.Writable (folder : XtraFolder) : Prop where
  had : folder.stat = .found ∨ folder.stat = .missing ∧ folder.mkdir = true
  opens : folder.fopen = true
  room : USER_AGENT_MAX_LEN ≤ folder.space

section Fields
variable {v : PropertyValue} {c : Char}

theorem encodeChar_hash (c : Char) : (encodeChar c).map hash = encodeChar (hash c) := by
  obtain ⟨code, -, same, mem⟩ | ⟨-, same, plain⟩ := code_cases c
  · rw [same]
    simp only [encodings, List.mem_cons, Prod.mk.injEq, List.not_mem_nil, or_false] at mem
    obtain ⟨rfl, rfl⟩ | ⟨rfl, rfl⟩ | ⟨rfl, rfl⟩ | ⟨rfl, rfl⟩ := mem
    all_goals rfl
  · rw [same, List.map_singleton]
    by_cases space : c = ' '
    · subst space
      rfl
    · rw [hash, if_neg space, same]

/-- What encodeInPlace leaves of a property is the code of a first part of it. -/
theorem PropertyValue.encoded (v : PropertyValue) :
    ∃ text, text <+: cString v.value ∧
      cString (encodeInPlace v.value PROPERTY_VALUE_MAX) = text.flatMap encodeChar ∧
      (text.flatMap encodeChar).length < PROPERTY_VALUE_MAX ∧
      (((cString v.value).flatMap encodeChar).length < PROPERTY_VALUE_MAX →
        text = cString v.value) := by
  obtain ⟨text, isPrefix, coded, short, whole⟩ :=
    @encodeLoop_eq PROPERTY_VALUE_MAX v.value [] (by decide)
  rw [List.nil_append] at coded
  refine ⟨text, isPrefix, ?_, coded ▸ short, fun fits => whole ?_⟩
  · have free : '\x00' ∉ text.flatMap encodeChar := by
      intro mem
      obtain ⟨c, inText, mem⟩ := List.mem_flatMap.mp mem
      have char : c ≠ '\x00' := by simpa using List.mem_takeWhile_imp (isPrefix.subset inText)
      exact mem_encodeChar char mem (by simp)
    rw [encodeInPlace_eq (v.held ▸ short), coded]
    exact takeWhile_ne_cons free _
  · rwa [List.length_nil, Nat.zero_add]

/-- What the text has of a property. -/
def PropertyValue.field (v : PropertyValue) : List Char :=
  (cString (encodeInPlace v.value PROPERTY_VALUE_MAX)).map hash

theorem PropertyValue.field_length (v : PropertyValue) :
    (cString (encodeInPlace v.value PROPERTY_VALUE_MAX)).length < PROPERTY_VALUE_MAX := by
  obtain ⟨text, -, same, short, -⟩ := v.encoded
  exact same ▸ short

theorem hash_eq_iff (d : Char) (space : d ≠ ' ') (number : d ≠ '#') : hash c = d ↔ c = d := by
  by_cases here : c = ' '
  · simp [hash, here, Ne.symm space, Ne.symm number]
  · rw [hash, if_neg here]

theorem mem_map_hash {d : Char} {text : List Char} (space : d ≠ ' ') (number : d ≠ '#') :
    d ∈ text.map hash ↔ d ∈ text := by
  simp [List.mem_map, hash_eq_iff d space number]

theorem PropertyValue.field_free (v : PropertyValue) : '/' ∉ v.field := by
  obtain ⟨text, isPrefix, same, -⟩ := v.encoded
  rw [field, mem_map_hash (by decide) (by decide), same]
  intro mem
  obtain ⟨c, inText, mem⟩ := List.mem_flatMap.mp mem
  have char : c ≠ '\x00' := by simpa using List.mem_takeWhile_imp (isPrefix.subset inText)
  exact mem_encodeChar char mem (by simp)

theorem PropertyValue.tells_field (v : PropertyValue) : v.Tells (decode v.field) := by
  obtain ⟨text, isPrefix, same, -, whole⟩ := v.encoded
  have decoded : decode v.field = text.map hash := by
    have moved : v.field = (text.map hash).flatMap encodeChar := by
      rw [field, same, List.map_flatMap, List.flatMap_map]
      exact congrArg text.flatMap (funext encodeChar_hash)
    rw [moved, decode_flatMap encodeChar_encodes]
  rw [decoded]
  exact ⟨isPrefix.map hash, fun fits => congrArg (List.map hash) (whole fits)⟩

end Fields

section Number
variable {fuel : Nat} {serial : Option (List Char)} {chipsetsn after : List Char}

/-- The call returns unless the source of the number is white space only. -/
theorem serial_returns_iff (room : chipsetsn.length = CHIPSET_SERIAL_NUMBER_MAX_LEN.toNat) :
    (∃ fuel after, getChipsetSerialNo fuel serial chipsetsn CHIPSET_SERIAL_NUMBER_MAX_LEN defVal =
        some after) ↔
      ∃ c ∈ source serial CHIPSET_SERIAL_NUMBER_MAX_LEN defVal, isspace c = false := by
  cases serial with
  | none =>
      obtain ⟨tail, copied, -⟩ := strlcpy_eq defVal (by decide) room
      constructor
      · intro _
        exact ⟨'-', by decide, by decide⟩
      · intro _
        exact ⟨0, _, copied⟩
  | some content =>
      constructor
      · rintro ⟨fuel, after, left⟩
        by_contra blank
        refine not_returns_of_blank (by decide) room (by decide) ?_ fuel after left
        simpa using blank
      · intro nonblank
        obtain ⟨fuel, after, left, -⟩ :=
          returns_of_nonblank (by decide) room (by decide) nonblank
        exact ⟨fuel, after, left⟩

/-- Whatever the fuel, the call leaves the serial number. -/
theorem serial_left (room : chipsetsn.length = CHIPSET_SERIAL_NUMBER_MAX_LEN.toNat)
    (left : getChipsetSerialNo fuel serial chipsetsn CHIPSET_SERIAL_NUMBER_MAX_LEN defVal =
      some after) : cString after = serialNumber serial := by
  have nonblank := (serial_returns_iff room).mp ⟨fuel, after, left⟩
  cases serial with
  | none =>
      obtain ⟨tail, copied, -⟩ := strlcpy_eq defVal (by decide) room
      obtain rfl := Option.some.inj (copied.symm.trans left)
      exact takeWhile_ne_cons (by decide) tail
  | some content =>
      obtain ⟨fuel', after', left', -, -, string⟩ :=
        returns_of_nonblank (by decide) room (by decide) nonblank
      have plain : '\x00' ∉ defVal := by decide
      obtain ⟨buf', -, terminated, -, call⟩ := buffer_opened (by decide) room plain content
      obtain ⟨tail, len, measured, -⟩ := strlen_midway terminated
      simp only [call, measured, Option.bind_some] at left left'
      rw [Ends.unique ⟨fuel, left⟩ ⟨fuel', left'⟩]
      exact string

theorem serialNumber_length (serial : Option (List Char)) :
    (serialNumber serial).length < CHIPSET_SERIAL_NUMBER_MAX_LEN.toNat := by
  have short : (source serial CHIPSET_SERIAL_NUMBER_MAX_LEN defVal).length <
      CHIPSET_SERIAL_NUMBER_MAX_LEN.toNat := by
    cases serial with
    | none => decide
    | some content =>
        rw [source]
        split
        · decide
        · refine Nat.lt_of_le_of_lt (List.takeWhile_sublist _).length_le ?_
          rw [List.length_take]
          exact Nat.lt_of_le_of_lt (Nat.min_le_left _ _) (by decide)
  exact Nat.lt_of_le_of_lt (List.rdropWhile_prefix _ _).length_le short

end Number

section Text
variable {props : Properties} {izatDevId : BitVec 32} {number : List Char}

/-- The fields before the last one, with the spaces in them. -/
def leading (props : Properties) (izatDevId : BitVec 32) (number : List Char) : List (List Char) :=
  let string (v : PropertyValue) := cString (encodeInPlace v.value PROPERTY_VALUE_MAX)
  [['A'], string props.release, string props.manufacture, string props.model, string props.board,
    ['-'], "QCX3".toList, 's' :: Nat.toDigits 10 izatDevId.toNat, ['-'], number, ['-'],
    string props.brand, ['-'], ['-']]

theorem printed_eq (chipsetsn : List Char) : printed props izatDevId chipsetsn =
    terminated '/' (leading props izatDevId (cString chipsetsn)) ++ ['-'] := by
  simp [printed, printf, terminated, leading]

theorem text_length (short : number.length < CHIPSET_SERIAL_NUMBER_MAX_LEN.toNat) :
    (terminated '/' (leading props izatDevId number) ++ ['-']).length < USER_AGENT_MAX_LEN := by
  have digits : (Nat.toDigits 10 izatDevId.toNat).length ≤ 10 :=
    (Nat.length_toDigits_le_iff (by decide) (by decide)).mpr (by omega)
  have release := props.release.field_length
  have manufacture := props.manufacture.field_length
  have model := props.model.field_length
  have board := props.board.field_length
  have brand := props.brand.field_length
  have max : CHIPSET_SERIAL_NUMBER_MAX_LEN.toNat = 16 := rfl
  have name : "QCX3".toList.length = 4 := rfl
  simp only [terminated, leading, List.flatMap_cons, List.flatMap_nil, List.length_append,
    List.length_cons, List.length_nil, PROPERTY_VALUE_MAX, USER_AGENT_MAX_LEN, name, max] at *
  omega

theorem text_plain (plain : '\x00' ∉ number) :
    '\x00' ∉ terminated '/' (leading props izatDevId number) ++ ['-'] := by
  have string (text : List Char) : '\x00' ∉ cString text := fun mem => by
    simpa using List.mem_takeWhile_imp mem
  have digits : '\x00' ∉ Nat.toDigits 10 izatDevId.toNat := fun mem =>
    absurd (Nat.isDigit_of_mem_toDigits (by decide) (by decide) mem) (by decide)
  simp [terminated, leading, string, digits, plain]

theorem snprintf_eq {userAgent format text : List Char} {arguments : List Argument}
    (room : userAgent.length = USER_AGENT_MAX_LEN) (prints : printf format arguments = text)
    (short : text.length < USER_AGENT_MAX_LEN) :
    ∃ tail, snprintf userAgent USER_AGENT_MAX_LEN format arguments =
      some (text ++ '\x00' :: tail) := by
  rw [snprintf, prints, List.take_of_length_le (Nat.le_sub_one_of_lt short), copyTo_eq]
  · exact ⟨_, by rw [List.append_assoc, List.singleton_append]⟩
  · rw [List.length_append, List.length_singleton, room]
    exact short

theorem replaceSpaces_append {text : List Char} (plain : '\x00' ∉ text) (tail : List Char) :
    replaceSpaces (text ++ '\x00' :: tail) = text.map hash ++ '\x00' :: tail := by
  induction text with
  | nil => simp [replaceSpaces]
  | cons c text ih =>
      obtain ⟨char, plain⟩ := not_or.mp (mt List.mem_cons.mpr plain)
      rw [List.cons_append, replaceSpaces, if_neg (Ne.symm char), ih plain]
      rfl

/-- The string in the array is what saveUserAgentString gets. -/
theorem take_strlen {text : List Char} (plain : '\x00' ∉ text) (short : text.length < 2 ^ 32)
    (tail : List Char) :
    ∃ len, strlen (text ++ '\x00' :: tail) = some len ∧
      (text ++ '\x00' :: tail).take len.toNat = text := by
  have string : cString (text ++ '\x00' :: tail) = text := takeWhile_ne_cons plain tail
  refine ⟨_, if_pos (by simp), ?_⟩
  rw [string, BitVec.toNat_ofNat, Nat.mod_eq_of_lt short, List.take_left]

end Text

section Reading
variable {props : Properties} {izatDevId : BitVec 32} {serial : Option (List Char)}
  {chipsetsn userAgent after : List Char} {fuel : Nat} {folder : XtraFolder} {d : Device}

/-- The fields as they are written. -/
theorem map_text (number : List Char) :
    (terminated '/' (leading props izatDevId number) ++ ['-']).map hash =
      terminated '/'
        [['A'], props.release.field, props.manufacture.field, props.model.field, props.board.field,
          ['-'], "QCX3".toList, 's' :: (Nat.toDigits 10 izatDevId.toNat).map hash, ['-'],
          number.map hash, ['-'], props.brand.field, ['-'], ['-']] ++ ['-'] := by
  simp [terminated, leading, PropertyValue.field, hash]

theorem map_digits (n : Nat) : (Nat.toDigits 10 n).map hash = Nat.toDigits 10 n := by
  refine (List.map_congr_left fun c mem => if_neg ?_).trans (List.map_id _)
  rintro rfl
  exact absurd (Nat.isDigit_of_mem_toDigits (by decide) (by decide) mem) (by decide)

theorem saveUserAgentString_writable (writable : folder.Writable) {data : List Char}
    (nonempty : data ≠ []) (short : data.length < USER_AGENT_MAX_LEN) :
    (saveUserAgentString folder data).useragent = some data := by
  have some_data : ¬ data.length < 1 := by
    have positive := List.length_pos_of_ne_nil nonempty
    omega
  have room : data.take folder.space = data :=
    List.take_of_length_le (Nat.le_of_lt (Nat.lt_of_lt_of_le short writable.room))
  rw [saveUserAgentString, if_neg some_data]
  obtain found | ⟨missing, made⟩ := writable.had
  · simp [found, writable.opens, room]
  · simp [missing, made, writable.opens, room]

/-- The file gets the text whole. -/
theorem proc_eq (room : userAgent.length = USER_AGENT_MAX_LEN) (writable : folder.Writable)
    (chipset : chipsetsn.length = CHIPSET_SERIAL_NUMBER_MAX_LEN.toNat)
    (left : getChipsetSerialNo fuel serial chipsetsn CHIPSET_SERIAL_NUMBER_MAX_LEN defVal =
      some after) :
    ∃ folder', proc fuel props izatDevId serial chipsetsn userAgent folder = some folder' ∧
      folder'.useragent = some
        ((terminated '/' (leading props izatDevId (serialNumber serial)) ++ ['-']).map hash) := by
  have string := serial_left chipset left
  have short : (terminated '/' (leading props izatDevId (serialNumber serial)) ++ ['-']).length <
      USER_AGENT_MAX_LEN := text_length (serialNumber_length serial)
  have plain : '\x00' ∉ terminated '/' (leading props izatDevId (serialNumber serial)) ++ ['-'] :=
    text_plain fun mem => by
      rw [← string] at mem
      simpa using List.mem_takeWhile_imp mem
  obtain ⟨tail, formatted⟩ := snprintf_eq room (string ▸ printed_eq after) short
  have plain' := (mem_map_hash (by decide) (by decide)).not.mpr plain
  have short' := List.length_map hash ▸ short
  obtain ⟨len, measured, taken⟩ := take_strlen plain' (Nat.lt_trans short' (by decide)) tail
  refine ⟨_, ?_, saveUserAgentString_writable writable (by simp) short'⟩
  simp only [proc, left, formatted, replaceSpaces_append plain, measured, taken,
    Option.bind_eq_bind, Option.bind_some]

theorem read_written {number : List Char} (free : '/' ∉ number) :
    Device.read ((terminated '/' (leading props izatDevId number) ++ ['-']).map hash) =
      some
        { release := decode props.release.field
          manufacture := decode props.manufacture.field
          model := decode props.model.field
          board := decode props.board.field
          izatDevId := izatDevId.toNat
          chipsetsn := number.map hash
          brand := decode props.brand.field } := by
  have digits : '/' ∉ Nat.toDigits 10 izatDevId.toNat := fun mem =>
    absurd (Nat.isDigit_of_mem_toDigits (by decide) (by decide) mem) (by decide)
  have free' : '/' ∉ number.map hash := (mem_map_hash (by decide) (by decide)).not.mpr free
  rw [map_text, map_digits, Device.read, splitOn_terminated]
  · simp only [List.cons_append, List.nil_append, Nat.ofDigitChars_ten_toDigits]
  · have fields (v : PropertyValue) : '/' ∉ v.field := v.field_free
    simp only [List.forall_mem_cons]
    refine ⟨by decide, fields _, fields _, fields _, fields _, by decide, by decide, ?_, by decide,
      free', by decide, fields _, by decide, by decide, by simp⟩
    exact List.not_mem_cons_of_ne_of_not_mem (by decide) digits
  · decide

/-- A separator in the serial number makes a field more. -/
theorem read_parted {number : List Char} (parted : '/' ∈ number) :
    Device.read ((terminated '/' (leading props izatDevId number) ++ ['-']).map hash) = none := by
  have here : 0 < (number.map hash).count '/' :=
    List.count_pos_iff.mpr ((mem_map_hash (by decide) (by decide)).mpr parted)
  have many : 15 < (((terminated '/' (leading props izatDevId number) ++ ['-']).map hash).splitOn
      '/').length := by
    rw [length_splitOn, map_text]
    simp only [terminated, List.flatMap_cons, List.flatMap_nil, List.count_append,
      List.count_singleton_self]
    omega
  rw [Device.read]
  split
  · next fields =>
      rw [fields] at many
      simp only [List.length_cons, List.length_nil, Nat.lt_irrefl] at many
  · rfl

/-- The array can hold what snprintf has to print, whatever the serial number. -/
theorem printed_length (chipset : chipsetsn.length = CHIPSET_SERIAL_NUMBER_MAX_LEN.toNat)
    (left : getChipsetSerialNo fuel serial chipsetsn CHIPSET_SERIAL_NUMBER_MAX_LEN defVal =
      some after) : (printed props izatDevId after).length < USER_AGENT_MAX_LEN := by
  rw [printed_eq, serial_left chipset left]
  exact text_length (serialNumber_length serial)

/-- The arrays have the sizes that proc() gives them. -/
theorem useragent_file_describes_device_iff (props : Properties) (izatDevId : BitVec 32)
    (serial : Option (List Char))
    (chipset : chipsetsn.length = CHIPSET_SERIAL_NUMBER_MAX_LEN.toNat)
    (room : userAgent.length = USER_AGENT_MAX_LEN) (writable : folder.Writable) :
    (∀ fuel after, getChipsetSerialNo fuel serial chipsetsn CHIPSET_SERIAL_NUMBER_MAX_LEN defVal =
        some after → (printed props izatDevId after).length < USER_AGENT_MAX_LEN) ∧
      ((∃ fuel folder' text d, proc fuel props izatDevId serial chipsetsn userAgent folder =
          some folder' ∧ folder'.useragent = some text ∧ Device.read text = some d ∧
          d.Describes props izatDevId serial) ↔
        (∃ c ∈ source serial CHIPSET_SERIAL_NUMBER_MAX_LEN defVal, isspace c = false) ∧
          '/' ∉ serialNumber serial) := by
  refine ⟨fun fuel after left => printed_length chipset left, ?_⟩
  constructor
  · rintro ⟨fuel, folder', text, d, proceeds, written, reads, -⟩
    have returns : ∃ after, getChipsetSerialNo fuel serial chipsetsn
        CHIPSET_SERIAL_NUMBER_MAX_LEN defVal = some after := by
      rw [proc] at proceeds
      exact (Option.bind_eq_some_iff.mp proceeds).imp fun _ => And.left
    obtain ⟨after, left⟩ := returns
    refine ⟨(serial_returns_iff chipset).mp ⟨fuel, after, left⟩, fun parted => ?_⟩
    obtain ⟨same, proceeds', written'⟩ := proc_eq room writable chipset left
    obtain rfl := Option.some.inj (proceeds'.symm.trans proceeds)
    obtain rfl := Option.some.inj (written'.symm.trans written)
    cases (read_parted parted).symm.trans reads
  · rintro ⟨nonblank, free⟩
    obtain ⟨fuel, after, left⟩ := (serial_returns_iff chipset).mpr nonblank
    obtain ⟨folder', proceeds, written⟩ := proc_eq room writable chipset left
    refine ⟨fuel, folder', _, _, proceeds, written, read_written free, ?_⟩
    exact
      { release := props.release.tells_field
        manufacture := props.manufacture.tells_field
        model := props.model.tells_field
        board := props.board.tells_field
        izatDevId := rfl
        chipsetsn := rfl
        brand := props.brand.tells_field }

/-- A property with a space and a separator in it. -/
def sampleValue : PropertyValue where
  value := "a b/c".toList ++ List.replicate 87 '\x00'
  held := rfl
  terminated := by simp

def sampleProperties : Properties :=
  ⟨sampleValue, sampleValue, sampleValue, sampleValue, sampleValue⟩

theorem useragent_file_describes_sample :
    ∃ fuel folder' text d,
      proc fuel sampleProperties 4294967295 (some "17\n".toList) (List.replicate 16 'x')
          (List.replicate 512 'x') ⟨.missing, true, true, 512, none⟩ = some folder' ∧
        folder'.useragent = some text ∧ Device.read text = some d ∧
        d.Describes sampleProperties 4294967295 (some "17\n".toList) :=
  (useragent_file_describes_device_iff sampleProperties 4294967295 (some "17\n".toList)
    List.length_replicate List.length_replicate ⟨.inr ⟨rfl, rfl⟩, rfl, Nat.le_refl _⟩).2.mpr
    ⟨⟨'1', by decide, by decide⟩, by decide⟩

end Reading
end Msm8974.UserAgent
