import Mathlib.Algebra.GroupWithZero.Nat
import Mathlib.Algebra.Order.Ring.Int
import Mathlib.Data.List.Nodup

/-!
loc_cfg.cpp and loc_util_trim_space. A string is the list of its characters up to the terminator.
The storage behind an entry of a parameter table is part of the entry and its own; no entry
shares it with another. A double is left as what atof() makes of a text, and a long has 32 bits.
-/

namespace Msm8974.LocCfg

def LOC_MAX_PARAM_NAME : Nat := 80
def LOC_MAX_PARAM_STRING : Nat := 80
def LOC_MAX_PARAM_LINE : Nat := LOC_MAX_PARAM_NAME + LOC_MAX_PARAM_STRING

/-- isspace in the C locale. -/
def isspace (c : Char) : Bool := c ∈ [' ', '\t', '\n', '\x0b', '\x0c', '\r']

/-- The scan of loc_util_trim_space: what was written to the front of the string, and how much of
it there was at the last character that is no space. -/
def trimScan : List Char → List Char × Option Nat → List Char × Option Nat
  | [], written => written
  | c :: org_string, (written, last_nonspace) =>
      if isspace c then
        trimScan org_string (if written = [] then [] else written ++ [c], last_nonspace)
      else trimScan org_string (written ++ [c], some (written.length + 1))

def locUtilTrimSpace (org_string : List Char) : List Char :=
  match trimScan org_string ([], none) with
  | (_, none) => org_string
  | (written, some last_nonspace) => written.take last_nonspace

/-- strtok_r with a single delimiter: the token and what is left for the next call. -/
def strtok (delim : Char) (str : List Char) : Option (List Char × List Char) :=
  match str.dropWhile (· = delim) with
  | [] => none
  | str => some (str.takeWhile (· ≠ delim), (str.dropWhile (· ≠ delim)).drop 1)

def digit (c : Char) : Nat :=
  if '0' ≤ c ∧ c ≤ '9' then c.toNat - '0'.toNat
  else if 'a' ≤ c.toLower ∧ c.toLower ≤ 'z' then c.toLower.toNat - 'a'.toNat + 10
  else 36

/-- strtol, which stays within the range of a long. -/
def strtol (nptr : List Char) (base : Nat) : BitVec 32 :=
  let nptr := nptr.dropWhile isspace
  let (negative, nptr) :=
    match nptr with
    | '-' :: nptr => (true, nptr)
    | '+' :: nptr => (false, nptr)
    | nptr => (false, nptr)
  let nptr :=
    match nptr with
    | '0' :: x :: rest => if base = 16 ∧ x.toLower = 'x' then rest else nptr
    | nptr => nptr
  let magnitude := (nptr.takeWhile (digit · < base)).foldl (fun n c => n * base + digit c) 0
  BitVec.ofInt 32 (if negative then max (-magnitude) (-2 ^ 31) else min magnitude (2 ^ 31 - 1))

def atoi (nptr : List Char) : BitVec 32 := strtol nptr 10

inductive Double
  | zero
  | atof (nptr : List Char)
  deriving DecidableEq

/-- What the storage of an entry holds; `previous` is what it held before. -/
inductive Storage
  | previous
  | string (value : List Char)
  | number (value : BitVec 32)
  | double (value : Double)
  deriving DecidableEq

/-- loc_param_s_type with the storage and the flag that it points to; NULL is `none`. -/
structure LocParamS where
  param_name : List Char
  param_ptr : Option Storage
  param_set : Option (BitVec 8)
  param_type : Char
  deriving DecidableEq

structure LocParamV where
  param_name : List Char
  param_str_value : List Char
  param_int_value : BitVec 32
  param_double_value : Double
  deriving DecidableEq

/-- The value that the switch of loc_set_config_entry stores for a type, if there is such a type. -/
def LocParamV.stored (config_value : LocParamV) (param_type : Char) : Option Storage :=
  if param_type = 's' then
    some (.string
      (if config_value.param_str_value = "NULL".toList then []
      else config_value.param_str_value.take LOC_MAX_PARAM_STRING))
  else if param_type = 'n' then some (.number config_value.param_int_value)
  else if param_type = 'f' then some (.double config_value.param_double_value)
  else none

def locSetConfigEntry (config_entry : LocParamS) (config_value : LocParamV) : Int × LocParamS :=
  if config_entry.param_name = config_value.param_name ∧ config_entry.param_ptr.isSome then
    match config_value.stored config_entry.param_type with
    | some value =>
        (0, { config_entry with
          param_ptr := some value, param_set := config_entry.param_set.map fun _ => 1 })
    | none => (-1, config_entry)
  else (-1, config_entry)

/-- The part of loc_fill_conf_item that reads the line. -/
def configValue (input_buf : List Char) : Option LocParamV := do
  let (param_name, lasts) ← strtok '=' input_buf
  -- skip lines that do not contain two operands
  let (param_str_value, _) ← strtok '=' lasts
  let param_name := locUtilTrimSpace param_name
  let param_str_value := locUtilTrimSpace param_str_value
  match param_str_value with
  | '0' :: x :: hex :: rest =>
      if x.toLower = 'x' then
        return ⟨param_name, param_str_value, strtol (hex :: rest) 16, .zero⟩
      else return ⟨param_name, param_str_value, atoi param_str_value, .atof param_str_value⟩
  | _ => return ⟨param_name, param_str_value, atoi param_str_value, .atof param_str_value⟩

def locFillConfItem (input_buf : List Char) (config_table : List LocParamS) :
    Nat × List LocParamS :=
  match configValue input_buf with
  | none => (0, config_table)
  | some config_value =>
      let entries := config_table.map (locSetConfigEntry · config_value)
      (entries.countP fun entry => entry.1 = 0, entries.map Prod.snd)

/-- What fgets() fills a buffer of this size with, call after call, when it has read `line`. -/
def fgets (size : Nat) : List Char → List Char → List (List Char)
  | line, [] => if line = [] then [] else [line]
  | line, c :: conf_fp =>
      if c = '\n' ∨ line.length + 2 = size then (line ++ [c]) :: fgets size [] conf_fp
      else fgets size (line ++ [c]) conf_fp

/-- The string in a buffer that fgets() has filled. -/
def cString (input_buf : List Char) : List Char := input_buf.takeWhile (· ≠ '\x00')

def readLoop : List (List Char) → BitVec 32 → List LocParamS → List LocParamS
  | [], _, config_table => config_table
  | input_buf :: rest, num_params, config_table =>
      if num_params = 0 then config_table
      else
        let (filled, config_table) := locFillConfItem (cString input_buf) config_table
        readLoop rest (num_params - BitVec.ofNat 32 filled) config_table

/-- The length of the table is that of the list. -/
def locReadConfR (conf_fp : List Char) (config_table : List LocParamS) : List LocParamS :=
  -- Clear all validity bits
  let config_table := config_table.map fun entry =>
    { entry with param_set := entry.param_set.map fun _ => 0 }
  readLoop (fgets LOC_MAX_PARAM_LINE [] conf_fp) (BitVec.ofNat 32 config_table.length) config_table

def locParamTable : List LocParamS :=
  [⟨"DEBUG_LEVEL".toList, some .previous, none, 'n'⟩,
    ⟨"TIMESTAMP".toList, some .previous, none, 'n'⟩]

/-- The caller's table and loc_param_table; `none` is a file that does not open. -/
def locReadConf (conf_file : Option (List Char)) (config_table : List LocParamS) :
    List LocParamS × List LocParamS :=
  match conf_file with
  | none => (config_table, locParamTable)
  | some conf_fp =>
      (if config_table = [] then config_table else locReadConfR conf_fp config_table,
        locReadConfR conf_fp locParamTable)

/-- A table as a caller passes it. -/
structure ConfigTable where
  entries : List LocParamS
  length_lt : entries.length < 2 ^ 32
  distinct : (entries.map LocParamS.param_name).Nodup
  untouched : ∀ entry ∈ entries, entry.param_ptr ∈ [none, some .previous]

end Msm8974.LocCfg
