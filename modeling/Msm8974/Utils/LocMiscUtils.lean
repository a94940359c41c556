import Msm8974.Library.Loops
import Msm8974.Utils.LocCfg

/-!
loc_misc_utils.cpp on memory. A string is an array of characters with a terminator in it, a
pointer into it is an index, and NULL is `none`.
-/

namespace Msm8974.MiscUtils
open Loops LocCfg

/-- The variables of loc_util_trim_space. -/
structure Trim where
  org_string : List Char
  scan_ptr : Nat
  write_ptr : Nat
  first_nonspace : Option Nat
  last_nonspace : Option Nat

namespace Trim

/-- while (*scan_ptr) -/
def round (s : Trim) : Option (Next Trim Trim) :=
  s.org_string[s.scan_ptr]?.bind fun c =>
    if c = '\x00' then some (.done s)
    else
      -- find the first non-space character
      let first_nonspace :=
        if ¬ isspace c ∧ s.first_nonspace = none then some s.scan_ptr else s.first_nonspace
      if first_nonspace ≠ none then do
        let org_string ← store s.org_string s.write_ptr c
        -- *scan_ptr is read once more, behind the write
        let c ← org_string[s.scan_ptr]?
        let write_ptr := s.write_ptr + 1
        let last_nonspace := if ¬ isspace c then some write_ptr else s.last_nonspace
        some (.again ⟨org_string, s.scan_ptr + 1, write_ptr, first_nonspace, last_nonspace⟩)
      else some (.again { s with scan_ptr := s.scan_ptr + 1 })

/-- Adds the terminator behind the last non-space character. -/
def terminate (s : Trim) : Option (List Char) :=
  match s.last_nonspace with
  | none => some s.org_string
  | some last_nonspace => store s.org_string last_nonspace '\x00'

end Trim

/-- What the string is afterwards. -/
def locUtilTrimSpace (fuel : Nat) : Option (List Char) → Option (Option (List Char))
  | none => some none
  | some org_string =>
      ((run Trim.round fuel ⟨org_string, 0, 0, none, none⟩).bind Trim.terminate).map some

/-- The variables of loc_util_split_string; split_strings_ptr is what was assigned to which of
its entries, in order. -/
structure Split where
  raw_string : List Char
  split_strings_ptr : List (Nat × Nat)
  raw_string_index : Nat
  num_split_strings : Nat

namespace Split

/-- The body of the loop over raw_string_index. -/
def round (raw_string_length max_num_substrings : Int) (delimiter : Char) (s : Split) :
    Option (Next Split Split) :=
  if s.raw_string_index < raw_string_length then
    s.raw_string[s.raw_string_index]?.bind fun c =>
      let end_string := c = '\x00'
      if c = delimiter ∨ end_string then
        (store s.raw_string s.raw_string_index '\x00').map fun raw_string =>
          let num_split_strings := s.num_split_strings + 1
          if (s.raw_string_index + 1 : Int) < raw_string_length ∧
              num_split_strings < max_num_substrings then
            let split_strings_ptr :=
              s.split_strings_ptr ++ [(num_split_strings, s.raw_string_index + 1)]
            if end_string then
              .done ⟨raw_string, split_strings_ptr, s.raw_string_index, num_split_strings⟩
            else .again ⟨raw_string, split_strings_ptr, s.raw_string_index + 1, num_split_strings⟩
          else .done ⟨raw_string, s.split_strings_ptr, s.raw_string_index, num_split_strings⟩
      else some (.again { s with raw_string_index := s.raw_string_index + 1 })
  else some (.done s)

end Split

/-- What a call of loc_util_split_string leaves. -/
structure SplitCall where
  raw_string : Option (List Char)
  split_strings_ptr : List (Nat × Nat)
  num_split_strings : Int

/-- strlen() + 1 as an int. -/
def rawStringLength (raw_string : List Char) : Int :=
  (BitVec.ofNat 32 ((cString raw_string).length + 1)).toInt

/-- `given` is whether split_strings_ptr is not NULL. -/
def locUtilSplitString (fuel : Nat) (raw_string : Option (List Char)) (given : Bool)
    (max_num_substrings : Int) (delimiter : Char) : Option SplitCall :=
  match raw_string, given with
  | some raw_string, true =>
      (run (Split.round (rawStringLength raw_string) max_num_substrings delimiter) fuel
        ⟨raw_string, [(0, 0)], 0, 0⟩).map fun s =>
          ⟨some s.raw_string, s.split_strings_ptr, s.num_split_strings⟩
  | raw_string, _ => some ⟨raw_string, [], -1⟩

example : locUtilTrimSpace 8 (some "  a b \x00?".toList) =
    some (some "a b\x00b \x00?".toList) := by decide

end Msm8974.MiscUtils
