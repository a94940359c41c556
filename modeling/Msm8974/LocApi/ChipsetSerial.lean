import Mathlib.Data.List.DropRight
import Msm8974.Library.DelimitedText
import Msm8974.Library.Loops
import Msm8974.Utils.LocCfg

/-!
getChipsetSerialNo of LocEngAdapter.cpp. A size_t has 32 bits, and an access outside the buffer
leaves the call without a result. A file that cannot be opened is `none`, and one that can is what
fread() gets out of it.
-/

namespace Msm8974.UserAgent
open Loops LocCfg DelimitedText

/-- Characters written to the front of an array. -/
def copyTo (dst src : List Char) : Option (List Char) :=
  if src.length ≤ dst.length then some (src ++ dst.drop src.length) else none

def strlcpy (dst src : List Char) (size : BitVec 32) : Option (List Char) :=
  if size = 0 then some dst else copyTo dst (src.take (size.toNat - 1) ++ ['\x00'])

def strlen (s : List Char) : Option (BitVec 32) :=
  if '\x00' ∈ s then some (BitVec.ofNat 32 (cString s).length) else none

/-- The variables of the loop that removes trailing spaces. -/
structure Serial where
  buf : List Char
  len : BitVec 32

/-- while (--len >= 0 && isspace(buf[len])) -/
def Serial.round (s : Serial) : Option (Next Serial (List Char)) :=
  let len := s.len - 1
  -- a size_t is never below 0
  if 0 ≤ len then do
    let c ← s.buf[len.toNat]?
    if isspace c then
      let buf ← store s.buf len.toNat '\x00'
      some (.again ⟨buf, len⟩)
    else some (.done s.buf)
  else some (.done s.buf)

def getChipsetSerialNo (fuel : Nat) (file : Option (List Char)) (buf : List Char)
    (buflen : BitVec 32) (default : List Char) : Option (List Char) :=
  match file with
  -- use default upon unreadable file
  | none => strlcpy buf default buflen
  | some content => do
      let read := content.take (buflen - 1).toNat
      let buf ← copyTo buf read
      let buf ←
        -- use default upon empty file
        if read.length = 0 then strlcpy buf default buflen
        else store buf read.length '\x00'
      let len ← strlen buf
      run Serial.round fuel ⟨buf, len⟩

/-- What the buffer is to hold before white space behind it is removed. -/
def source (file : Option (List Char)) (buflen : BitVec 32) (default : List Char) : List Char :=
  match file with
  | none => default.take (buflen.toNat - 1)
  | some content =>
      if content.take (buflen.toNat - 1) = [] then default.take (buflen.toNat - 1)
      else cString (content.take (buflen.toNat - 1))

/-- The call returns and leaves the serial number without white space behind it. -/
def SerialTrimmed (file : Option (List Char)) (buf : List Char) (buflen : BitVec 32)
    (default : List Char) : Prop :=
  ∃ fuel after, getChipsetSerialNo fuel file buf buflen default = some after ∧
    after.length = buf.length ∧ '\x00' ∈ after ∧
    cString after = (source file buflen default).rdropWhile isspace

namespace Serial
variable {text tail : List Char} {c : Char}

/-- Between two rounds: the string and its length. -/
def midway (text tail : List Char) : Serial :=
  ⟨text ++ '\x00' :: tail, BitVec.ofNat 32 text.length⟩

/-- The length wraps around, and there is no such character. -/
theorem round_empty (small : tail.length + 1 < 2 ^ 32) : round (midway [] tail) = none := by
  have index : (BitVec.ofNat 32 ([] : List Char).length - 1).toNat = 2 ^ 32 - 1 := by decide
  have outside : ([] ++ '\x00' :: tail)[2 ^ 32 - 1]? = none :=
    List.getElem?_eq_none (by simpa using Nat.le_sub_one_of_lt small)
  rw [round, midway]
  simp only [index, outside]
  exact if_pos (BitVec.le_def.mpr (Nat.zero_le _))

theorem round_last (text tail : List Char) (c : Char) (small : text.length + 1 < 2 ^ 32) :
    round (midway (text ++ [c]) tail) =
      if isspace c then some (.again (midway text ('\x00' :: tail)))
      else some (.done (text ++ [c] ++ '\x00' :: tail)) := by
  have length : BitVec.ofNat 32 (text ++ [c]).length - 1 = BitVec.ofNat 32 text.length := by
    rw [List.length_append, List.length_singleton, BitVec.ofNat_add]
    exact BitVec.add_sub_cancel _ _
  have index : (BitVec.ofNat 32 text.length).toNat = text.length := by
    rw [BitVec.toNat_ofNat, Nat.mod_eq_of_lt (by omega)]
  have buf : text ++ [c] ++ '\x00' :: tail = text ++ c :: '\x00' :: tail := by simp
  rw [round, midway, length, buf]
  simp only [index, getElem?_append_cons, store_append]
  rw [if_pos (BitVec.le_def.mpr (Nat.zero_le _))]
  rfl

/-- The loop removes the white space behind a string that has something before it. -/
theorem ends_midway (tail : List Char) (nonblank : ∃ c ∈ text, isspace c = false)
    (small : text.length < 2 ^ 32) :
    ∃ behind, Ends round (midway text tail) (text.rdropWhile isspace ++ '\x00' :: behind) ∧
      (text.rdropWhile isspace).length + behind.length = text.length + tail.length := by
  induction text using List.reverseRecOn generalizing tail with
  | nil => simp at nonblank
  | append_singleton text c ih =>
      rw [List.length_append, List.length_singleton] at small ⊢
      have round_eq := round_last text tail c small
      cases space : isspace c with
      | false =>
          rw [if_neg (by simp [space])] at round_eq
          rw [List.rdropWhile_concat_neg _ _ _ (by simp [space])]
          exact ⟨tail, ends_of_done round_eq, by simp⟩
      | true =>
          rw [if_pos space] at round_eq
          rw [List.rdropWhile_concat_pos _ _ _ space]
          have earlier : ∃ c ∈ text, isspace c = false := by simpa [space] using nonblank
          obtain ⟨behind, ends, length⟩ := ih ('\x00' :: tail) earlier (by omega)
          refine ⟨behind, (ends_again_iff round_eq).mpr ends, ?_⟩
          rw [length, List.length_cons]
          omega

/-- White space only is removed as well, and what lies before the string is read. -/
theorem not_ends_midway (blank : ∀ c ∈ text, isspace c)
    (small : text.length + tail.length + 1 < 2 ^ 32) (after : List Char) :
    ¬ Ends round (midway text tail) after := by
  induction text using List.reverseRecOn generalizing tail with
  | nil => exact not_ends_of_outside (round_empty (by simpa using small))
  | append_singleton text c ih =>
      rw [List.length_append, List.length_singleton] at small
      obtain ⟨blank, space⟩ := List.forall_mem_append.mp blank
      have round_eq := round_last text tail c (by omega)
      rw [if_pos (space c (List.mem_singleton_self c))] at round_eq
      rw [ends_again_iff round_eq]
      exact ih blank (by rw [List.length_cons]; omega)

end Serial

section Reading
variable {buf text content default : List Char} {buflen : BitVec 32}

theorem toNat_pos_of_toInt_pos (positive : 0 < buflen.toInt) : 0 < buflen.toNat := by
  rw [BitVec.toInt_eq_toNat_cond] at positive
  omega

theorem copyTo_eq {src : List Char} (room : src.length ≤ buf.length) :
    copyTo buf src = some (src ++ buf.drop src.length) := if_pos room

/-- A string and its terminator in an array with room for it. -/
theorem strlcpy_eq (text : List Char) (positive : 0 < buflen.toNat)
    (room : buf.length = buflen.toNat) :
    ∃ tail, strlcpy buf text buflen = some (text.take (buflen.toNat - 1) ++ '\x00' :: tail) ∧
      (text.take (buflen.toNat - 1)).length + tail.length + 1 = buf.length := by
  have nonzero : buflen ≠ 0 := by
    rintro rfl
    exact Nat.lt_irrefl 0 positive
  have fits : (text.take (buflen.toNat - 1) ++ ['\x00']).length ≤ buf.length := by
    simp only [List.length_append, List.length_singleton, List.length_take]
    omega
  rw [strlcpy, if_neg nonzero, copyTo_eq fits, List.append_assoc, List.singleton_append]
  refine ⟨_, rfl, ?_⟩
  simp only [List.length_append, List.length_singleton, List.length_drop] at fits ⊢
  omega

theorem cString_terminated (text tail : List Char) :
    cString (text ++ '\x00' :: tail) = cString text := by
  by_cases inside : '\x00' ∈ text
  · obtain ⟨first, rest, rfl, free⟩ := List.eq_append_cons_of_mem inside
    rw [List.append_assoc, List.cons_append, cString, cString, takeWhile_ne_cons free,
      takeWhile_ne_cons free]
  · rw [cString, cString, takeWhile_ne_cons inside, takeWhile_ne_self inside]

/-- The loop starts at the end of the string in the buffer. -/
theorem strlen_midway (terminated : '\x00' ∈ buf) :
    ∃ tail len, strlen buf = some len ∧ Serial.mk buf len = Serial.midway (cString buf) tail ∧
      (cString buf).length + tail.length + 1 = buf.length := by
  obtain ⟨text, tail, rfl, free⟩ := List.eq_append_cons_of_mem terminated
  refine ⟨tail, _, if_pos terminated, ?_, ?_⟩
  · rw [Serial.midway, cString, takeWhile_ne_cons free]
  · rw [cString, takeWhile_ne_cons free, List.length_append, List.length_cons, Nat.add_assoc]

/-- What was read, or the default string, with a terminator behind it. -/
theorem buffer_opened (positive : 0 < buflen.toInt) (room : buf.length = buflen.toNat)
    (plain : '\x00' ∉ default) (content : List Char) :
    ∃ buf', buf'.length = buf.length ∧ '\x00' ∈ buf' ∧
      cString buf' = source (some content) buflen default ∧
      ∀ fuel, getChipsetSerialNo fuel (some content) buf buflen default =
        (strlen buf').bind fun len => run Serial.round fuel ⟨buf', len⟩ := by
  have nonzero := toNat_pos_of_toInt_pos positive
  have count : (buflen - 1).toNat = buflen.toNat - 1 := by bv_omega
  have fits : (content.take (buflen.toNat - 1)).length ≤ buf.length := by
    rw [List.length_take]
    omega
  simp only [getChipsetSerialNo, source, count, copyTo_eq fits, Option.bind_eq_bind,
    Option.bind_some]
  by_cases empty : content.take (buflen.toNat - 1) = []
  · obtain ⟨tail, copied, length⟩ := strlcpy_eq default nonzero room
    refine ⟨default.take (buflen.toNat - 1) ++ '\x00' :: tail, ?_, by simp, ?_, ?_⟩
    · rw [List.length_append, List.length_cons, ← length, Nat.add_assoc]
    · have free : '\x00' ∉ default.take (buflen.toNat - 1) := fun mem =>
        plain (List.mem_of_mem_take mem)
      rw [if_pos empty, cString, takeWhile_ne_cons free]
    · intro fuel
      simp [empty, copied]
  · obtain ⟨c, rest, behind⟩ := List.exists_cons_of_length_pos
      (l := buf.drop (content.take (buflen.toNat - 1)).length) (by
        rw [List.length_drop, List.length_take]
        omega)
    have length := congrArg List.length behind
    rw [List.length_drop, List.length_cons] at length
    refine ⟨content.take (buflen.toNat - 1) ++ '\x00' :: rest, ?_, by simp, ?_, ?_⟩
    · rw [List.length_append, List.length_cons]
      omega
    · rw [if_neg empty, cString_terminated]
    · intro fuel
      rw [if_neg (mt List.length_eq_zero_iff.mp empty), behind, store_append, Option.bind_some]

/-- No call gets through the loop when there is white space only. -/
theorem not_returns_of_blank (positive : 0 < buflen.toInt) (room : buf.length = buflen.toNat)
    (plain : '\x00' ∉ default) (blank : ∀ c ∈ source (some content) buflen default, isspace c)
    (fuel : Nat) (after : List Char) :
    getChipsetSerialNo fuel (some content) buf buflen default ≠ some after := by
  obtain ⟨buf', length', terminated, string, call⟩ := buffer_opened positive room plain content
  obtain ⟨tail, len, measured, midway, length⟩ := strlen_midway terminated
  have small := buflen.isLt
  rw [call, measured, Option.bind_some, midway, string]
  rw [string] at length
  intro left
  exact Serial.not_ends_midway blank (by omega) after ⟨fuel, left⟩

theorem returns_of_nonblank (positive : 0 < buflen.toInt) (room : buf.length = buflen.toNat)
    (plain : '\x00' ∉ default)
    (nonblank : ∃ c ∈ source (some content) buflen default, isspace c = false) :
    SerialTrimmed (some content) buf buflen default := by
  obtain ⟨buf', length', terminated, string, call⟩ := buffer_opened positive room plain content
  obtain ⟨tail, len, measured, midway, length⟩ := strlen_midway terminated
  simp only [measured, Option.bind_some, midway, string] at call
  rw [string] at length
  have small := buflen.isLt
  obtain ⟨behind, ⟨fuel, ended⟩, kept⟩ := Serial.ends_midway tail nonblank (by omega)
  have free : '\x00' ∉ (source (some content) buflen default).rdropWhile isspace := by
    rw [← string]
    intro mem
    simpa using List.mem_takeWhile_imp ((List.rdropWhile_prefix _ _).subset mem)
  refine ⟨fuel, _, (call fuel).trans ended, ?_, by simp, takeWhile_ne_cons free behind⟩
  rw [List.length_append, List.length_cons]
  omega

theorem rdropWhile_eq_self_iff_getLast? :
    text.rdropWhile isspace = text ↔ ∀ c ∈ text.getLast?, isspace c = false := by
  rw [List.rdropWhile_eq_self_iff]
  constructor
  · intro trimmed c last
    obtain ⟨nonempty, rfl⟩ := List.mem_getLast?_eq_getLast last
    exact Bool.eq_false_of_not_eq_true (trimmed nonempty)
  · intro trimmed nonempty
    exact Bool.not_eq_true _ ▸ trimmed _ (List.getLast_mem_getLast? nonempty)

/-- The white space goes unless it is all there is, or the file was not opened. -/
def Trimmable (file : Option (List Char)) (buflen : BitVec 32) (default : List Char) : Prop :=
  match file with
  | none => ∀ c ∈ (default.take (buflen.toNat - 1)).getLast?, isspace c = false
  | some content => ∃ c ∈ source (some content) buflen default, isspace c = false

theorem serial_is_trimmed_iff (file : Option (List Char)) (positive : 0 < buflen.toInt)
    (room : buf.length = buflen.toNat) (plain : '\x00' ∉ default) :
    SerialTrimmed file buf buflen default ↔ Trimmable file buflen default := by
  have nonzero := toNat_pos_of_toInt_pos positive
  cases file with
  | none =>
      obtain ⟨tail, copied, length⟩ := strlcpy_eq default nonzero room
      have free : '\x00' ∉ default.take (buflen.toNat - 1) := fun mem =>
        plain (List.mem_of_mem_take mem)
      have string : cString (default.take (buflen.toNat - 1) ++ '\x00' :: tail) =
          default.take (buflen.toNat - 1) := takeWhile_ne_cons free tail
      rw [Trimmable, ← rdropWhile_eq_self_iff_getLast?]
      constructor
      · rintro ⟨fuel, after, left, -, -, trimmed⟩
        obtain rfl := Option.some.inj (copied.symm.trans left)
        exact (string.symm.trans trimmed).symm
      · intro trimmed
        refine ⟨0, _, copied, ?_, by simp, ?_⟩
        · rw [List.length_append, List.length_cons, ← length, Nat.add_assoc]
        · rw [string]
          exact trimmed.symm
  | some content =>
      constructor
      · rintro ⟨fuel, after, left, -⟩
        by_contra blank
        rw [Trimmable] at blank
        exact not_returns_of_blank positive room plain (by simpa using blank) fuel after left
      · exact returns_of_nonblank positive room plain

theorem number_is_trimmed :
    SerialTrimmed (some "17 \n".toList) (List.replicate 8 'x') 8 "-".toList :=
  (serial_is_trimmed_iff (some "17 \n".toList) (by decide) (by decide) (by decide)).mpr
    ⟨'1', by decide, by decide⟩

/-- The loop leaves the buffer when the file has a newline only. -/
theorem newline_is_not_trimmed :
    ¬ SerialTrimmed (some "\n".toList) (List.replicate 8 'x') 8 "-".toList := by
  rintro ⟨fuel, after, left, -⟩
  have read : source (some "\n".toList) 8 "-".toList = ['\n'] := by decide
  have blank : ∀ c ∈ source (some "\n".toList) 8 "-".toList, isspace c := by
    rw [read]
    exact List.forall_mem_singleton.mpr rfl
  exact not_returns_of_blank (by decide) (by decide) (by decide) blank fuel after left

end Reading
end Msm8974.UserAgent
