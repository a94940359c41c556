import Mathlib.Data.List.TakeWhile
import Msm8974.Library.DelimitedText
import Msm8974.Library.PercentEncoding
import Msm8974.Utils.LocCfg

/-!
encodeInPlace of LocEngAdapter.cpp. The array `value` is the list of its characters, and what
was written to the front of `buffer` is a list of its own, whose length is `outpos`.
-/

namespace Msm8974.UserAgent
open DelimitedText PercentEncoding LocCfg

def encodings : List (Char × List Char) :=
  [('/', "%2F".toList), ('+', "%2B".toList), ('|', "%7C".toList), ('%', "%25".toList)]

def NUM_CHARS_IN_CODE : Nat := 3

/-- The inner loop, which copies a code as long as there is space. -/
def copyCode (size : Nat) : List Char → List Char → List Char
  | [], buffer => buffer
  | c :: code, buffer =>
      if buffer.length < size - 1 then copyCode size code (buffer ++ [c]) else buffer

/-- The outer loop, with what follows `inpos` in the string. -/
def encodeLoop (size : Nat) : List Char → List Char → List Char
  | [], buffer => buffer
  | c :: value, buffer =>
      if c ≠ '\x00' ∧ buffer.length < size - 1 then
        match encodings.find? (fun encoding => encoding.1 = c) with
        | none => encodeLoop size value (buffer ++ [c])
        | some (_, code) =>
            -- skip last character if there is insufficient space
            if buffer.length + NUM_CHARS_IN_CODE ≥ size then buffer
            else encodeLoop size value (copyCode size (code.take NUM_CHARS_IN_CODE) buffer)
      else buffer

/-- while (--outpos >= 0) value[outpos] = buffer[outpos] -/
def copyBack (buffer : List Char) : Nat → List Char → List Char
  | 0, value => value
  | outpos + 1, value => copyBack buffer outpos (value.set outpos (buffer.getD outpos '\x00'))

def encodeInPlace (value : List Char) (size : Nat) : List Char :=
  let buffer := encodeLoop size value []
  copyBack buffer buffer.length (value.set buffer.length '\x00')

/-- What encodeInPlace writes for a character. -/
def encodeChar (c : Char) : List Char :=
  match encodings.find? (fun encoding => encoding.1 = c) with
  | none => [c]
  | some (_, code) => code

/-- A character has a code of the table, or is not in it and stands for itself. -/
theorem code_cases (c : Char) :
    (∃ code, encodings.find? (fun encoding => encoding.1 = c) = some (c, code) ∧
      encodeChar c = code ∧ (c, code) ∈ encodings) ∨
    encodings.find? (fun encoding => encoding.1 = c) = none ∧ encodeChar c = [c] ∧
      c ∉ ['/', '+', '|', '%'] := by
  unfold encodeChar
  cases search : encodings.find? (fun encoding => encoding.1 = c) with
  | none =>
      refine .inr ⟨rfl, rfl, fun mem => ?_⟩
      simp only [List.mem_cons, List.not_mem_nil, or_false] at mem
      obtain rfl | rfl | rfl | rfl := mem
      all_goals exact absurd search (by decide)
  | some encoding =>
      obtain ⟨char, code⟩ := encoding
      obtain rfl : char = c := by simpa using List.find?_some search
      exact .inl ⟨code, rfl, rfl, List.mem_of_find?_eq_some search⟩

theorem encodes_of_mem {c : Char} {code : List Char} (mem : (c, code) ∈ encodings) :
    Encodes c code ∧ code.length = NUM_CHARS_IN_CODE ∧ ∀ d ∈ code, d ∉ ['/', '+', '|', '\x00'] := by
  simp only [encodings, List.mem_cons, Prod.mk.injEq, List.not_mem_nil, or_false] at mem
  obtain ⟨rfl, rfl⟩ | ⟨rfl, rfl⟩ | ⟨rfl, rfl⟩ | ⟨rfl, rfl⟩ := mem
  all_goals exact ⟨.escape rfl rfl rfl, rfl, by simp⟩

theorem encodeChar_encodes (c : Char) : Encodes c (encodeChar c) := by
  obtain ⟨code, -, rfl, mem⟩ | ⟨-, eq, plain⟩ := code_cases c
  · exact (encodes_of_mem mem).1
  · rw [eq]
    exact .plain fun percent => plain (by simp [percent])

/-- Neither a separator nor the terminator is written. -/
theorem mem_encodeChar {c d : Char} (char : c ≠ '\x00') (mem : d ∈ encodeChar c) :
    d ∉ ['/', '+', '|', '\x00'] := by
  obtain ⟨code, -, rfl, listed⟩ | ⟨-, eq, plain⟩ := code_cases c
  · exact (encodes_of_mem listed).2.2 d mem
  · obtain rfl : d = c := by simpa [eq] using mem
    simp only [List.mem_cons, List.not_mem_nil, or_false, not_or] at plain ⊢
    exact ⟨plain.1, plain.2.1, plain.2.2.1, char⟩

theorem copyCode_of_fits {size : Nat} (code buffer : List Char)
    (fits : buffer.length + code.length < size) : copyCode size code buffer = buffer ++ code := by
  induction code generalizing buffer with
  | nil => simp [copyCode]
  | cons c code ih =>
      rw [List.length_cons] at fits
      rw [copyCode, if_pos (by omega), ih _ (by simp; omega), List.append_assoc]
      rfl

theorem encodeLoop_cons {size : Nat} {c : Char} (value buffer : List Char) (char : c ≠ '\x00') :
    encodeLoop size (c :: value) buffer =
      if buffer.length + (encodeChar c).length < size then
        encodeLoop size value (buffer ++ encodeChar c)
      else buffer := by
  rw [encodeLoop]
  obtain ⟨code, search, rfl, mem⟩ | ⟨search, eq, -⟩ := code_cases c
  · have length := (encodes_of_mem mem).2.1
    simp only [search, length]
    by_cases fits : buffer.length + NUM_CHARS_IN_CODE < size
    · rw [if_pos ⟨char, by unfold NUM_CHARS_IN_CODE at fits; omega⟩, if_neg (by omega), if_pos fits,
        List.take_of_length_le (by omega), copyCode_of_fits _ _ (by omega)]
    · rw [if_neg fits]
      split
      · exact if_pos (by omega)
      · rfl
  · simp only [search, eq, List.length_singleton]
    exact if_congr (by simp [char]; omega) rfl rfl

/-- The loop encodes a first part of the string, as much of it as there is space for. -/
theorem encodeLoop_eq {size : Nat} (value buffer : List Char) (space : buffer.length < size) :
    ∃ text, text <+: cString value ∧
      encodeLoop size value buffer = buffer ++ text.flatMap encodeChar ∧
      (encodeLoop size value buffer).length < size ∧
      (buffer.length + ((cString value).flatMap encodeChar).length < size →
        text = cString value) := by
  induction value generalizing buffer with
  | nil => exact ⟨[], List.prefix_rfl, by simp [encodeLoop], by simpa [encodeLoop], fun _ => rfl⟩
  | cons c value ih =>
      by_cases char : c = '\x00'
      · subst char
        exact ⟨[], by simp, by simp [encodeLoop], by simpa [encodeLoop], fun _ => by simp [cString]⟩
      · rw [encodeLoop_cons value buffer char]
        have whole : cString (c :: value) = c :: cString value := by simp [cString, char]
        split
        · next fits =>
            obtain ⟨text, isPrefix, eq, short, all⟩ := ih (buffer ++ encodeChar c) (by simpa)
            refine ⟨c :: text, ?_, ?_, short, fun fits => ?_⟩
            · rw [whole]
              exact (List.prefix_cons_inj c).mpr isPrefix
            · rw [eq, List.append_assoc, List.flatMap_cons]
            · rw [whole, all]
              simpa [whole, Nat.add_assoc] using fits
        · next full =>
            refine ⟨[], by simp, by simp, space, fun fits => ?_⟩
            rw [whole, List.flatMap_cons, List.length_append] at fits
            omega

theorem drop_set_self {outpos : Nat} {value : List Char} (inside : outpos < value.length)
    (c : Char) : (value.set outpos c).drop outpos = c :: value.drop (outpos + 1) := by
  rw [List.drop_eq_getElem_cons (by simpa using inside), List.getElem_set_self,
    List.drop_set_of_lt (Nat.lt_succ_self outpos)]

theorem copyBack_eq (buffer : List Char) {outpos : Nat} (value : List Char)
    (inBuffer : outpos ≤ buffer.length) (inValue : outpos ≤ value.length) :
    copyBack buffer outpos value = buffer.take outpos ++ value.drop outpos := by
  induction outpos generalizing value with
  | zero => rfl
  | succ outpos ih =>
      rw [copyBack, ih _ (by omega) (by simp; omega), drop_set_self inValue, List.take_add_one,
        List.getD_eq_getElem?_getD, List.getElem?_eq_getElem inBuffer, List.append_assoc]
      rfl

theorem encodeInPlace_eq {value : List Char} {size : Nat}
    (space : (encodeLoop size value []).length < value.length) :
    encodeInPlace value size =
      encodeLoop size value [] ++ '\x00' :: value.drop ((encodeLoop size value []).length + 1) := by
  rw [encodeInPlace, copyBack_eq _ _ (Nat.le_refl _) (by simp; omega), List.take_length,
    drop_set_self space]

/-- `value` is the array, of `size` characters, with a string in it. -/
theorem encodeInPlace_leaves_whole_escapes (value : List Char) (size : Nat)
    (held : value.length = size) (terminated : '\x00' ∈ value) :
    let coded := cString (encodeInPlace value size)
    (encodeInPlace value size).length = size ∧ '\x00' ∈ encodeInPlace value size ∧
      coded.length < size ∧ (∀ c ∈ coded, c ∉ ['/', '+', '|']) ∧ WellFormed coded ∧
      decode coded <+: cString value ∧
      (((cString value).flatMap encodeChar).length ≤ size - 1 → decode coded = cString value) := by
  have nonempty : 0 < size := held ▸ List.length_pos_of_mem terminated
  obtain ⟨text, isPrefix, eq, short, all⟩ := encodeLoop_eq value [] nonempty
  rw [List.nil_append] at eq
  have written {c : Char} (mem : c ∈ text.flatMap encodeChar) : c ∉ ['/', '+', '|', '\x00'] := by
    obtain ⟨d, inText, mem⟩ := List.mem_flatMap.mp mem
    have char : d ≠ '\x00' := by simpa using List.mem_takeWhile_imp (isPrefix.subset inText)
    exact mem_encodeChar char mem
  have result : encodeInPlace value size = _ := encodeInPlace_eq (held ▸ short)
  have coded : cString (encodeInPlace value size) = text.flatMap encodeChar := by
    rw [result, eq]
    exact takeWhile_ne_cons (fun null => written null (by simp)) _
  simp only [coded, decode_flatMap encodeChar_encodes]
  refine ⟨?_, by simp [result], eq ▸ short, fun c mem separator => written mem ?_,
    wellFormed_flatMap encodeChar_encodes text, isPrefix, fun fits => all ?_⟩
  · rw [result]
    simp
    omega
  · simp only [List.mem_cons, List.not_mem_nil, or_false] at separator ⊢
    tauto
  · rw [List.length_nil]
    omega

/-- In an array of 8 the second escape of "a/b+c" does not fit. -/
theorem two_separators_in_eight :
    let coded := cString (encodeInPlace "a/b+c\x00??".toList 8)
    (encodeInPlace "a/b+c\x00??".toList 8).length = 8 ∧
      '\x00' ∈ encodeInPlace "a/b+c\x00??".toList 8 ∧ coded.length < 8 ∧
      (∀ c ∈ coded, c ∉ ['/', '+', '|']) ∧ WellFormed coded ∧
      decode coded <+: cString "a/b+c\x00??".toList ∧
      (((cString "a/b+c\x00??".toList).flatMap encodeChar).length ≤ 8 - 1 →
        decode coded = cString "a/b+c\x00??".toList) :=
  encodeInPlace_leaves_whole_escapes "a/b+c\x00??".toList 8 rfl (by simp)

end Msm8974.UserAgent
