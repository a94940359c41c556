import Msm8974.Library.DelimitedText
import Msm8974.Library.Loops

/-!
The BCD decoding of `LocApiBase.cpp`. A char is a byte; whether it is signed depends on the target
and only shows where it is promoted to int. NULL is `none`, and an access outside an array leaves
the call without a result.
-/

namespace Msm8974.Core
open Loops

section Model

/-- A char as an int. -/
def promote (signed : Bool) (c : BitVec 8) : Int := if signed then c.toInt else c.toNat

/-- The variables that the loop of `decodeAddress` writes. -/
structure Decode where
  addr_string : List (BitVec 8)
  idxOutput : Nat

/-- What is done with `low` and with `hi`. -/
def Decode.append (s : Decode) (string_size : Int) (digit : BitVec 8) : Option Decode :=
  if digit ≤ 9 ∧ s.idxOutput < string_size - 1 then
    (store s.addr_string s.idxOutput (digit + 0x30)).map (Decode.mk · (s.idxOutput + 1))
  else some s

/-- `for (i = 1; i < data_size; i++)`, with the rounds that are left. -/
def decodeLoop (string_size : Int) (data : List (BitVec 8)) : Nat → Nat → Decode → Option Decode
  | 0, _, s => some s
  | left + 1, i, s => do
      let ch ← data[i]?
      let low := ch &&& 0x0F
      let hi := ch >>> 4
      let s ← s.append string_size low
      let s ← s.append string_size hi
      decodeLoop string_size data left (i + 1) s

def decodeAddress (signed : Bool) (addr_string : Option (List (BitVec 8))) (string_size : Int)
    (data : Option (List (BitVec 8))) (data_size : Int) :
    Option (Option (List (BitVec 8)) × Int) :=
  let addr_prefix : BitVec 8 := 0x91
  match data, addr_string with
  | some data, some addr_string => do
      let first ← data[0]?
      if promote signed first ≠ promote signed addr_prefix then
        -- prefix not correct
        let addr_string ← store addr_string 0 0
        some (some addr_string, 0)
      else
        let s ← decodeLoop string_size data (data_size - 1).toNat 1 ⟨addr_string, 0⟩
        -- Terminates the string
        let addr_string ← store s.addr_string s.idxOutput 0
        some (some addr_string, s.idxOutput)
  | _, addr_string => some (addr_string, 0)

end Model

section Digits

/-- The nibbles of bytes, low before high, that are decimal digits. -/
def decimals (data : List (BitVec 8)) : List Nat :=
  (data.flatMap fun ch => [ch.toNat % 16, ch.toNat / 16]).filter (· < 10)

def ascii (digit : Nat) : BitVec 8 := BitVec.ofNat 8 ('0'.toNat + digit)

theorem decimals_cons (ch : BitVec 8) (data : List (BitVec 8)) :
    decimals (ch :: data) =
      [ch.toNat % 16].filter (· < 10) ++ [ch.toNat / 16].filter (· < 10) ++ decimals data := by
  rw [decimals, List.flatMap_cons, List.filter_append]
  exact congrArg (· ++ decimals data) (List.filter_append [ch.toNat % 16] [ch.toNat / 16])

/-- As much of the digits as there is room for with a terminator. -/
def written (string_size : Nat) (digits : List Nat) : List (BitVec 8) :=
  (digits.take (string_size - 1)).map ascii

variable {string_size n : Nat} {digits : List Nat} {unused behind : List (BitVec 8)} {s : Decode}

theorem written_of_lt (room : (written string_size digits).length < string_size - 1) :
    written string_size (digits ++ [n]) = written string_size digits ++ [ascii n] := by
  rw [written, List.length_map, List.length_take] at room
  rw [written, List.take_of_length_le (by simp; omega), List.map_append, written,
    List.take_of_length_le (by omega), List.map_singleton]

theorem written_of_full (full : string_size - 1 ≤ (written string_size digits).length) :
    written string_size (digits ++ [n]) = written string_size digits := by
  rw [written, List.length_map, List.length_take] at full
  rw [written, List.take_append_of_le_length (by omega), written]

theorem ascii_of_decimal {digit : BitVec 8} (value : digit.toNat = n) :
    digit + 0x30 = ascii n := by
  rw [← value, ascii, BitVec.add_comm, BitVec.ofNat_add, BitVec.ofNat_toNat, BitVec.setWidth_eq]
  rfl

/-- The digits were appended as far as there was room. -/
def Appended (string_size : Nat) (behind : List (BitVec 8)) (digits : List Nat) (s : Decode) :
    Prop :=
  ∃ unused, s = ⟨written string_size digits ++ unused ++ behind,
      (written string_size digits).length⟩ ∧
    (written string_size digits).length + unused.length = string_size

theorem append_spec (appended : Appended string_size behind digits s) {digit : BitVec 8}
    (value : digit.toNat = n) :
    ∃ s', s.append string_size digit = some s' ∧
      Appended string_size behind (digits ++ [n].filter (· < 10)) s' := by
  obtain ⟨unused, rfl, length⟩ := appended
  have decimal : digit ≤ 9 ↔ n < 10 := by
    rw [BitVec.le_def, value]
    exact Nat.lt_succ_iff.symm
  rw [Decode.append]
  by_cases plain : n < 10
  · rw [List.filter_cons_of_pos (by simpa using plain), List.filter_nil]
    by_cases room : (written string_size digits).length < string_size - 1
    · obtain ⟨u, unused, rfl⟩ := List.exists_cons_of_length_pos (l := unused) (by omega)
      have inside : ((written string_size digits).length : Int) < string_size - 1 := by omega
      rw [if_pos ⟨decimal.mpr plain, inside⟩, List.append_assoc, List.cons_append, store_append,
        Option.map_some]
      refine ⟨_, rfl, unused, ?_, ?_⟩
      · rw [written_of_lt room, ascii_of_decimal value]
        simp
      · rw [written_of_lt room]
        simpa [Nat.add_assoc, Nat.add_comm 1] using length
    · have outside : ¬ ((written string_size digits).length : Int) < string_size - 1 := by omega
      rw [if_neg fun h => outside h.2]
      refine ⟨_, rfl, unused, ?_, ?_⟩
      · rw [written_of_full (by omega)]
      · rw [written_of_full (by omega), length]
  · rw [if_neg fun h => plain (decimal.mp h.1), List.filter_cons_of_neg (by simpa using plain),
      List.filter_nil, List.append_nil]
    exact ⟨_, rfl, unused, rfl, length⟩

theorem toNat_low (ch : BitVec 8) : (ch &&& 0x0F).toNat = ch.toNat % 16 := by
  rw [BitVec.toNat_and]
  exact Nat.and_two_pow_sub_one_eq_mod ch.toNat 4

theorem toNat_hi (ch : BitVec 8) : (ch >>> 4).toNat = ch.toNat / 16 := by
  rw [BitVec.toNat_ushiftRight, Nat.shiftRight_eq_div_pow]

/-- The loop appends the digits of the rest of the data. -/
theorem decodeLoop_spec (before data : List (BitVec 8))
    (appended : Appended string_size behind digits s) :
    ∃ s', decodeLoop string_size (before ++ data) data.length before.length s = some s' ∧
      Appended string_size behind (digits ++ decimals data) s' := by
  induction data generalizing before digits s with
  | nil => exact ⟨s, rfl, by simpa [decimals] using appended⟩
  | cons ch data ih =>
      obtain ⟨s₁, low, appended⟩ := append_spec appended (toNat_low ch)
      obtain ⟨s₂, hi, appended⟩ := append_spec appended (toNat_hi ch)
      obtain ⟨s', rest, appended⟩ := ih (before ++ [ch]) appended
      refine ⟨s', ?_, ?_⟩
      · rw [List.append_assoc, List.singleton_append, List.length_append] at rest
        rw [List.length_cons, decodeLoop, getElem?_append_cons]
        simp only [Option.bind_eq_bind, Option.bind_some, low, hi]
        exact rest
      · rwa [decimals_cons, ← List.append_assoc, ← List.append_assoc]

theorem ascii_ne_zero (lt : n < 10) : ascii n ≠ 0 := by
  have positive : 0 < '0'.toNat + n := Nat.add_pos_left (by decide) n
  have small : '0'.toNat + n < 2 ^ 8 := Nat.lt_of_lt_of_le (Nat.add_lt_add_left lt _) (by decide)
  intro zero
  rw [ascii, ← BitVec.toNat_inj, BitVec.toNat_ofNat, Nat.mod_eq_of_lt small] at zero
  exact Nat.ne_of_gt positive zero

theorem zero_not_mem_written (string_size : Nat) (data : List (BitVec 8)) :
    0 ∉ written string_size (decimals data) := by
  intro mem
  obtain ⟨n, listed, zero⟩ := List.mem_map.mp mem
  have decimal := (List.mem_filter.mp (List.mem_of_mem_take listed)).2
  exact ascii_ne_zero (of_decide_eq_true decimal) zero

end Digits

section Decoding
variable {addr_string : List (BitVec 8)} {string_size : Nat}

/-- The string in memory. -/
def cString (memory : List (BitVec 8)) : List (BitVec 8) := memory.takeWhile (· ≠ 0)

theorem cString_append {text : List (BitVec 8)} (free : 0 ∉ text) (rest : List (BitVec 8)) :
    cString (text ++ 0 :: rest) = text :=
  DelimitedText.takeWhile_ne_cons free rest

theorem decodeAddress_eq (signed : Bool) (data : List (BitVec 8)) :
    decodeAddress signed (some addr_string) string_size (some (0x91 :: data)) (data.length + 1) =
      (decodeLoop string_size (0x91 :: data) data.length 1 ⟨addr_string, 0⟩).bind fun s =>
        (store s.addr_string s.idxOutput 0).bind fun after =>
          some (some after, (s.idxOutput : Int)) := by
  have rounds : ((data.length : Int) + 1 - 1).toNat = data.length := by omega
  rw [decodeAddress, rounds, List.getElem?_cons_zero]
  simp only [Option.bind_eq_bind, Option.bind_some, ne_eq, not_true_eq_false, if_false]

/-- The digits are those of the data as far as there is room, and nothing is written behind. -/
theorem data_is_decoded (signed : Bool) (data : List (BitVec 8)) (positive : 0 < string_size)
    (room : string_size ≤ addr_string.length) :
    ∃ after, decodeAddress signed (some addr_string) string_size (some (0x91 :: data))
        (data.length + 1) = some (some after, ((cString after).length : Int)) ∧
      cString after = ((decimals data).take (string_size - 1)).map ascii ∧
      after[(cString after).length]? = some 0 ∧
      after.length = addr_string.length ∧
      after.drop string_size = addr_string.drop string_size := by
  have initial : Appended string_size (addr_string.drop string_size) [] ⟨addr_string, 0⟩ := by
    refine ⟨addr_string.take string_size, ?_, ?_⟩
    · simp [written]
    · simp [written, Nat.min_eq_left room]
  obtain ⟨s, ends, unused, rfl, length⟩ := decodeLoop_spec [0x91] data initial
  rw [List.nil_append] at ends length
  change decodeLoop string_size (0x91 :: data) data.length 1 ⟨addr_string, 0⟩ = _ at ends
  have short : (written string_size (decimals data)).length ≤ string_size - 1 := by
    rw [written, List.length_map]
    exact List.length_take_le _ _
  obtain ⟨u, unused, rfl⟩ := List.exists_cons_of_length_pos (l := unused) (by omega)
  have string := cString_append (zero_not_mem_written string_size data)
    (unused ++ addr_string.drop string_size)
  refine ⟨written string_size (decimals data) ++ 0 :: (unused ++ addr_string.drop string_size),
    ?_, string, ?_, ?_, ?_⟩
  · rw [decodeAddress_eq, ends, Option.bind_some, List.append_assoc, List.cons_append,
      store_append, Option.bind_some, string]
  · rw [string, getElem?_append_cons]
  · simp only [List.length_append, List.length_cons, List.length_drop] at length ⊢
    omega
  · rw [← List.cons_append, ← List.append_assoc]
    exact List.drop_left' (by simpa using length)

theorem three_of_four_digits_are_decoded :
    ∃ after, decodeAddress true (some [1, 1, 1, 1, 7]) (4 : Nat) (some [0x91, 0x2F, 0x43, 0xF5])
        (3 + 1) = some (some after, ((cString after).length : Int)) ∧
      cString after = ((decimals [0x2F, 0x43, 0xF5]).take (4 - 1)).map ascii ∧
      after[(cString after).length]? = some 0 ∧
      after.length = [1, 1, 1, 1, 7].length ∧
      after.drop 4 = [(1 : BitVec 8), 1, 1, 1, 7].drop 4 :=
  data_is_decoded true [0x2F, 0x43, 0xF5] (by decide) (by decide)

end Decoding
end Msm8974.Core
