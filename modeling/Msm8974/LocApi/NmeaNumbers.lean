import Mathlib.Algebra.Order.Ring.Int
import Mathlib.Data.Rat.Floor
import Mathlib.Data.Rat.Lemmas
import Msm8974.Library.DelimitedText

/-!
The numbers that loc_eng_nmea.cpp computes with, and printf's conversions of numbers in the C
locale. float and double are any type with the operations that the code applies; the rationals
are one, with no rounding but that of printf.
-/

namespace Msm8974.Nmea
open DelimitedText (padded)

/-- float and double. -/
class CReal (F : Type) extends Add F, Sub F, Mul F, LT F where
  decidableLT : DecidableLT F
  literal : ℚ → F
  /-- The conversion of a double to float. -/
  toFloat : F → F
  floor : F → F
  fmod : F → F → F
  /-- The conversion to an integer. -/
  toInt : F → Int
  /-- %0w.pf, for a width and a positive precision. -/
  fixed : Nat → Nat → F → List Char
  /-- Digits with sign and point; inf and nan, with blanks before them. -/
  fixed_chars : ∀ width precision x, ∀ c ∈ fixed width precision x,
    c.isAlphanum ∨ c = '-' ∨ c = '.' ∨ c = ' '

instance CReal.instDecidableLT {F : Type} [CReal F] : DecidableLT F := CReal.decidableLT

/-- %0wd; the sign counts for the width. -/
def decimal (width : Nat) (n : Int) : List Char :=
  if n < 0 then '-' :: padded (width - 1) n.natAbs else padded width n.natAbs

/-- %.pd; the sign does not count for the precision. -/
def digits (precision : Nat) (n : Int) : List Char :=
  if n < 0 then '-' :: padded precision n.natAbs else padded precision n.natAbs

/-- %X of a digit. -/
def hexDigit (n : Nat) : Char := Char.ofNat (if n < 10 then 48 + n else 55 + n)

/-- %02X of a byte. -/
def hex (n : UInt8) : List Char := [hexDigit (n.toNat / 16), hexDigit (n.toNat % 16)]

/-- The natural number next to a rational that is not negative, the even one of two. -/
def roundHalfEven (q : ℚ) : Nat :=
  let below := q.floor.toNat
  if q - below < 1 / 2 ∨ (q - below = 1 / 2 ∧ below % 2 = 0) then below else below + 1

def fixedRat (width precision : Nat) (q : ℚ) : List Char :=
  let sign := if q < 0 then ['-'] else []
  let scaled := roundHalfEven (|q| * 10 ^ precision)
  let number := padded 1 (scaled / 10 ^ precision) ++
    '.' :: padded precision (scaled % 10 ^ precision)
  sign ++ List.replicate (width - sign.length - number.length) '0' ++ number

/-- Rounding to zero. -/
def truncate (q : ℚ) : Int := if q < 0 then -(-q).floor else q.floor

theorem alphanum_of_mem_padded {width n : Nat} {c : Char} (mem : c ∈ padded width n) :
    c.isAlphanum = true := by
  rw [Char.isAlphanum, DelimitedText.isDigit_of_mem_padded mem, Bool.or_true]

theorem fixedRat_chars (width precision : Nat) (q : ℚ) : ∀ c ∈ fixedRat width precision q,
    c.isAlphanum ∨ c = '-' ∨ c = '.' ∨ c = ' ' := by
  intro c mem
  rw [fixedRat, List.mem_append, List.mem_append, List.mem_append, List.mem_cons] at mem
  rcases mem with (sign | zero) | digit | point | digit
  · split at sign
    · exact .inr (.inl (List.mem_singleton.mp sign))
    · cases sign
  · rw [List.eq_of_mem_replicate zero]
    exact .inl rfl
  · exact .inl (alphanum_of_mem_padded digit)
  · exact .inr (.inr (.inl point))
  · exact .inl (alphanum_of_mem_padded digit)

instance : CReal ℚ where
  decidableLT := inferInstance
  literal := id
  toFloat := id
  floor q := q.floor
  fmod x y := x - y * truncate (x / y)
  toInt := truncate
  fixed := fixedRat
  fixed_chars := fixedRat_chars

example : fixedRat 0 1 (-7 / 20) = "-0.4".toList := by decide +kernel

example : fixedRat 9 6 (5 / 2) = "02.500000".toList := by decide +kernel

end Msm8974.Nmea
