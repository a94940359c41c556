import Mathlib.Data.List.Flatten

/-!
Percent-encoded texts: a character stands for itself or is escaped by `%` and two
hexadecimal digits. Which characters are escaped is up to the encoder, which only
has to escape `%` itself.
-/

namespace Msm8974.PercentEncoding

def hexValue (c : Char) : Option Nat :=
  if '0' ≤ c ∧ c ≤ '9' then some (c.toNat - '0'.toNat)
  else if 'A' ≤ c ∧ c ≤ 'F' then some (c.toNat - 'A'.toNat + 10)
  else if 'a' ≤ c ∧ c ≤ 'f' then some (c.toNat - 'a'.toNat + 10)
  else none

/-- A `%` without two digits behind it stands for itself. -/
def decode : List Char → List Char
  | '%' :: a :: b :: rest =>
      match hexValue a, hexValue b with
      | some x, some y => Char.ofNat (16 * x + y) :: decode rest
      | _, _ => '%' :: decode (a :: b :: rest)
  | c :: rest => c :: decode rest
  | [] => []

/-- Texts in which each `%` begins a whole escape. -/
inductive WellFormed : List Char → Prop
  | nil : WellFormed []
  | plain {c : Char} {rest : List Char} : c ≠ '%' → WellFormed rest → WellFormed (c :: rest)
  | escape {a b : Char} {rest : List Char} :
      (hexValue a).isSome → (hexValue b).isSome → WellFormed rest →
      WellFormed ('%' :: a :: b :: rest)

/-- `code` is the character itself or an escape of it. -/
inductive Encodes (c : Char) : List Char → Prop
  | plain : c ≠ '%' → Encodes c [c]
  | escape {a b : Char} {x y : Nat} : hexValue a = some x → hexValue b = some y →
      Char.ofNat (16 * x + y) = c → Encodes c ['%', a, b]

variable {c : Char} {code : List Char} {encodeChar : Char → List Char}

theorem Encodes.decode_append (encodes : Encodes c code) (rest : List Char) :
    decode (code ++ rest) = c :: decode rest := by
  cases encodes with
  | plain ordinary => simp [decode, ordinary]
  | escape first second value => simp [decode, first, second, value]

theorem Encodes.wellFormed_append (encodes : Encodes c code) {rest : List Char}
    (wellFormed : WellFormed rest) : WellFormed (code ++ rest) := by
  cases encodes with
  | plain ordinary => exact .plain ordinary wellFormed
  | escape first second _ => exact .escape (by simp [first]) (by simp [second]) wellFormed

theorem decode_flatMap (encodes : ∀ c, Encodes c (encodeChar c)) (text : List Char) :
    decode (text.flatMap encodeChar) = text := by
  induction text with
  | nil => rfl
  | cons c text ih => rw [List.flatMap_cons, (encodes c).decode_append, ih]

theorem wellFormed_flatMap (encodes : ∀ c, Encodes c (encodeChar c)) (text : List Char) :
    WellFormed (text.flatMap encodeChar) := by
  induction text with
  | nil => exact .nil
  | cons c text ih => exact (encodes c).wellFormed_append ih

end Msm8974.PercentEncoding
