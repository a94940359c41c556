import Mathlib.Algebra.GroupWithZero.Nat
import Mathlib.Tactic.Common

/-!
Text in fields with a character between them, and numbers in decimal with zeros before them.
-/

namespace Msm8974.DelimitedText
universe u
variable {α : Type u}

section Numbers

/-- The decimal digits of a number, with zeros up to a width. -/
def padded (width n : Nat) : List Char :=
  List.replicate (width - (Nat.toDigits 10 n).length) '0' ++ Nat.toDigits 10 n

theorem ofDigitChars_padded (width n : Nat) : Nat.ofDigitChars 10 (padded width n) 0 = n := by
  rw [padded, Nat.ofDigitChars_append, Nat.ofDigitChars_replicate_zero, Nat.mul_zero,
    Nat.ofDigitChars_ten_toDigits]

theorem isDigit_of_mem_padded {width n : Nat} {c : Char} (mem : c ∈ padded width n) :
    c.isDigit = true := by
  cases List.mem_append.mp mem with
  | inl zero =>
      rw [List.eq_of_mem_replicate zero]
      rfl
  | inr digit => exact Nat.isDigit_of_mem_toDigits (by decide) (by decide) digit

theorem length_padded (width n : Nat) :
    (padded width n).length = max width (Nat.toDigits 10 n).length := by
  rw [padded, List.length_append, List.length_replicate]
  omega

theorem length_padded_le {width n digits : Nat} (positive : 0 < digits) (small : n < 10 ^ digits) :
    (padded width n).length ≤ max width digits := by
  have length := (Nat.length_toDigits_le_iff (by decide) positive).mpr small
  rw [length_padded]
  omega

end Numbers

section Fields
variable {sep : α}

/-- Fields, each with the separator behind it. -/
def terminated (sep : α) (fields : List (List α)) : List α :=
  fields.flatMap (· ++ [sep])

/-- A text of `count` fields of plain characters, each with the separator behind it. -/
def Terminated (sep : α) (plain : α → Prop) (count : Nat) (text : List α) : Prop :=
  ∃ fields, fields.length = count ∧ (∀ field ∈ fields, ∀ c ∈ field, plain c) ∧
    text = terminated sep fields

theorem terminated_append (fields fields' : List (List α)) :
    terminated sep (fields ++ fields') = terminated sep fields ++ terminated sep fields' :=
  List.flatMap_append

section Terminated
variable {plain : α → Prop}

theorem Terminated.nil : Terminated sep plain 0 [] :=
  ⟨[], rfl, fun _ mem => (List.not_mem_nil mem).elim, rfl⟩

theorem Terminated.cons {count : Nat} (field : List α) {rest : List α}
    (all : ∀ c ∈ field, plain c) (h : Terminated sep plain count rest) :
    Terminated sep plain (count + 1) (field ++ sep :: rest) := by
  obtain ⟨fields, length, all', rfl⟩ := h
  refine ⟨field :: fields, congrArg (· + 1) length, List.forall_mem_cons.mpr ⟨all, all'⟩, ?_⟩
  rw [terminated, terminated, List.flatMap_cons, List.append_assoc, List.singleton_append]

theorem Terminated.append {count count' : Nat} {text text' : List α}
    (h : Terminated sep plain count text) (h' : Terminated sep plain count' text') :
    Terminated sep plain (count + count') (text ++ text') := by
  obtain ⟨fields, length, all, rfl⟩ := h
  obtain ⟨fields', length', all', rfl⟩ := h'
  refine ⟨fields ++ fields', ?_, ?_, (terminated_append _ _).symm⟩
  · rw [List.length_append, length, length']
  · intro field mem
    exact (List.mem_append.mp mem).elim (all field) (all' field)

theorem mem_terminated {fields : List (List α)} {c : α} (mem : c ∈ terminated sep fields) :
    c = sep ∨ ∃ field ∈ fields, c ∈ field := by
  obtain ⟨field, listed, here⟩ := List.mem_flatMap.mp mem
  cases List.mem_append.mp here with
  | inl inside => exact .inr ⟨field, listed, inside⟩
  | inr last => exact .inl (List.mem_singleton.mp last)

end Terminated

section Reaching
variable [DecidableEq α] {first : List α}

/-- Nothing of a text without a character is behind it. -/
theorem takeWhile_ne_append (free : sep ∉ first) (rest : List α) :
    (first ++ rest).takeWhile (· ≠ sep) = first ++ rest.takeWhile (· ≠ sep) :=
  List.takeWhile_append_of_pos fun _ mem => decide_eq_true (ne_of_mem_of_not_mem mem free)

theorem takeWhile_ne_cons (free : sep ∉ first) (rest : List α) :
    (first ++ sep :: rest).takeWhile (· ≠ sep) = first := by
  rw [takeWhile_ne_append free, List.takeWhile_cons_of_neg (by simp), List.append_nil]

theorem takeWhile_ne_self (free : sep ∉ first) : first.takeWhile (· ≠ sep) = first := by
  have whole := takeWhile_ne_append free []
  rwa [List.append_nil, List.takeWhile_nil, List.append_nil] at whole

end Reaching

section Splitting
variable [BEq α] [LawfulBEq α]

theorem splitOn_terminated_append {fields : List (List α)}
    (free : ∀ field ∈ fields, sep ∉ field) (rest : List α) :
    (terminated sep fields ++ rest).splitOn sep = fields ++ rest.splitOn sep := by
  induction fields with
  | nil => rfl
  | cons field fields ih =>
      have first := free field List.mem_cons_self
      have others := ih fun other mem => free other (List.mem_cons_of_mem _ mem)
      rw [terminated, List.flatMap_cons, List.append_assoc, List.append_assoc,
        List.singleton_append, List.splitOn_append_cons_self_of_not_mem first, List.cons_append]
      exact congrArg (field :: ·) others

theorem splitOn_terminated {fields : List (List α)} {last : List α}
    (free : ∀ field ∈ fields, sep ∉ field) (free_last : sep ∉ last) :
    (terminated sep fields ++ last).splitOn sep = fields ++ [last] := by
  rw [splitOn_terminated_append free, List.splitOn_eq_singleton free_last]

theorem splitOn_preceded {first : List α} {fields : List (List α)} (free_first : sep ∉ first)
    (free : ∀ field ∈ fields, sep ∉ field) :
    (first ++ fields.flatMap (sep :: ·)).splitOn sep = first :: fields := by
  induction fields generalizing first with
  | nil =>
      rw [List.flatMap_nil, List.append_nil]
      exact List.splitOn_eq_singleton free_first
  | cons field fields ih =>
      rw [List.flatMap_cons, List.cons_append,
        List.splitOn_append_cons_self_of_not_mem free_first,
        ih (free field List.mem_cons_self) fun other mem => free other (List.mem_cons_of_mem _ mem)]

omit [LawfulBEq α] in
/-- There is a field more than there are separators. -/
theorem length_splitOn (text : List α) : (text.splitOn sep).length = text.count sep + 1 := by
  induction text with
  | nil => rfl
  | cons c text ih =>
      rw [List.splitOn_cons_eq_if_modifyHead, List.count_cons]
      split
      · rw [List.length_cons, ih]
      · rw [List.length_modifyHead, ih, Nat.add_zero]

omit [LawfulBEq α] in
theorem subset_of_mem_splitOn {text field : List α} (mem : field ∈ text.splitOn sep) :
    field ⊆ text := by
  induction text generalizing field with
  | nil =>
      rw [List.splitOn_nil, List.mem_singleton] at mem
      exact mem ▸ List.Subset.refl _
  | cons c text ih =>
      obtain ⟨first, fields, split⟩ := List.exists_cons_of_ne_nil (List.splitOn_ne_nil sep text)
      rw [split] at ih
      rw [List.splitOn_cons_eq_if_modifyHead, split] at mem
      split at mem
      · cases List.mem_cons.mp mem with
        | inl empty => exact empty ▸ List.nil_subset _
        | inr later => exact List.subset_cons_of_subset c (ih later)
      · cases List.mem_cons.mp mem with
        | inl here => exact here ▸ List.cons_subset_cons c (ih List.mem_cons_self)
        | inr later => exact List.subset_cons_of_subset c (ih (List.mem_cons_of_mem _ later))

end Splitting
end Fields
end Msm8974.DelimitedText
