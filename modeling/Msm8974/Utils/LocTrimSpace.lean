import Mathlib.Data.List.DropRight
import Msm8974.Utils.LocCfgUpdate
import Msm8974.Utils.LocCfgValues
import Msm8974.Utils.LocMiscUtils

/-!
loc_util_trim_space on memory. Its loop is the scan of the string that loc_cfg.cpp relies on, with
what was written in front, a gap behind it and the rest still to be read; and that scan strips
every string but those made of white space only, which stay as they are.
-/

namespace Msm8974.MiscUtils
open Loops LocCfg

/-- A string without the white space around it. -/
def strip (str : List Char) : List Char := (str.dropWhile isspace).rdropWhile isspace

/-- The string that memory holds from its first character on. -/
def Holds (memory str : List Char) : Prop := '\x00' ∉ str ∧ str ++ ['\x00'] <+: memory

/-- A call of loc_util_trim_space returns and leaves the second memory. -/
def Trims (org_string after : List Char) : Prop :=
  ∃ fuel, locUtilTrimSpace fuel (some org_string) = some (some after)

section Strip
variable {str : List Char}

theorem strip_spaces (str : List Char) :
    ∃ before after, (∀ c ∈ before ++ after, isspace c) ∧ before ++ strip str ++ after = str := by
  refine ⟨str.takeWhile isspace, (str.dropWhile isspace).rtakeWhile isspace, ?_, ?_⟩
  · intro c mem
    cases List.mem_append.mp mem with
    | inl before => exact List.mem_takeWhile_imp before
    | inr after => exact List.mem_rtakeWhile_imp after
  · rw [strip, List.append_assoc, List.rdropWhile_append_rtakeWhile,
      List.takeWhile_append_dropWhile]

theorem strip_eq_nil_iff : strip str = [] ↔ ∀ c ∈ str, isspace c := by
  obtain ⟨before, after, blank, whole⟩ := strip_spaces str
  constructor
  · intro empty
    rw [empty, List.append_nil] at whole
    rwa [← whole]
  · intro all
    rw [strip, List.rdropWhile_eq_nil_iff]
    intro c mem
    exact all c (List.dropWhile_subset isspace mem)

theorem strip_trimmed (str : List Char) : Trimmed (strip str) where
  head c first := by
    obtain ⟨text, h⟩ := List.head?_eq_some_iff.mp first
    obtain ⟨behind, split⟩ := List.rdropWhile_prefix isspace (str.dropWhile isspace)
    change strip str ++ behind = _ at split
    have whole := List.head?_dropWhile_not isspace str
    rwa [← split, h] at whole
  last c final := by
    obtain ⟨nonempty, rfl⟩ := List.mem_getLast?_eq_getLast final
    exact Bool.eq_false_of_not_eq_true (List.rdropWhile_last_not isspace _ nonempty)

theorem strip_ne_nil (nonblank : ∃ c ∈ str, isspace c = false) : strip str ≠ [] := by
  intro empty
  obtain ⟨c, mem, nonspace⟩ := nonblank
  exact Bool.false_ne_true (nonspace.symm.trans (strip_eq_nil_iff.mp empty c mem))

theorem locUtilTrimSpace_eq_strip (nonblank : ∃ c ∈ str, isspace c = false) :
    LocCfg.locUtilTrimSpace str = strip str := by
  obtain ⟨before, after, blank, whole⟩ := strip_spaces str
  have trimmed := locUtilTrimSpace_eq (strip_ne_nil nonblank) (strip_trimmed str) blank
  rwa [whole] at trimmed

/-- A string of white space only stays as it is. -/
theorem locUtilTrimSpace_eq_strip_iff :
    LocCfg.locUtilTrimSpace str = strip str ↔ str = [] ∨ ∃ c ∈ str, isspace c = false := by
  by_cases nonblank : ∃ c ∈ str, isspace c = false
  · exact iff_of_true (locUtilTrimSpace_eq_strip nonblank) (.inr nonblank)
  · have blank : ∀ c ∈ str, isspace c := by simpa using nonblank
    rw [locUtilTrimSpace_blank blank, strip_eq_nil_iff.mpr blank]
    exact (or_iff_left nonblank).symm

end Strip

namespace Trim
variable {written gap rest tail : List Char} {first last : Option Nat} {c : Char}

/-- Between two rounds: what was written, what lies between the two pointers, what is still to be
scanned and what lies behind the string. -/
def midway (written gap rest tail : List Char) (first last : Option Nat) : Trim :=
  ⟨written ++ gap ++ (rest ++ '\x00' :: tail), (written ++ gap).length, written.length, first, last⟩

theorem round_end :
    round (midway written gap [] tail first last) =
      some (.done (midway written gap [] tail first last)) := by
  have here : (written ++ gap ++ ([] ++ '\x00' :: tail))[(written ++ gap).length]? = some '\x00' :=
    getElem?_append_cons _ _ _
  rw [round, midway, here, Option.bind_some, if_pos rfl]

theorem round_leading (plain : c ≠ '\x00') (space : isspace c) :
    round (midway [] gap (c :: rest) tail none last) =
      some (.again (midway [] (gap ++ [c]) rest tail none last)) := by
  have here : ([] ++ gap ++ (c :: rest ++ '\x00' :: tail))[([] ++ gap).length]? = some c :=
    getElem?_append_cons _ _ _
  rw [round, midway, here, Option.bind_some, if_neg plain]
  simp [space, midway]

/-- The gap moves on by one character. -/
theorem round_kept {d : Char} {gap' : List Char} (written rest tail : List Char)
    (last : Option Nat) (plain : c ≠ '\x00') (kept : isspace c = false ∨ first ≠ none)
    (moved : gap ++ [c] = d :: gap') :
    ∃ first', first' ≠ none ∧ round (midway written gap (c :: rest) tail first last) =
      some (.again (midway (written ++ [c]) gap' rest tail first'
        (if isspace c then last else some (written.length + 1)))) := by
  have here : (written ++ gap ++ (c :: rest ++ '\x00' :: tail))[(written ++ gap).length]? =
      some c := getElem?_append_cons _ _ _
  have stored : store (written ++ gap ++ (c :: rest ++ '\x00' :: tail)) written.length c =
      some (written ++ [c] ++ gap' ++ (rest ++ '\x00' :: tail)) := by
    have before : written ++ gap ++ (c :: rest ++ '\x00' :: tail) =
        written ++ d :: (gap' ++ (rest ++ '\x00' :: tail)) := by
      rw [← List.cons_append, ← moved]
      simp
    rw [before, store_append]
    simp
  have again : (written ++ [c] ++ gap' ++ (rest ++ '\x00' :: tail))[(written ++ gap).length]? =
      some c := by
    cases gap with
    | nil =>
        obtain ⟨-, rfl⟩ := List.cons.inj moved
        simp
    | cons e gap =>
        obtain ⟨-, rfl⟩ := List.cons.inj moved
        simp
  have length : (written ++ gap).length + 1 = (written ++ [c] ++ gap').length := by
    have := congrArg List.length moved
    simp only [List.length_append, List.length_cons, List.length_nil] at this ⊢
    omega
  refine ⟨if ¬ isspace c ∧ first = none then some (written ++ gap).length else first, ?_, ?_⟩
  · grind
  · have marked : (if ¬ isspace c ∧ first = none then some (written ++ gap).length else first) ≠
        none := by grind
    rw [round, midway, here, Option.bind_some, if_neg plain]
    simp only [if_pos marked, stored, Option.bind_eq_bind, Option.bind_some, again]
    rw [length]
    cases isspace c <;> simp [midway]

theorem trimScan_kept (kept : isspace c = false ∨ written ≠ []) :
    trimScan (c :: rest) (written, last) =
      trimScan rest (written ++ [c], if isspace c then last else some (written.length + 1)) := by
  rw [trimScan]
  cases space : isspace c with
  | false => rfl
  | true =>
      have nonempty : written ≠ [] := kept.resolve_left (by simp [space])
      rw [if_pos rfl, if_pos rfl, if_neg nonempty]

/-- From there the loop leaves what the scan of the string leaves, and the gap takes what it did
not write. -/
def EndsScan (written gap rest tail : List Char) (first last : Option Nat) : Prop :=
  ∃ gap' first', Ends round (midway written gap rest tail first last)
      (midway (trimScan rest (written, last)).1 gap' [] tail first'
        (trimScan rest (written, last)).2) ∧
    (trimScan rest (written, last)).1.length + gap'.length =
      written.length + gap.length + rest.length ∧
    ((trimScan rest (written, last)).1 = [] → gap' = gap ++ rest)

theorem ends_nil : EndsScan written gap [] tail first last := by
  refine ⟨gap, first, ends_of_done round_end, rfl, ?_⟩
  intro _
  exact (List.append_nil gap).symm

theorem ends_leading (plain : c ≠ '\x00') (space : isspace c)
    (next : EndsScan [] (gap ++ [c]) rest tail none last) :
    EndsScan [] gap (c :: rest) tail none last := by
  obtain ⟨gap', first', ends, length, blank⟩ := next
  rw [EndsScan, trimScan, if_pos space, if_pos rfl]
  refine ⟨gap', first', (ends_again_iff (round_leading plain space)).mpr ends, ?_, ?_⟩
  · simp only [List.length_append, List.length_cons, List.length_nil] at length ⊢
    omega
  · intro empty
    rw [blank empty, List.append_assoc, List.singleton_append]

theorem ends_kept (plain : c ≠ '\x00') (kept : isspace c = false ∨ written ≠ [])
    (marked : first = none ↔ written = [])
    (next : ∀ gap' first', first' ≠ none → EndsScan (written ++ [c]) gap' rest tail first'
      (if isspace c then last else some (written.length + 1))) :
    EndsScan written gap (c :: rest) tail first last := by
  obtain ⟨d, moved_gap, moved⟩ := List.exists_cons_of_ne_nil
    (List.append_ne_nil_of_right_ne_nil gap (List.cons_ne_nil c []))
  obtain ⟨next_first, marker, again⟩ := round_kept written rest tail last plain
    (kept.imp_right (mt marked.mp)) moved
  obtain ⟨gap', first', ends, length, -⟩ := next moved_gap next_first marker
  rw [EndsScan, trimScan_kept kept]
  refine ⟨gap', first', (ends_again_iff again).mpr ends, ?_, ?_⟩
  · have := congrArg List.length moved
    simp only [List.length_append, List.length_cons, List.length_nil] at this length ⊢
    omega
  · intro empty
    rw [trimScan_written (by simp)] at empty
    simp at empty

/-- By induction on what is still to be scanned. -/
theorem ends_midway (written gap tail : List Char) (first last : Option Nat)
    (plain : '\x00' ∉ rest) (marked : first = none ↔ written = []) :
    EndsScan written gap rest tail first last := by
  induction rest generalizing written gap first last with
  | nil => exact ends_nil
  | cons c rest ih =>
      obtain ⟨nonzero, plain⟩ := List.ne_and_not_mem_of_not_mem_cons plain
      by_cases kept : isspace c = false ∨ written ≠ []
      · refine ends_kept (Ne.symm nonzero) kept marked ?_
        intro gap' first' marker
        exact ih _ gap' first' _ plain (by simp [marker])
      · obtain ⟨space, empty⟩ := not_or.mp kept
        obtain rfl := not_not.mp empty
        obtain rfl := marked.mpr rfl
        exact ends_leading (Ne.symm nonzero) (Bool.eq_true_of_not_eq_false space)
          (ih [] (gap ++ [c]) none last plain marked)

end Trim

section Calls
variable {memory str str' after after' : List Char}

theorem trims_iff : Trims memory after ↔
    ∃ s, Ends Trim.round ⟨memory, 0, 0, none, none⟩ s ∧ s.terminate = some after := by
  constructor
  · rintro ⟨fuel, call⟩
    obtain ⟨after', left, same⟩ := Option.map_eq_some_iff.mp call
    obtain ⟨s, ended, terminated⟩ := Option.bind_eq_some_iff.mp left
    exact ⟨s, ⟨fuel, ended⟩, terminated.trans same⟩
  · rintro ⟨s, ⟨fuel, ended⟩, terminated⟩
    refine ⟨fuel, ?_⟩
    rw [locUtilTrimSpace, ended, Option.bind_some, terminated, Option.map_some]

theorem Trims.unique (call : Trims memory after) (call' : Trims memory after') :
    after = after' := by
  obtain ⟨s, ends, left⟩ := trims_iff.mp call
  obtain ⟨s', ends', left'⟩ := trims_iff.mp call'
  obtain rfl := ends.unique ends'
  exact Option.some.inj (left.symm.trans left')

theorem Holds.cString_eq (holds : Holds memory str) : cString memory = str := by
  obtain ⟨plain, tail, rfl⟩ := holds
  rw [List.append_assoc, List.singleton_append]
  exact DelimitedText.takeWhile_ne_cons plain tail

theorem Holds.unique (holds : Holds memory str) (holds' : Holds memory str') : str = str' :=
  holds.cString_eq.symm.trans holds'.cString_eq

/-- White space only is left as it is. -/
theorem trims_blank (str : List Char) (plain : '\x00' ∉ str) (blank : ∀ c ∈ str, isspace c)
    (tail : List Char) :
    Trims (str ++ '\x00' :: tail) (str ++ '\x00' :: tail) := by
  obtain ⟨gap, first, ends, -, kept⟩ := Trim.ends_midway [] [] tail none none plain
    (by simp)
  rw [trimScan_spaces blank, if_pos rfl] at ends kept
  obtain rfl := kept rfl
  exact trims_iff.mpr ⟨_, ends, rfl⟩

theorem trims_nonblank (plain : '\x00' ∉ str) (nonblank : ∃ c ∈ str, isspace c = false)
    (tail : List Char) : ∃ left, (strip str).length + left.length = str.length ∧
      Trims (str ++ '\x00' :: tail) (strip str ++ '\x00' :: (left ++ tail)) := by
  obtain ⟨gap, first, ends, length, -⟩ := Trim.ends_midway [] [] tail none none plain
    (by simp)
  obtain ⟨written, n, scanned, le, -⟩ := trimScan_nonblank nonblank
  have stripped := locUtilTrimSpace_eq_strip nonblank
  rw [LocCfg.locUtilTrimSpace, scanned] at stripped
  rw [scanned] at ends length
  simp only [List.length_nil, Nat.zero_add] at length
  have taken : (written ++ gap ++ '\x00' :: tail).take n = strip str := by
    rw [List.append_assoc, List.take_append_of_le_length le]
    exact stripped
  have behind : (written ++ gap ++ '\x00' :: tail).drop (n + 1) =
      (written ++ gap ++ ['\x00']).drop (n + 1) ++ tail := by
    rw [← List.singleton_append, ← List.append_assoc, List.drop_append_of_le_length]
    simp only [List.length_append, List.length_singleton]
    omega
  refine ⟨(written ++ gap ++ ['\x00']).drop (n + 1), ?_, trims_iff.mpr ⟨_, ends, ?_⟩⟩
  · rw [← stripped]
    simp only [List.length_take, List.length_drop, List.length_append, List.length_singleton]
    omega
  · change store (written ++ gap ++ '\x00' :: tail) n '\x00' = _
    rw [store_of_lt (by simp; omega), taken, behind]

theorem trims_trimmed (plain : '\x00' ∉ str) (nonempty : str ≠ []) (trimmed : Trimmed str)
    (tail : List Char) : Trims (str ++ '\x00' :: tail) (str ++ '\x00' :: tail) := by
  have nonblank : ∃ c ∈ str, isspace c = false :=
    ⟨str.head nonempty, List.head_mem nonempty, trimmed.head _ (List.head?_eq_some_head nonempty)⟩
  have whole : LocCfg.locUtilTrimSpace ([] ++ str ++ []) = str :=
    locUtilTrimSpace_eq nonempty trimmed (by simp)
  rw [List.nil_append, List.append_nil, locUtilTrimSpace_eq_strip nonblank] at whole
  obtain ⟨left, length, call⟩ := trims_nonblank plain nonblank tail
  rw [whole] at length call
  obtain rfl : left = [] := List.length_eq_zero_iff.mp (by omega)
  exact call

theorem holds_append (str : List Char) (plain : '\x00' ∉ str) (tail : List Char) :
    Holds (str ++ '\x00' :: tail) str :=
  ⟨plain, tail, by simp⟩

/-- On memory a call does what the function on strings does, and a second one does nothing. -/
theorem call_trims (plain : '\x00' ∉ str) (tail : List Char) :
    ∃ after, Trims (str ++ '\x00' :: tail) after ∧
      after.length = (str ++ '\x00' :: tail).length ∧
      Holds after (LocCfg.locUtilTrimSpace str) ∧ Trims after after := by
  by_cases nonblank : ∃ c ∈ str, isspace c = false
  · have plain' : '\x00' ∉ strip str := by
      rw [← locUtilTrimSpace_eq_strip nonblank]
      exact fun mem => plain (mem_locUtilTrimSpace mem)
    obtain ⟨left, length, call⟩ := trims_nonblank plain nonblank tail
    have again := trims_trimmed plain' (strip_ne_nil nonblank) (strip_trimmed str) (left ++ tail)
    rw [locUtilTrimSpace_eq_strip nonblank]
    refine ⟨_, call, ?_, holds_append _ plain' _, again⟩
    simp only [List.length_append, List.length_cons]
    omega
  · have blank : ∀ c ∈ str, isspace c := by simpa using nonblank
    have call := trims_blank str plain blank tail
    rw [locUtilTrimSpace_blank blank]
    exact ⟨_, call, rfl, holds_append str plain tail, call⟩

/-- A call leaves the stripped string, and the next one leaves all as it is. -/
theorem call_strips_in_place_iff (holds : Holds memory str) :
    (∃ after, Trims memory after ∧ after.length = memory.length ∧ Holds after (strip str) ∧
      Trims after after) ↔ str = [] ∨ ∃ c ∈ str, isspace c = false := by
  obtain ⟨plain, tail, rfl⟩ := holds
  rw [List.append_assoc, List.singleton_append, ← locUtilTrimSpace_eq_strip_iff]
  obtain ⟨after, call, length, left, again⟩ := call_trims plain tail
  constructor
  · rintro ⟨after', call', -, stripped, -⟩
    obtain rfl := call.unique call'
    exact left.unique stripped
  · intro same
    exact ⟨after, call, length, same ▸ left, again⟩

theorem text_is_stripped : ∃ after, Trims " a b \x00".toList after ∧
    after.length = " a b \x00".toList.length ∧ Holds after (strip " a b ".toList) ∧
    Trims after after :=
  (call_strips_in_place_iff (holds_append " a b ".toList (by decide) [])).mpr
    (.inr ⟨'a', by decide, by decide⟩)

/-- One blank stays. -/
theorem blank_is_not_stripped : Holds " \x00".toList " ".toList ∧
    ¬ ∃ after, Trims " \x00".toList after ∧ Holds after (strip " ".toList) := by
  refine ⟨holds_append [' '] (by decide) [], ?_⟩
  rintro ⟨after, call, holds⟩
  have blank : ∀ c ∈ [' '], isspace c := List.forall_mem_singleton.mpr rfl
  obtain rfl := (trims_blank [' '] (by decide) blank []).unique call
  have same := (holds_append [' '] (by decide) []).unique holds
  rw [show " ".toList = [' '] from rfl, strip_eq_nil_iff.mpr blank] at same
  cases same

end Calls
end Msm8974.MiscUtils
