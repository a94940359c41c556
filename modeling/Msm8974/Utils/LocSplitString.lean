import Msm8974.Utils.LocTrimSpace

/-!
loc_util_split_string on memory. Between two rounds of its loop the fields that were ended stand
in front with a terminator each, and every entry up to the one for the field being scanned points
to where that field starts.
-/

namespace Msm8974.MiscUtils
open Loops LocCfg DelimitedText

/-- What was assigned up to the entry behind these fields. -/
def entries (fields : List (List Char)) : List (Nat × Nat) :=
  (List.range (fields.length + 1)).map fun i => (i, (terminated '\x00' (fields.take i)).length)

section Entries
variable {fields : List (List Char)} {field : List Char}

theorem entries_concat (fields : List (List Char)) (field : List Char) :
    entries (fields ++ [field]) =
      entries fields ++ [(fields.length + 1, (terminated '\x00' (fields ++ [field])).length)] := by
  rw [entries, List.length_append, List.length_singleton, List.range_succ, List.map_append]
  refine congrArg₂ (· ++ ·) (List.map_congr_left ?_) ?_
  · intro i mem
    have le : i ≤ fields.length := Nat.le_of_lt_succ (List.mem_range.mp mem)
    rw [List.take_append_of_le_length le]
  · rw [List.map_singleton, List.take_of_length_le (by simp)]

theorem mem_entries {entry : Nat × Nat} (mem : entry ∈ entries fields) :
    entry.1 ≤ fields.length := by
  obtain ⟨i, listed, rfl⟩ := List.mem_map.mp mem
  exact Nat.le_of_lt_succ (List.mem_range.mp listed)

theorem first_mem_entries (fields : List (List Char)) : (0, 0) ∈ entries fields :=
  List.mem_map.mpr ⟨0, List.mem_range.mpr (Nat.succ_pos _), rfl⟩

theorem lookup_entries {i : Nat} (le : i ≤ fields.length) :
    (entries fields).reverse.lookup i = some (terminated '\x00' (fields.take i)).length := by
  induction fields using List.reverseRecOn with
  | nil =>
      obtain rfl := Nat.le_zero.mp le
      rfl
  | append_singleton fields field ih =>
      rw [entries_concat, List.reverse_append, List.reverse_singleton, List.singleton_append]
      by_cases last : i = fields.length + 1
      · subst last
        rw [List.lookup_cons_self, List.take_of_length_le (by simp)]
      · have before : i ≤ fields.length := by
          rw [List.length_append, List.length_singleton] at le
          omega
        rw [List.lookup_cons, beq_eq_false_iff_ne.mpr last, ih before,
          List.take_append_of_le_length before]

theorem terminated_concat (fields : List (List Char)) (field : List Char) :
    terminated '\x00' (fields ++ [field]) = terminated '\x00' fields ++ field ++ ['\x00'] := by
  rw [terminated_append, terminated, terminated, List.flatMap_singleton, List.append_assoc]

/-- Where the scan is behind these fields and a part of the next one. -/
def index (fields : List (List Char)) (field : List Char) : Nat :=
  (terminated '\x00' fields ++ field).length

theorem index_inside (c : Char) : index fields (field ++ [c]) = index fields field + 1 := by
  rw [index, ← List.append_assoc, List.length_append, List.length_singleton, index]

theorem index_field : index (fields ++ [field]) [] = index fields field + 1 := by
  rw [index, terminated_concat, List.append_nil, List.length_append, List.length_singleton, index]

end Entries

namespace Split
variable {fields : List (List Char)} {field rest str behind : List Char} {c delimiter : Char}
  {raw_string_length max_num_substrings : Int}

/-- Between two rounds: the fields that were ended, what was scanned of the next one, and the rest
of the memory. -/
def midway (fields : List (List Char)) (field rest : List Char) : Split :=
  ⟨terminated '\x00' fields ++ field ++ rest, entries fields, index fields field, fields.length⟩

theorem round_beyond (beyond : raw_string_length ≤ index fields field) :
    round raw_string_length max_num_substrings delimiter (midway fields field rest) =
      some (.done (midway fields field rest)) := by
  rw [round, midway, if_neg (Int.not_lt.mpr beyond)]

theorem read_next :
    (terminated '\x00' fields ++ field ++ c :: rest)[index fields field]? = some c :=
  getElem?_append_cons _ _ _

theorem store_next :
    store (terminated '\x00' fields ++ field ++ c :: rest) (index fields field) '\x00' =
      some (terminated '\x00' (fields ++ [field]) ++ rest) := by
  rw [index, store_append, terminated_concat, List.append_assoc _ ['\x00'], List.singleton_append]

theorem round_inside (more : index fields field < raw_string_length)
    (plain : c ≠ '\x00') (other : c ≠ delimiter) :
    round raw_string_length max_num_substrings delimiter (midway fields field (c :: rest)) =
      some (.again (midway fields (field ++ [c]) rest)) := by
  rw [round, midway, if_pos more, read_next, Option.bind_some, if_neg (not_or.mpr ⟨other, plain⟩),
    midway, index_inside]
  simp

theorem round_field (more : index fields field + 1 < raw_string_length)
    (plain : delimiter ≠ '\x00') (left : (fields.length + 1 : Int) < max_num_substrings) :
    round raw_string_length max_num_substrings delimiter (midway fields field (delimiter :: rest)) =
      some (.again (midway (fields ++ [field]) [] rest)) := by
  have inside : (index fields field : Int) < raw_string_length := by omega
  rw [round, midway, if_pos inside, read_next, Option.bind_some, if_pos (.inl rfl), store_next,
    Option.map_some]
  simp only [if_neg plain]
  rw [if_pos ⟨more, by simpa using left⟩, midway, entries_concat, index_field]
  simp [index, terminated_concat, Nat.add_assoc]

/-- The last entry is full, or the string ends here. -/
theorem round_last (more : index fields field < raw_string_length)
    (here : c = delimiter ∨ c = '\x00')
    (last : raw_string_length ≤ index fields field + 1 ∨ max_num_substrings ≤ fields.length + 1) :
    round raw_string_length max_num_substrings delimiter (midway fields field (c :: rest)) =
      some (.done ⟨terminated '\x00' (fields ++ [field]) ++ rest, entries fields,
        index fields field, fields.length + 1⟩) := by
  have full : ¬ ((index fields field + 1 : Int) < raw_string_length ∧
      ((fields.length + 1 : Nat) : Int) < max_num_substrings) := by omega
  rw [round, midway, if_pos more, read_next, Option.bind_some, if_pos here, store_next,
    Option.map_some]
  simp only [if_neg full]

/-- How many fields end before the length does, each at a delimiter but the last. -/
def ending (delimiter : Char) (rest : List Char) (raw_string_length : Int) : Nat :=
  (rest.take raw_string_length.toNat).count delimiter +
    if raw_string_length = rest.length + 1 then 1 else 0

theorem ending_of_nonpos (nonpos : raw_string_length ≤ 0) :
    ending delimiter rest raw_string_length = 0 := by
  rw [ending, Int.toNat_of_nonpos nonpos, List.take_zero, List.count_nil, if_neg (by omega)]

theorem ending_cons (more : 0 < raw_string_length) :
    ending delimiter (c :: rest) raw_string_length =
      ending delimiter rest (raw_string_length - 1) + if c = delimiter then 1 else 0 := by
  have once : raw_string_length.toNat = (raw_string_length - 1).toNat + 1 := by omega
  have length : raw_string_length = (c :: rest).length + 1 ↔
      raw_string_length - 1 = rest.length + 1 := by
    rw [List.length_cons]
    omega
  rw [ending, ending, once, List.take_succ_cons, List.count_cons]
  simp only [length, beq_iff_eq]
  omega

/-- What is left when these fields were ended. -/
structure Leaves (max_num_substrings : Int) (ended : List (List Char)) (s : Split) : Prop where
  num_split_strings : s.num_split_strings = ended.length
  raw_string : ∃ rest, s.raw_string = terminated '\x00' ended ++ rest
  split_strings_ptr : ∃ fields, s.split_strings_ptr = entries fields ∧
    (fields.length : Int) < max 1 max_num_substrings ∧
    ∀ i < ended.length, i ≤ fields.length ∧ fields.take i = ended.take i

theorem leaves_midway (bounded : (fields.length : Int) < max 1 max_num_substrings) :
    Leaves max_num_substrings fields (midway fields field rest) where
  num_split_strings := rfl
  raw_string := ⟨field ++ rest, List.append_assoc _ _ _⟩
  split_strings_ptr := ⟨fields, rfl, bounded, fun _ lt => ⟨Nat.le_of_lt lt, rfl⟩⟩

theorem leaves_last {index : Nat} (bounded : (fields.length : Int) < max 1 max_num_substrings) :
    Leaves max_num_substrings (fields ++ [field])
      ⟨terminated '\x00' (fields ++ [field]) ++ rest, entries fields, index,
        fields.length + 1⟩ where
  num_split_strings := by simp
  raw_string := ⟨rest, rfl⟩
  split_strings_ptr := by
    refine ⟨fields, rfl, bounded, ?_⟩
    intro i lt
    have le : i ≤ fields.length := by simpa [Nat.lt_succ_iff] using lt
    exact ⟨le, (List.take_append_of_le_length le).symm⟩

/-- From there the loop ends a prefix of the fields, as many as there is room for. -/
def EndsFields (raw_string_length max_num_substrings : Int) (delimiter : Char)
    (fields : List (List Char)) (field str behind : List Char) : Prop :=
  ∃ ended s, Ends (round raw_string_length max_num_substrings delimiter)
      (midway fields field (str ++ '\x00' :: behind)) s ∧
    Leaves max_num_substrings ended s ∧
    ended <+: fields ++ (field ++ str).splitOn delimiter ∧
    (ended.length : Int) = min (max 1 max_num_substrings)
      (fields.length + ending delimiter str (raw_string_length - index fields field))

theorem ends_beyond (bounded : (fields.length : Int) < max 1 max_num_substrings)
    (beyond : raw_string_length ≤ index fields field) :
    EndsFields raw_string_length max_num_substrings delimiter fields field str behind := by
  refine ⟨fields, _, ends_of_done (round_beyond beyond), leaves_midway bounded,
    List.prefix_append _ _, ?_⟩
  rw [ending_of_nonpos (by omega)]
  omega

theorem ends_last (bounded : (fields.length : Int) < max 1 max_num_substrings)
    (free : delimiter ∉ field) (last : raw_string_length = index fields field + 1) :
    EndsFields raw_string_length max_num_substrings delimiter fields field [] behind := by
  refine ⟨fields ++ [field], _, ends_of_done (round_last (by omega) (.inr rfl) (.inl (by omega))),
    leaves_last bounded, ?_, ?_⟩
  · exact ⟨[], by simp [List.splitOn_eq_singleton free]⟩
  · have one : ending delimiter [] (raw_string_length - index fields field) = 1 := by
      rw [ending, if_pos (by simp; omega), List.take_nil, List.count_nil]
    rw [one, List.length_append, List.length_singleton]
    omega

theorem ends_inside (more : index fields field < raw_string_length)
    (plain : c ≠ '\x00') (other : c ≠ delimiter)
    (next : EndsFields raw_string_length max_num_substrings delimiter fields (field ++ [c]) str
      behind) :
    EndsFields raw_string_length max_num_substrings delimiter fields field (c :: str) behind := by
  obtain ⟨ended, s, ends, leaves, first, length⟩ := next
  refine ⟨ended, s, (ends_again_iff (round_inside more plain other)).mpr ends, leaves, ?_, ?_⟩
  · rwa [List.append_assoc, List.singleton_append] at first
  · rw [length, ending_cons (by omega), if_neg other, index_inside, Int.natCast_succ, Int.sub_sub,
      Nat.add_zero]

theorem ends_field (free : delimiter ∉ field) (plain : delimiter ≠ '\x00')
    (bounded : (fields.length : Int) < max 1 max_num_substrings)
    (more : index fields field < raw_string_length)
    (next : (fields.length + 1 : Int) < max_num_substrings →
      EndsFields raw_string_length max_num_substrings delimiter (fields ++ [field]) [] str behind) :
    EndsFields raw_string_length max_num_substrings delimiter fields field (delimiter :: str)
      behind := by
  have split : fields ++ (field ++ delimiter :: str).splitOn delimiter =
      fields ++ [field] ++ str.splitOn delimiter := by
    rw [List.splitOn_append_cons_self_of_not_mem free, List.append_assoc, List.singleton_append]
  have ending_eq : ending delimiter (delimiter :: str) (raw_string_length - index fields field) =
      ending delimiter str (raw_string_length - index fields field - 1) + 1 := by
    rw [ending_cons (by omega), if_pos rfl]
  by_cases left : (index fields field + 1 : Int) < raw_string_length ∧
      (fields.length + 1 : Int) < max_num_substrings
  · obtain ⟨ended, s, ends, leaves, first, length⟩ := next left.2
    refine ⟨ended, s, (ends_again_iff (round_field left.1 plain left.2)).mpr ends, leaves, ?_, ?_⟩
    · rwa [split]
    · rw [length, ending_eq, index_field, Int.natCast_succ, Int.sub_sub, List.length_append,
        List.length_singleton]
      omega
  · refine ⟨fields ++ [field], _, ends_of_done (round_last more (.inl rfl) (by omega)),
      leaves_last bounded, ?_, ?_⟩
    · rw [split]
      exact List.prefix_append _ _
    · rw [ending_eq, List.length_append, List.length_singleton]
      by_cases full : (fields.length + 1 : Int) < max_num_substrings
      · rw [ending_of_nonpos (by omega)]
        omega
      · omega

/-- By induction on what is still to be scanned. -/
theorem ends_midway (behind : List Char) (plain : '\x00' ∉ str) (nonzero : delimiter ≠ '\x00')
    (bounded : (fields.length : Int) < max 1 max_num_substrings) (free : delimiter ∉ field)
    (le : raw_string_length ≤ index fields field + str.length + 1) :
    EndsFields raw_string_length max_num_substrings delimiter fields field str behind := by
  induction str generalizing fields field with
  | nil =>
      by_cases beyond : raw_string_length ≤ index fields field
      · exact ends_beyond bounded beyond
      · rw [List.length_nil] at le
        exact ends_last bounded free (by omega)
  | cons c str ih =>
      obtain ⟨other, plain⟩ := List.ne_and_not_mem_of_not_mem_cons plain
      rw [List.length_cons] at le
      by_cases beyond : raw_string_length ≤ index fields field
      · exact ends_beyond bounded beyond
      · have more : (index fields field : Int) < raw_string_length := by omega
        by_cases here : c = delimiter
        · subst here
          refine ends_field free nonzero bounded more ?_
          intro left
          refine ih plain ?_ List.not_mem_nil ?_
          · rw [List.length_append, List.length_singleton]
            omega
          · rw [index_field]
            omega
        · refine ends_inside more (Ne.symm other) here (ih plain bounded ?_ ?_)
          · rw [List.mem_append, List.mem_singleton]
            exact not_or.mpr ⟨free, Ne.symm here⟩
          · rw [index_inside]
            omega

end Split

/-- A call of loc_util_split_string with an array returns and leaves this. -/
def Splits (raw_string : List Char) (max_num_substrings : Int) (delimiter : Char)
    (call : SplitCall) : Prop :=
  ∃ fuel, locUtilSplitString fuel (some raw_string) true max_num_substrings delimiter = some call

namespace SplitCall

/-- The pointer in an entry afterwards. -/
def pointer (call : SplitCall) (i : Nat) : Option Nat := call.split_strings_ptr.reverse.lookup i

/-- The string that an entry denotes afterwards. -/
def Denotes (call : SplitCall) (i : Nat) (field : List Char) : Prop :=
  ∃ raw_string p, call.raw_string = some raw_string ∧ call.pointer i = some p ∧
    Holds (raw_string.drop p) field

/-- What it leaves when these fields were ended and there was room for so many. -/
structure Ended (call : SplitCall) (room : Int) (ended : List (List Char)) : Prop where
  first : (0, 0) ∈ call.split_strings_ptr
  bounded : ∀ entry ∈ call.split_strings_ptr, (entry.1 : Int) < room
  returned : call.num_split_strings = ended.length
  denotes : ∀ (i : Nat) field, ended[i]? = some field → call.Denotes i field

/-- The array has the first fields of the string, as many as there is room for. -/
structure Correct (call : SplitCall) (max_num_substrings : Int) (delimiter : Char)
    (str : List Char) : Prop where
  bounded : ∀ entry ∈ call.split_strings_ptr, (entry.1 : Int) < max_num_substrings
  returned : call.num_split_strings = min max_num_substrings (str.count delimiter + 1)
  fields : ∀ i : Nat, i < call.num_split_strings →
    ∃ field, (str.splitOn delimiter)[i]? = some field ∧ call.Denotes i field

end SplitCall

section Calls
variable {memory str : List Char} {delimiter : Char} {max_num_substrings : Int}
  {call call' : SplitCall}

theorem splits_iff : Splits memory max_num_substrings delimiter call ↔
    ∃ s, Ends (Split.round (rawStringLength memory) max_num_substrings delimiter)
      ⟨memory, [(0, 0)], 0, 0⟩ s ∧
      call = ⟨some s.raw_string, s.split_strings_ptr, s.num_split_strings⟩ := by
  constructor
  · rintro ⟨fuel, returned⟩
    obtain ⟨s, ended, rfl⟩ := Option.map_eq_some_iff.mp returned
    exact ⟨s, ⟨fuel, ended⟩, rfl⟩
  · rintro ⟨s, ⟨fuel, ended⟩, rfl⟩
    refine ⟨fuel, ?_⟩
    rw [locUtilSplitString, ended, Option.map_some]

theorem Splits.unique (splits : Splits memory max_num_substrings delimiter call)
    (splits' : Splits memory max_num_substrings delimiter call') : call = call' := by
  obtain ⟨s, ends, rfl⟩ := splits_iff.mp splits
  obtain ⟨s', ends', rfl⟩ := splits_iff.mp splits'
  rw [ends.unique ends']

theorem rawStringLength_le (holds : Holds memory str) :
    rawStringLength memory ≤ str.length + 1 := by
  rw [rawStringLength, holds.cString_eq, BitVec.toInt_eq_toNat_cond, BitVec.toNat_ofNat]
  omega

theorem ended_of_leaves {s : Split} {ended : List (List Char)}
    (leaves : s.Leaves max_num_substrings ended) (plain : ∀ field ∈ ended, '\x00' ∉ field) :
    SplitCall.Ended ⟨some s.raw_string, s.split_strings_ptr, s.num_split_strings⟩
      (max 1 max_num_substrings) ended := by
  obtain ⟨rest, raw_string⟩ := leaves.raw_string
  obtain ⟨fields, assigned, bounded, same⟩ := leaves.split_strings_ptr
  refine ⟨?_, ?_, ?_, ?_⟩
  · rw [assigned]
    exact first_mem_entries fields
  · intro entry mem
    rw [assigned] at mem
    have := mem_entries mem
    omega
  · rw [leaves.num_split_strings]
  · intro i field here
    obtain ⟨lt, rfl⟩ := List.getElem?_eq_some_iff.mp here
    obtain ⟨le, taken⟩ := same i lt
    refine ⟨_, _, rfl, by rw [SplitCall.pointer, assigned, lookup_entries le],
      plain _ (List.getElem_mem lt), ?_⟩
    have split : s.raw_string = terminated '\x00' (fields.take i) ++
        (terminated '\x00' (ended.drop i) ++ rest) := by
      rw [raw_string, taken, ← List.append_assoc, ← terminated_append, List.take_append_drop]
    rw [split, List.drop_left, List.drop_eq_getElem_cons lt, terminated, List.flatMap_cons,
      List.append_assoc]
    exact List.prefix_append _ _

/-- With no room at all the first entry is used nevertheless. -/
theorem call_splits (max_num_substrings : Int) (holds : Holds memory str)
    (nonzero : delimiter ≠ '\x00') :
    ∃ call ended, Splits memory max_num_substrings delimiter call ∧
      call.Ended (max 1 max_num_substrings) ended ∧ ended <+: str.splitOn delimiter ∧
      (ended.length : Int) = min (max 1 max_num_substrings)
        (Split.ending delimiter str (rawStringLength memory)) := by
  have le := rawStringLength_le holds
  have bounded : (([] : List (List Char)).length : Int) < max 1 max_num_substrings := by simp
  obtain ⟨plain, behind, rfl⟩ := holds
  obtain ⟨ended, s, ends, leaves, first, length⟩ := Split.ends_midway behind plain nonzero
    bounded List.not_mem_nil (by simpa [index, terminated] using le)
  rw [List.append_assoc, List.singleton_append]
  refine ⟨_, ended, splits_iff.mpr ⟨s, ends, rfl⟩, ended_of_leaves leaves ?_, first, ?_⟩
  · intro field mem zero
    exact plain (subset_of_mem_splitOn (first.subset mem) zero)
  · simpa [index, terminated] using length

/-- The loop counts in an int, which has room for the string unless it is very long. -/
theorem call_splits_iff (holds : Holds memory str) (nonzero : delimiter ≠ '\x00') :
    (∃ call, Splits memory max_num_substrings delimiter call ∧
      call.Correct max_num_substrings delimiter str) ↔
    1 ≤ max_num_substrings ∧ (rawStringLength memory = str.length + 1 ∨
      max_num_substrings ≤ (str.take (rawStringLength memory).toNat).count delimiter) := by
  obtain ⟨call, ended, splits, spec, first, length⟩ :=
    call_splits max_num_substrings holds nonzero
  rw [Split.ending] at length
  have enough : (str.take (rawStringLength memory).toNat).count delimiter ≤ str.count delimiter :=
    (List.take_sublist _ _).count_le _
  constructor
  · rintro ⟨call', splits', correct⟩
    obtain rfl := splits.unique splits'
    have room := correct.bounded _ spec.first
    have returned := correct.returned
    rw [spec.returned, length] at returned
    refine ⟨by omega, ?_⟩
    by_cases fits : rawStringLength memory = str.length + 1
    · exact .inl fits
    · rw [if_neg fits] at returned
      omega
  · rintro ⟨room, kind⟩
    rw [max_eq_right room] at spec length
    refine ⟨call, splits, spec.bounded, ?_, ?_⟩
    · rw [spec.returned, length]
      by_cases fits : rawStringLength memory = str.length + 1
      · rw [if_pos fits, List.take_of_length_le (by omega)]
        omega
      · rw [if_neg fits]
        have := kind.resolve_left fits
        omega
    · intro i lt
      rw [spec.returned, Int.ofNat_lt] at lt
      have here : ended[i]? = some ended[i] := List.getElem?_eq_getElem lt
      refine ⟨ended[i], ?_, spec.denotes i _ here⟩
      rw [← here]
      exact (List.prefix_iff_getElem?.mp first i lt).trans here.symm

theorem two_of_three_fields_are_found : ∃ call, Splits "a,,b\x00".toList 2 ',' call ∧
    call.Correct 2 ',' "a,,b".toList :=
  (call_splits_iff (holds_append "a,,b".toList (by decide) []) (by decide)).mpr
    ⟨by decide, .inl (by decide)⟩

/-- An entry is written, and counted, where none is asked for. -/
theorem no_field_is_asked_for : ¬ ∃ call, Splits "a\x00".toList 0 ',' call ∧
    call.Correct 0 ',' "a".toList := by
  rintro ⟨call, splits, correct⟩
  obtain ⟨call', ended, splits', spec, -, -⟩ := call_splits 0
    (holds_append ['a'] (by decide) []) (show ',' ≠ '\x00' by decide)
  obtain rfl := splits.unique splits'
  have := correct.bounded _ spec.first
  omega

end Calls
end Msm8974.MiscUtils
