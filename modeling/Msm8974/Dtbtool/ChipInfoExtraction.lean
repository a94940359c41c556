import Mathlib.Data.List.Perm.Basic
import Msm8974.Dtbtool.ChipInfoText

/-!
What getChipInfo makes of the property lines. A line's text is one tag, values with blanks between
them, and the closing bracket at the last one. The tokens of such a text are taken one by one,
and both tags end with the only opening bracket of their line, so that no line is
taken for another.
-/

namespace Msm8974.Dtbtool
open LocCfg (isspace digit)

section Strstr
variable {needle line : CString}

theorem strstr_eq_none : strstr needle line = none ↔ ¬ needle <:+: line := by
  induction line with
  | nil => cases needle <;> simp [strstr]
  | cons c line ih =>
      rw [strstr, List.infix_cons_iff, not_or, ← List.isPrefixOf_iff_prefix]
      cases needle.isPrefixOf (c :: line) with
      | true => simp
      | false => simp [ih]

/-- A bracket that stands nowhere else ties a needle that ends with it to its place. -/
theorem infix_bracket_iff {text rest : CString} (before : '<' ∉ text) (behind : '<' ∉ rest) :
    (needle ++ ['<']) <:+: (text ++ '<' :: rest) ↔ needle <:+ text := by
  constructor
  · intro ⟨l, r, same⟩
    simp only [List.append_assoc, List.singleton_append] at same
    rw [← List.append_assoc] at same
    obtain ⟨c, rfl, tail⟩ | ⟨c, front, tail⟩ := List.append_eq_append_iff.mp same
    · cases c with
      | nil => exact ⟨l, (List.append_nil _).symm⟩
      | cons d c =>
          obtain ⟨rfl, -⟩ := List.cons.inj tail
          simp at before
    · cases c with
      | nil => exact ⟨l, by simpa using front⟩
      | cons d c =>
          obtain ⟨rfl, rest_eq⟩ := List.cons.inj tail
          simp [rest_eq] at behind
  · intro ⟨l, same⟩
    exact ⟨l, rest, by simp [← same]⟩

theorem strstr_bracket {indent rest : CString} (before : '<' ∉ indent) (inside : '<' ∉ needle) :
    strstr (needle ++ ['<']) (indent ++ (needle ++ '<' :: rest)) = some indent.length := by
  induction indent with
  | nil =>
      have here : (needle ++ ['<']).isPrefixOf (needle ++ '<' :: rest) = true :=
        List.isPrefixOf_iff_prefix.mpr ⟨rest, by simp⟩
      cases h : needle ++ '<' :: rest with
      | nil => simp at h
      | cons c line =>
          rw [h] at here
          rw [List.nil_append, strstr, if_pos here]
          rfl
  | cons c indent ih =>
      obtain ⟨-, before'⟩ := not_or.mp (mt List.mem_cons.mpr before)
      have early : ¬ (needle ++ ['<']) <+: c :: (indent ++ (needle ++ '<' :: rest)) := by
        intro front
        have short : (needle ++ ['<']) <+: c :: (indent ++ needle) := by
          have longer : c :: (indent ++ needle) <+: c :: (indent ++ (needle ++ '<' :: rest)) :=
            ⟨'<' :: rest, by simp⟩
          exact List.prefix_of_prefix_length_le front longer (by simp)
        have mem : '<' ∈ c :: (indent ++ needle) := short.subset (by simp)
        simp only [List.mem_cons, List.mem_append] at mem before
        tauto
      rw [List.cons_append, strstr, if_neg (mt List.isPrefixOf_iff_prefix.mp early), ih before']
      rfl

end Strstr

section Numbers

theorem takeWhile_stop {p : Char → Bool} {s rest : CString} {c : Char} (stop : p c = false) :
    (s ++ c :: rest).takeWhile p = s.takeWhile p := by
  induction s with
  | nil => simp [stop]
  | cons d s ih => simp only [List.cons_append, List.takeWhile_cons, ih]

theorem radix_bracket (s rest : CString) :
    radix (s ++ '>' :: rest) = ((radix s).1, (radix s).2 ++ '>' :: rest) := by
  cases s with
  | nil => simp [radix]
  | cons c s =>
      by_cases zero : c = '0'
      · subst zero
        cases s with
        | nil => cases rest <;> simp [radix]
        | cons x s =>
            cases s with
            | nil => simp [radix, digit]
            | cons d s =>
                simp only [radix, List.cons_append]
                split <;> rfl
      · have decimal : ∀ t, radix (c :: t) = (10, c :: t) := by
          intro t
          simp [radix, zero]
        rw [List.cons_append, decimal, decimal]
        rfl

theorem radix_le (s : CString) : (radix s).1 ≤ 16 := by
  unfold radix
  split
  · split <;> simp
  · simp
  · simp

/-- A bracket is no digit of any base. -/
theorem numeral_bracket (s rest : CString) : numeral (s ++ '>' :: rest) = numeral s := by
  have stop : decide (digit '>' < (radix s).1) = false := by
    have base := radix_le s
    exact decide_eq_false (by rw [show digit '>' = 36 by decide]; omega)
  simp only [numeral, radix_bracket]
  rw [takeWhile_stop (p := fun c => decide (digit c < (radix s).1)) stop]

theorem dropWhile_stop {p : Char → Bool} {s rest : CString} {c : Char} (stop : p c = false) :
    (s ++ c :: rest).dropWhile p = s.dropWhile p ++ c :: rest := by
  induction s with
  | nil => simp [stop]
  | cons d s ih =>
      simp only [List.cons_append, List.dropWhile_cons, ih]
      split <;> rfl

theorem sign_bracket (s rest : CString) :
    sign (s ++ '>' :: rest) = ((sign s).1, (sign s).2 ++ '>' :: rest) := by
  cases s with
  | nil => simp [sign]
  | cons c s =>
      by_cases minus : c = '-'
      · subst minus
        rfl
      · by_cases plus : c = '+'
        · subst plus
          rfl
        · have unsigned : ∀ t, sign (c :: t) = (false, c :: t) := by
            intro t
            simp [sign, minus, plus]
          rw [List.cons_append, unsigned, unsigned]
          rfl

theorem strtoul_bracket (w : Nat) (v rest : CString) :
    strtoul w (v ++ '>' :: rest) = strtoul w v := by
  simp only [strtoul, dropWhile_stop (p := isspace) (c := '>') (by decide), sign_bracket,
    numeral_bracket]

end Numbers

section Tokens

/-- Such a text can stand between the brackets as a value. -/
structure IsValue (v : CString) : Prop where
  nonempty : v ≠ []
  plain : ∀ c ∈ v, isBlank c = false ∧ c ≠ '<' ∧ c ≠ '>'

/-- Values, each with the blanks in front of it. -/
def spaced (items : List (CString × CString)) : CString :=
  items.flatMap fun item => item.1 ++ item.2

structure WellSpaced (items : List (CString × CString)) : Prop where
  blank : ∀ item ∈ items, ∀ c ∈ item.1, isBlank c = true
  apart : ∀ item ∈ items.tail, item.1 ≠ []
  value : ∀ item ∈ items, IsValue item.2

/-- A property as dtc prints it. -/
def propertyLine (indent tag : CString) (items : List (CString × CString)) : CString :=
  indent ++ (tag ++ (spaced items ++ ['>', ';', '\n']))

def numbers (w : Nat) (items : List (CString × CString)) : List (BitVec 32) :=
  items.map fun item => (strtoul w item.2).setWidth 32

/-- What the token loops read from a text, one call of strtok_r after the other. -/
inductive Carries (w : Nat) : CString → List (BitVec 32) → Prop
  | done {s : CString} : strtok_r s = none → Carries w s []
  | close {s tok rest : CString} :
      strtok_r s = some (tok, rest) → tok.head? = some '>' → Carries w s []
  | value {s tok rest : CString} {xs : List (BitVec 32)} :
      strtok_r s = some (tok, rest) → tok.head? ≠ some '>' → Carries w rest xs →
        Carries w s ((strtoul w tok).setWidth 32 :: xs)

theorem strtok_r_token {sep v : CString} (rest : CString)
    (blank : ∀ c ∈ sep, isBlank c = true) (some : v ≠ [])
    (solid : ∀ c ∈ v, isBlank c = false) (ends : ∀ c ∈ rest.head?, isBlank c = true) :
    strtok_r (sep ++ (v ++ rest)) = .some (v, rest.drop 1) := by
  obtain ⟨c, v, rfl⟩ := List.exists_cons_of_ne_nil some
  have first := solid c List.mem_cons_self
  have skipped : (sep ++ (c :: v ++ rest)).dropWhile isBlank = c :: v ++ rest := by
    rw [List.dropWhile_append_of_pos blank, List.cons_append,
      List.dropWhile_cons_of_neg (by simp [first])]
  have all : ∀ d ∈ c :: v, (!isBlank d) = true := fun d mem => by simp [solid d mem]
  have stop : rest.takeWhile (!isBlank ·) = [] ∧ rest.dropWhile (!isBlank ·) = rest := by
    cases rest with
    | nil => exact ⟨rfl, rfl⟩
    | cons d rest => simp [ends d rfl]
  have token : (c :: v ++ rest).takeWhile (!isBlank ·) = c :: v := by
    rw [List.takeWhile_append_of_pos all, stop.1, List.append_nil]
  have behind : (c :: v ++ rest).dropWhile (!isBlank ·) = rest := by
    rw [List.dropWhile_append_of_pos all, stop.2]
  rw [strtok_r, skipped]
  simp only [token, behind, List.cons_append] at *

theorem IsValue.solid {v : CString} (h : IsValue v) : ∀ c ∈ v, isBlank c = false :=
  fun c mem => (h.plain c mem).1

theorem IsValue.head {v : CString} (h : IsValue v) (rest : CString) :
    (v ++ rest).head? ≠ some '>' := by
  obtain ⟨c, v, rfl⟩ := List.exists_cons_of_ne_nil h.nonempty
  have plain := (h.plain c List.mem_cons_self).2.2
  simpa using plain

theorem carries_spaced (w : Nat) (sep v : CString) {items : List (CString × CString)}
    (spacing : WellSpaced ((sep, v) :: items)) :
    Carries w (sep ++ (v ++ (spaced items ++ ['>', ';', '\n'])))
      (numbers w ((sep, v) :: items)) := by
  have blank := spacing.blank (sep, v) List.mem_cons_self
  have value := spacing.value (sep, v) List.mem_cons_self
  induction items generalizing sep v with
  | nil =>
      have solid : ∀ c ∈ v ++ ['>', ';', '\n'], isBlank c = false := by
        intro c mem
        obtain inside | close := List.mem_append.mp mem
        · exact value.solid c inside
        · have closing : ∀ c ∈ ['>', ';', '\n'], isBlank c = false := by simp [isBlank]
          exact closing c close
      have last := strtok_r_token [] blank (by simp) solid (by simp)
      have number : (strtoul w (v ++ ['>', ';', '\n'])).setWidth 32 =
          (strtoul w v).setWidth 32 := by
        rw [strtoul_bracket]
      rw [List.append_nil] at last
      rw [numbers, List.map_cons, ← number]
      exact .value last (value.head _) (.done rfl)
  | cons item items ih =>
      obtain ⟨sep', v'⟩ := item
      have apart := spacing.apart (sep', v') List.mem_cons_self
      obtain ⟨b, sep', rfl⟩ := List.exists_cons_of_ne_nil apart
      have gap := spacing.blank (b :: sep', v') (by simp)
      have token := strtok_r_token (b :: (sep' ++ (v' ++ (spaced items ++ ['>', ';', '\n']))))
        blank value.nonempty value.solid (fun c mem => by
          obtain rfl : b = c := Option.some.inj mem
          exact gap b List.mem_cons_self)
      have text : spaced ((b :: sep', v') :: items) ++ ['>', ';', '\n'] =
          b :: (sep' ++ (v' ++ (spaced items ++ ['>', ';', '\n']))) := by
        simp [spaced]
      rw [text, numbers, List.map_cons]
      have shorter : WellSpaced ((sep', v') :: items) := by
        refine ⟨fun item mem c => ?_, fun item mem => spacing.apart item (.tail _ mem),
          fun item mem => ?_⟩
        · cases mem with
          | head => exact fun h => gap c (List.mem_cons_of_mem b h)
          | tail _ mem => exact spacing.blank item (.tail _ (.tail _ mem)) c
        · cases mem with
          | head => exact spacing.value (b :: sep', v') (by simp)
          | tail _ mem => exact spacing.value item (.tail _ (.tail _ mem))
      refine .value token ?_ (ih sep' v' shorter (shorter.blank _ List.mem_cons_self)
        (shorter.value _ List.mem_cons_self))
      simpa using value.head []

theorem carries_property (w : Nat) {items : List (CString × CString)} (spacing : WellSpaced items) :
    Carries w (spaced items ++ ['>', ';', '\n']) (numbers w items) := by
  cases items with
  | nil => exact .close rfl rfl
  | cons item items =>
      have carries := carries_spaced w item.1 item.2 spacing
      simpa [spaced] using carries

theorem strtok_r_shorter {s tok rest : CString} (h : strtok_r s = some (tok, rest)) :
    rest.length < s.length := by
  unfold strtok_r at h
  split at h
  · cases h
  next s' _ =>
    have left := (List.dropWhile_sublist (l := s) isBlank).length_le
    have again := (List.dropWhile_sublist (l := s.dropWhile isBlank) (!isBlank ·)).length_le
    obtain ⟨-, rfl⟩ := Prod.mk.inj (Option.some.inj h)
    have some : s.dropWhile isBlank ≠ [] := by assumption
    have positive := List.length_pos_iff.mpr some
    rw [List.length_drop]
    omega

theorem Carries.length_le {w : Nat} {s : CString} {xs : List (BitVec 32)} (h : Carries w s xs) :
    xs.length ≤ s.length := by
  induction h with
  | done _ | close _ _ => exact Nat.zero_le _
  | value token _ _ ih =>
      have shorter := strtok_r_shorter token
      rw [List.length_cons]
      omega

end Tokens

section Entries
variable {β χ : Type} {w n : Nat} {s : CString} {xs : List (BitVec 32)}

/-- The complete groups of `n` values, in their order. -/
def groups (n : Nat) (xs : List β) : List (List β) :=
  (List.range (xs.length / n)).map fun i => (xs.drop (i * n)).take n

theorem groups_of_lt {xs : List β} (short : xs.length < n) : groups n xs = [] := by
  simp [groups, Nat.div_eq_of_lt short]

theorem groups_cons {xs : List β} (positive : 0 < n) (enough : n ≤ xs.length) :
    groups n xs = xs.take n :: groups n (xs.drop n) := by
  have count : xs.length / n = (xs.length - n) / n + 1 := Nat.div_eq_sub_div positive enough
  rw [groups, groups, count, List.range_succ_eq_map, List.map_cons, List.map_map, List.length_drop]
  congr 1
  · simp
  · apply List.map_congr_left
    intro i _
    simp only [Function.comp_apply, List.drop_drop]
    congr 2
    rw [Nat.succ_mul, Nat.add_comm]

theorem readEntry_ended (e : Entry) (invalid : e.entryValid = false)
    (ended : e.entryEnded = true) :
    (readEntry w n e).entryValid = false ∧ (readEntry w n e).entryEnded = true := by
  induction n generalizing e with
  | zero => exact ⟨invalid, ended⟩
  | succ n ih =>
      rw [readEntry]
      split
      · split
        · exact ⟨rfl, rfl⟩
        · exact ih _ invalid ended
      · exact ih _ rfl rfl

theorem Carries.readEntry_complete (h : Carries w s xs) (enough : n ≤ xs.length)
    (data : List (BitVec 32)) (valid ended : Bool) :
    ∃ s', readEntry w n ⟨data, valid, ended, s⟩ = ⟨data ++ xs.take n, valid, ended, s'⟩ ∧
      Carries w s' (xs.drop n) := by
  induction n generalizing s xs data with
  | zero => exact ⟨s, by simp [readEntry], h⟩
  | succ n ih =>
      cases h with
      | done _ | close _ _ => cases enough
      | value token plain rest =>
          obtain ⟨s', read, carries⟩ := ih rest (Nat.le_of_succ_le_succ enough) (data ++ [_])
          refine ⟨s', ?_, carries⟩
          rw [readEntry, token]
          simp only [plain, if_false]
          rw [read]
          simp

theorem Carries.readEntry_short (h : Carries w s xs) (short : xs.length < n)
    (data : List (BitVec 32)) (valid ended : Bool) :
    (readEntry w n ⟨data, valid, ended, s⟩).entryValid = false ∧
      (readEntry w n ⟨data, valid, ended, s⟩).entryEnded = true := by
  induction n generalizing s xs data with
  | zero => cases short
  | succ n ih =>
      cases h with
      | done none =>
          rw [readEntry, none]
          exact readEntry_ended _ rfl rfl
      | close token closing =>
          rw [readEntry, token]
          simp [closing]
      | value token plain rest =>
          rw [readEntry, token]
          simp only [plain, if_false]
          exact ih rest (Nat.lt_of_succ_lt_succ short) _

/-- A token loop adds the complete groups, one after the other, and then ends. -/
theorem Carries.entryLoop_eq (h : Carries w s xs) (positive : 0 < n)
    (add : List (BitVec 32) → χ → χ) {rounds : Nat} (enough : xs.length < rounds) (chain : χ) :
    entryLoop w n add rounds s chain =
      some ((groups n xs).foldl (fun chain data => add data chain) chain) := by
  induction rounds generalizing s xs chain with
  | zero => cases enough
  | succ rounds ih =>
      by_cases complete : n ≤ xs.length
      · obtain ⟨s', read, carries⟩ := h.readEntry_complete complete [] true false
        rw [entryLoop, read, groups_cons positive complete]
        simp only [List.nil_append, if_true, Bool.false_eq_true, if_false, List.foldl_cons]
        exact ih carries (by rw [List.length_drop]; omega) _
      · obtain ⟨invalid, ended⟩ := h.readEntry_short (Nat.lt_of_not_le complete) [] true false
        rw [entryLoop, groups_of_lt (Nat.lt_of_not_le complete)]
        simp [invalid, ended]

end Entries

section Chains
variable {β : Type}

theorem insertSecond_perm (tmp : β) (chain : List β) :
    (insertSecond tmp chain).Perm (chain ++ [tmp]) := by
  cases chain with
  | nil => exact .refl _
  | cons head t_next => exact .cons head (List.perm_append_singleton tmp t_next).symm

theorem foldl_insertPair_perm (data : List (List (BitVec 32)))
    (chain : List (BitVec 32 × BitVec 32)) :
    (data.foldl (fun chain data => insertPair data chain) chain).Perm
      (chain ++ data.map fun d => (d.getD 0 0, d.getD 1 0)) := by
  induction data generalizing chain with
  | nil => simp
  | cons d data ih =>
      have first := (insertSecond_perm (d.getD 0 0, d.getD 1 0) chain).append_right
        (data.map fun d => (d.getD 0 0, d.getD 1 0))
      rw [List.append_assoc] at first
      exact (ih _).trans first

/-- A chain of entries with this information; the head is the master of all of them. -/
structure Chained (infos : List ChipTuple) (chip : List ChipInfo) : Prop where
  infos : (tuples chip).Perm infos
  addresses : (chip.map ChipInfo.address).Perm (List.range chip.length)
  master : ∀ c ∈ chip, chip.head?.map ChipInfo.address = some c.master

theorem Chained.insert {infos : List ChipTuple} {chip : List ChipInfo} (h : Chained infos chip)
    (info : ChipTuple) : Chained (infos ++ [info]) (insertChip info chip) := by
  have perm := insertSecond_perm
    ⟨info, chip.length, (chip.head?.map ChipInfo.address).getD chip.length⟩ chip
  refine ⟨?_, ?_, ?_⟩
  · refine (perm.map _).trans ?_
    rw [List.map_append]
    exact h.infos.append_right _
  · have length : (insertChip info chip).length = chip.length + 1 := by
      simpa [insertChip] using perm.length_eq
    rw [length, List.range_succ]
    refine (perm.map _).trans ?_
    rw [List.map_append]
    exact h.addresses.append_right _
  · cases chip with
    | nil => simp [insertChip, insertSecond]
    | cons head t_next =>
        have first : head.master = head.address := by
          simpa using (h.master head List.mem_cons_self).symm
        intro c mem
        simp only [insertChip, insertSecond, List.mem_cons] at mem
        obtain rfl | rfl | old := mem
        · exact congrArg some first.symm
        · rfl
        · exact h.master c (List.mem_cons_of_mem _ old)

theorem Chained.foldl {infos : List ChipTuple} {chip : List ChipInfo} (h : Chained infos chip)
    (f : β → ChipTuple) (l : List β) :
    Chained (infos ++ l.map f) (l.foldl (fun chip b => insertChip (f b) chip) chip) := by
  induction l generalizing infos chip with
  | nil => simpa using h
  | cons b l ih => simpa using ih (h.insert (f b))

theorem Chained.foldl_foldl {γ : Type} {infos : List ChipTuple} {chip : List ChipInfo}
    (h : Chained infos chip) (f : β → γ → ChipTuple) (l : List β) (m : List γ) :
    Chained (infos ++ l.flatMap fun b => m.map (f b))
      (l.foldl (fun chip b => m.foldl (fun chip c => insertChip (f b c) chip) chip) chip) := by
  induction l generalizing infos chip with
  | nil => simpa using h
  | cons b l ih =>
      rw [List.flatMap_cons, ← List.append_assoc]
      exact ih (h.foldl (f b) m)

theorem chained_nil : Chained [] [] :=
  ⟨.refl _, .refl _, fun _ mem => absurd mem (List.not_mem_nil)⟩

end Chains

section Lines
variable {w : Nat} {indent : CString} {items : List (CString × CString)}

def dtName : CString := ['q', 'c', 'o', 'm', ',', 'm', 's', 'm', '-', 'i', 'd', ' ', '=', ' ']

def boardName : CString :=
  ['q', 'c', 'o', 'm', ',', 'b', 'o', 'a', 'r', 'd', '-', 'i', 'd', ' ', '=', ' ']

theorem QCDT_DT_TAG_eq : QCDT_DT_TAG = dtName ++ ['<'] := rfl

theorem QCDT_BOARD_TAG_eq : QCDT_BOARD_TAG = boardName ++ ['<'] := rfl

theorem board_not_suffix (indent : CString) : ¬ boardName <:+ indent ++ dtName := by
  rw [← List.reverse_prefix, List.reverse_append]
  simp [boardName, dtName]

theorem dt_not_suffix (indent : CString) : ¬ dtName <:+ indent ++ boardName := by
  rw [← List.reverse_prefix, List.reverse_append]
  simp [boardName, dtName]

theorem WellSpaced.no_bracket (spacing : WellSpaced items) :
    '<' ∉ spaced items ++ ['>', ';', '\n'] := by
  intro mem
  obtain inside | close := List.mem_append.mp mem
  · obtain ⟨item, listed, inside⟩ := List.mem_flatMap.mp inside
    obtain gap | value := List.mem_append.mp inside
    · exact absurd (spacing.blank item listed '<' gap) (by decide)
    · exact ((spacing.value item listed).plain '<' value).2.1 rfl
  · exact absurd close (by decide)

theorem terminated_subset {s : CString} {c : Char} (mem : c ∈ terminated s) : c ∈ s := by
  obtain front | token := List.mem_append.mp mem
  · exact (List.takeWhile_sublist _).subset front
  · exact (List.dropWhile_sublist _).subset ((List.takeWhile_sublist _).subset token)

/-- What a line with one tag is to both searches, also after the tokens were taken. -/
theorem strstr_property {name other : CString} (rest : CString) (before : '<' ∉ indent)
    (plain : '<' ∉ name) (behind : '<' ∉ rest) (differs : ¬ other <:+ indent ++ name) :
    strstr (name ++ ['<']) (indent ++ (name ++ '<' :: rest)) = some indent.length ∧
      strstr (other ++ ['<']) (indent ++ (name ++ '<' :: rest)) = none := by
  refine ⟨strstr_bracket before plain, strstr_eq_none.mpr ?_⟩
  rw [← List.append_assoc, infix_bracket_iff (by simp [before, plain]) behind]
  exact differs

theorem property_start (indent name rest : CString) :
    (indent ++ (name ++ '<' :: rest)).drop (indent.length + (name ++ ['<']).length) = rest ∧
      (indent ++ (name ++ '<' :: rest)).take (indent.length + (name ++ ['<']).length) =
        indent ++ (name ++ ['<']) := by
  have split : indent ++ (name ++ '<' :: rest) = (indent ++ (name ++ ['<'])) ++ rest := by simp
  have length : indent.length + (name ++ ['<']).length = (indent ++ (name ++ ['<'])).length :=
    List.length_append.symm
  rw [split, length]
  exact ⟨List.drop_left, List.take_left⟩

theorem propertyLine_eq (name : CString) :
    propertyLine indent (name ++ ['<']) items =
      indent ++ (name ++ '<' :: (spaced items ++ ['>', ';', '\n'])) := by
  simp [propertyLine]

/-- The token loop of a property's line, under the bound that getChipInfo gives it. -/
theorem entryLoop_property {χ : Type} {n : Nat} (indent : CString) (spacing : WellSpaced items)
    (positive : 0 < n) (add : List (BitVec 32) → χ → χ) (name : CString) (chain : χ) :
    entryLoop w n add ((propertyLine indent (name ++ ['<']) items).length + 1)
        (spaced items ++ ['>', ';', '\n']) chain =
      some ((groups n (numbers w items)).foldl (fun chain data => add data chain) chain) := by
  have carries := carries_property w spacing
  refine carries.entryLoop_eq positive add ?_ chain
  have bound := carries.length_le
  rw [propertyLine_eq]
  simp only [List.length_append, List.length_cons] at bound ⊢
  omega

/-- The pairs of a property, as version 2 links them. -/
def linkPairs (w : Nat) (items : List (CString × CString))
    (chain : List (BitVec 32 × BitVec 32)) : List (BitVec 32 × BitVec 32) :=
  (groups 2 (numbers w items)).foldl (fun chain data => insertPair data chain) chain

theorem readLine_dt (spacing : WellSpaced items) (before : '<' ∉ indent) (ids : Ids) :
    readLine w (propertyLine indent QCDT_DT_TAG items) ids =
      some { ids with chipId := linkPairs w items ids.chipId, entryEndedDT := true } := by
  have behind := spacing.no_bracket
  have found := (strstr_property (spaced items ++ ['>', ';', '\n']) before
    (by decide : '<' ∉ dtName) behind (board_not_suffix indent)).1
  have left := (strstr_property (terminated (spaced items ++ ['>', ';', '\n'])) before
    (by decide : '<' ∉ dtName) (mt terminated_subset behind) (board_not_suffix indent)).2
  obtain ⟨body, tag⟩ := property_start indent dtName (spaced items ++ ['>', ';', '\n'])
  have loop := entryLoop_property (w := w) indent spacing (n := 2) (by decide)
    insertPair dtName ids.chipId
  rw [QCDT_DT_TAG_eq, propertyLine_eq] at *
  rw [readLine, QCDT_DT_TAG_eq, QCDT_BOARD_TAG_eq, found]
  simp only [body, tag, loop, Option.bind_eq_bind, Option.bind_some]
  have cut : indent ++ (dtName ++ ['<']) ++ terminated (spaced items ++ ['>', ';', '\n']) =
      indent ++ (dtName ++ '<' :: terminated (spaced items ++ ['>', ';', '\n'])) := by simp
  rw [cut, left]
  rfl

theorem readLine_board (spacing : WellSpaced items) (before : '<' ∉ indent) (ids : Ids) :
    readLine w (propertyLine indent QCDT_BOARD_TAG items) ids =
      some { ids with chipSt := linkPairs w items ids.chipSt, entryEndedST := true } := by
  have behind := spacing.no_bracket
  obtain ⟨found, other⟩ := strstr_property (spaced items ++ ['>', ';', '\n']) before
    (by decide : '<' ∉ boardName) behind (dt_not_suffix indent)
  obtain ⟨body, -⟩ := property_start indent boardName
    (spaced items ++ ['>', ';', '\n'])
  have loop := entryLoop_property (w := w) indent spacing (n := 2) (by decide)
    insertPair boardName ids.chipSt
  rw [QCDT_BOARD_TAG_eq, propertyLine_eq] at *
  rw [readLine, QCDT_DT_TAG_eq, QCDT_BOARD_TAG_eq, other]
  simp only [found, body, loop, Option.bind_eq_bind, Option.bind_some]
  rfl

/-- Whether the search for the tag finds it. -/
def hasTag (tag line : CString) : Bool := (strstr tag line).isSome

theorem readLine_other {line : CString} (dt : hasTag QCDT_DT_TAG line = false)
    (board : hasTag QCDT_BOARD_TAG line = false) (ids : Ids) :
    readLine w line ids = some ids := by
  rw [hasTag, Option.isSome_eq_false_iff, Option.isNone_iff_eq_none] at dt board
  simp only [readLine, dt, board, Option.bind_eq_bind, Option.bind_some]

theorem hasTag_dt (spacing : WellSpaced items) (before : '<' ∉ indent) :
    hasTag QCDT_DT_TAG (propertyLine indent QCDT_DT_TAG items) = true ∧
      hasTag QCDT_BOARD_TAG (propertyLine indent QCDT_DT_TAG items) = false := by
  obtain ⟨found, other⟩ := strstr_property _ before (by decide : '<' ∉ dtName) spacing.no_bracket
    (board_not_suffix indent)
  rw [hasTag, hasTag, QCDT_DT_TAG_eq, QCDT_BOARD_TAG_eq, propertyLine_eq, found, other]
  exact ⟨rfl, rfl⟩

/-- Each line with a tag links the pairs of its property, the others nothing. -/
theorem foldlM_readLine {indent' : CString} {items' : List (CString × CString)}
    (spacing : WellSpaced items) (before : '<' ∉ indent) (spacing' : WellSpaced items')
    (before' : '<' ∉ indent') {lines : List CString}
    (dt : ∀ line ∈ lines, hasTag QCDT_DT_TAG line = true →
      line = propertyLine indent QCDT_DT_TAG items)
    (board : ∀ line ∈ lines, hasTag QCDT_BOARD_TAG line = true →
      line = propertyLine indent' QCDT_BOARD_TAG items') (ids : Ids) :
    lines.foldlM (fun ids line => readLine w line ids) ids = some
      { chipId := (lines.filter (hasTag QCDT_DT_TAG)).foldl (fun chain _ =>
          linkPairs w items chain) ids.chipId
        chipSt := (lines.filter (hasTag QCDT_BOARD_TAG)).foldl (fun chain _ =>
          linkPairs w items' chain) ids.chipSt
        entryEndedDT := ids.entryEndedDT || lines.any (hasTag QCDT_DT_TAG)
        entryEndedST := ids.entryEndedST || lines.any (hasTag QCDT_BOARD_TAG) } := by
  induction lines generalizing ids with
  | nil => simp
  | cons line lines ih =>
      have rest := ih (fun line mem => dt line (List.mem_cons_of_mem _ mem))
        (fun line mem => board line (List.mem_cons_of_mem _ mem))
      have this := dt line List.mem_cons_self
      have this' := board line List.mem_cons_self
      rw [List.foldlM_cons]
      cases isDt : hasTag QCDT_DT_TAG line with
      | true =>
          obtain rfl := this isDt
          obtain ⟨-, other⟩ := hasTag_dt spacing before
          rw [readLine_dt spacing before]
          simp only [Option.bind_eq_bind, Option.bind_some, rest, List.filter_cons, isDt, other,
            List.any_cons, if_true, List.foldl_cons, Bool.true_or, Bool.or_true, Bool.false_or,
            Bool.false_eq_true, if_false]
      | false =>
          cases isBoard : hasTag QCDT_BOARD_TAG line with
          | true =>
              obtain rfl := this' isBoard
              rw [readLine_board spacing' before']
              simp only [Option.bind_eq_bind, Option.bind_some, rest, List.filter_cons, isDt,
                isBoard, List.any_cons, if_true, List.foldl_cons, Bool.true_or, Bool.or_true,
                Bool.false_or, Bool.false_eq_true, if_false]
          | false =>
              rw [readLine_other isDt isBoard]
              simp only [Option.bind_eq_bind, Option.bind_some, rest, List.filter_cons, isDt,
                isBoard, List.any_cons, Bool.false_or, Bool.false_eq_true, if_false]

theorem mem_of_filter_eq {tag line other : CString} {lines : List CString}
    (one : lines.filter (hasTag tag) = [line]) (mem : other ∈ lines)
    (found : hasTag tag other = true) : other = line := by
  have listed : other ∈ lines.filter (hasTag tag) := List.mem_filter.mpr ⟨mem, found⟩
  rw [one] at listed
  exact List.mem_singleton.mp listed

theorem any_of_filter_eq {tag line : CString} {lines : List CString}
    (one : lines.filter (hasTag tag) = [line]) : lines.any (hasTag tag) = true := by
  have listed : line ∈ lines.filter (hasTag tag) := one ▸ List.mem_singleton_self line
  obtain ⟨mem, found⟩ := List.mem_filter.mp listed
  exact List.any_eq_true.mpr ⟨line, mem, found⟩

end Lines

section Result
variable {β : Type}

/-- The complete pairs of a list of values, in their order. -/
def pairs : List β → List (β × β)
  | a :: b :: rest => (a, b) :: pairs rest
  | _ => []

/-- The complete triples. -/
def triples : List β → List (β × β × β)
  | a :: b :: c :: rest => (a, b, c) :: triples rest
  | _ => []

theorem groups_two : (xs : List (BitVec 32)) →
    (groups 2 xs).map (fun d => (d.getD 0 0, d.getD 1 0)) = pairs xs
  | [] => rfl
  | [_] => by
      rw [groups_of_lt (by simp)]
      rfl
  | a :: b :: rest => by
      rw [groups_cons (by decide) (by simp), pairs, ← groups_two rest]
      rfl

theorem groups_three : (xs : List (BitVec 32)) →
    (groups 3 xs).map (fun d => (d.getD 0 0, d.getD 1 0, d.getD 2 0)) = triples xs
  | [] => rfl
  | [_] => by
      rw [groups_of_lt (by simp)]
      rfl
  | [_, _] => by
      rw [groups_of_lt (by simp)]
      rfl
  | a :: b :: c :: rest => by
      rw [groups_cons (by decide) (by simp), triples, ← groups_three rest]
      rfl

theorem length_triples (xs : List (BitVec 32)) : (triples xs).length = xs.length / 3 := by
  simp [← groups_three, groups]

theorem length_pairs (xs : List (BitVec 32)) : (pairs xs).length = xs.length / 2 := by
  simp [← groups_two, groups]

theorem linkPairs_perm (w : Nat) (items : List (CString × CString)) :
    (linkPairs w items []).Perm (pairs (numbers w items)) := by
  rw [← groups_two]
  exact foldl_insertPair_perm _ []

theorem getChipInfo_v1_eq {w : Nat} {indent : CString} {items : List (CString × CString)}
    (spacing : WellSpaced items) (before : '<' ∉ indent) {lines : List CString}
    (one : lines.filter (hasTag QCDT_DT_TAG) = [propertyLine indent QCDT_DT_TAG items]) :
    ∃ chip, getChipInfo_v1 w lines = some (chip, some chip.length) ∧
      Chained ((triples (numbers w items)).map fun t => ⟨t.1, t.2.1, 0, t.2.2⟩) chip := by
  induction lines with
  | nil => cases one
  | cons line lines ih =>
      cases isDt : hasTag QCDT_DT_TAG line with
      | false =>
          rw [List.filter_cons_of_neg (by simp [isDt])] at one
          rw [hasTag, Option.isSome_eq_false_iff, Option.isNone_iff_eq_none] at isDt
          obtain ⟨chip, result, chained⟩ := ih one
          exact ⟨chip, by rw [getChipInfo_v1, isDt]; exact result, chained⟩
      | true =>
          obtain rfl := mem_of_filter_eq one List.mem_cons_self isDt
          obtain ⟨found, -⟩ := strstr_property (spaced items ++ ['>', ';', '\n']) before
            (by decide : '<' ∉ dtName) spacing.no_bracket (board_not_suffix indent)
          obtain ⟨body, -⟩ := property_start indent dtName
            (spaced items ++ ['>', ';', '\n'])
          have loop := entryLoop_property (w := w) indent spacing (n := 3) (by decide)
            (fun data => insertChip ⟨data.getD 0 0, data.getD 1 0, 0, data.getD 2 0⟩) dtName []
          have chained := chained_nil.foldl
            (fun data : List (BitVec 32) => ⟨data.getD 0 0, data.getD 1 0, 0, data.getD 2 0⟩)
            (groups 3 (numbers w items))
          rw [List.nil_append] at chained
          rw [← groups_three, List.map_map]
          rw [QCDT_DT_TAG_eq, propertyLine_eq] at *
          refine ⟨_, ?_, chained⟩
          rw [getChipInfo_v1, QCDT_DT_TAG_eq, found]
          simp only [body, loop, Option.bind_eq_bind, Option.bind_some]
          rfl

theorem getChipInfo_v2_eq {w : Nat} {indent indent' : CString}
    {items items' : List (CString × CString)}
    (spacing : WellSpaced items) (before : '<' ∉ indent)
    (spacing' : WellSpaced items') (before' : '<' ∉ indent') {lines : List CString}
    (one : lines.filter (hasTag QCDT_DT_TAG) = [propertyLine indent QCDT_DT_TAG items])
    (one' : lines.filter (hasTag QCDT_BOARD_TAG) = [propertyLine indent' QCDT_BOARD_TAG items'])
    (some_pair : 2 ≤ items.length) (some_pair' : 2 ≤ items'.length) :
    ∃ chip, getChipInfo_v2 w lines = some (chip, some (items.length / 2)) ∧
      ∃ infos, Chained infos chip ∧
        infos.Perm ((pairs (numbers w items)).flatMap fun p =>
          (pairs (numbers w items')).map fun q => ⟨p.1, q.1, q.2, p.2⟩) := by
  have read := foldlM_readLine (w := w) spacing before spacing' before'
    (fun line mem => mem_of_filter_eq one mem) (fun line mem => mem_of_filter_eq one' mem)
    ⟨[], [], false, false⟩
  rw [one, one', any_of_filter_eq one, any_of_filter_eq one'] at read
  simp only [List.foldl_cons, List.foldl_nil, Bool.false_or] at read
  have perm := linkPairs_perm w items
  have perm' := linkPairs_perm w items'
  have count1 : (linkPairs w items []).length = items.length / 2 := by
    rw [perm.length_eq, length_pairs, numbers, List.length_map]
  have count2 : (linkPairs w items' []).length = items'.length / 2 := by
    rw [perm'.length_eq, length_pairs, numbers, List.length_map]
  have some1 : items.length / 2 ≠ 0 := by omega
  have some2 : items'.length / 2 ≠ 0 := by omega
  refine ⟨_, ?_, _, chained_nil.foldl_foldl
    (fun (p q : BitVec 32 × BitVec 32) => ⟨p.1, q.1, q.2, p.2⟩)
    (linkPairs w items []) (linkPairs w items' []), ?_⟩
  · rw [getChipInfo_v2, read]
    simp only [Option.bind_eq_bind, Option.bind_some, count1, count2, some1, some2, if_false,
      Bool.and_self, if_true]
    rfl
  · rw [List.nil_append]
    exact perm.flatMap fun p _ => perm'.map _

/-- Different entries, and the first one is the master of every one of them. -/
structure FirstIsMaster (chip : List ChipInfo) : Prop where
  distinct : (chip.map ChipInfo.address).Nodup
  master : ∀ c ∈ chip, chip.head?.map ChipInfo.address = some c.master

theorem Chained.firstIsMaster {infos : List ChipTuple} {chip : List ChipInfo}
    (h : Chained infos chip) : FirstIsMaster chip :=
  ⟨h.addresses.nodup_iff.mpr List.nodup_range, h.master⟩

/-- From lines of which one has the msm-id property, and for version 2 one the board-id property,
getChipInfo returns the cross product of the complete pairs, for version 1 the complete triples. -/
theorem getChipInfo_reads_properties (w : Nat) (lines : List CString) (indent : CString)
    (items : List (CString × CString)) (spacing : WellSpaced items) (before : '<' ∉ indent)
    (one : lines.filter (hasTag QCDT_DT_TAG) = [propertyLine indent QCDT_DT_TAG items]) :
    (∀ indent' items', WellSpaced items' → '<' ∉ indent' →
      lines.filter (hasTag QCDT_BOARD_TAG) = [propertyLine indent' QCDT_BOARD_TAG items'] →
      2 ≤ items.length → 2 ≤ items'.length →
      ∃ chip num, getChipInfo w 2 lines = some (chip, num) ∧
        (tuples chip).Perm ((pairs (numbers w items)).flatMap fun p =>
          (pairs (numbers w items')).map fun q => ⟨p.1, q.1, q.2, p.2⟩) ∧
        FirstIsMaster chip) ∧
    ∃ chip num, getChipInfo w 1 lines = some (chip, num) ∧
      (tuples chip).Perm ((triples (numbers w items)).map fun t => ⟨t.1, t.2.1, 0, t.2.2⟩) ∧
      chip.length = items.length / 3 ∧ FirstIsMaster chip := by
  constructor
  · intro indent' items' spacing' before' one' some_pair some_pair'
    obtain ⟨chip, result, infos, chained, perm⟩ :=
      getChipInfo_v2_eq (w := w) spacing before spacing' before' one one' some_pair some_pair'
    exact ⟨chip, _, result, chained.infos.trans perm, chained.firstIsMaster⟩
  · obtain ⟨chip, result, chained⟩ := getChipInfo_v1_eq (w := w) spacing before one
    refine ⟨chip, _, result, chained.infos, ?_, chained.firstIsMaster⟩
    have length := chained.infos.length_eq
    rw [tuples, List.length_map, List.length_map, length_triples, numbers,
      List.length_map] at length
    exact length

/-- Two chips and an incomplete one. -/
def chipItems : List (CString × CString) :=
  [([], ['0', 'x', '7', 'e']), ([' '], ['1']), ([' ', '\t'], ['1', '9', '4']), ([' '], ['0', '2']),
    ([' '], ['9'])]

def boardItems : List (CString × CString) := [([], ['8']), ([' '], ['0'])]

def decompiled : List CString :=
  [['/', '{', '\n'], propertyLine ['\t'] QCDT_DT_TAG chipItems,
    propertyLine ['\t'] QCDT_BOARD_TAG boardItems, ['}', ';', '\n']]

theorem two_chips_for_one_board :
    ∃ chip num, getChipInfo 64 2 decompiled = some (chip, num) ∧
      (tuples chip).Perm [⟨126, 8, 0, 1⟩, ⟨194, 8, 0, 2⟩] ∧ FirstIsMaster chip := by
  have value : ∀ item ∈ chipItems ++ boardItems, IsValue item.2 := by
    intro item mem
    simp only [chipItems, boardItems, List.cons_append, List.nil_append, List.mem_cons,
      List.not_mem_nil, or_false] at mem
    obtain rfl | rfl | rfl | rfl | rfl | rfl | rfl := mem <;>
      exact ⟨by decide, by simp [isBlank]⟩
  have spacing : WellSpaced chipItems :=
    ⟨by simp [chipItems, isBlank], by simp [chipItems],
      fun item mem => value item (List.mem_append_left _ mem)⟩
  have spacing' : WellSpaced boardItems :=
    ⟨by simp [boardItems, isBlank], by simp [boardItems],
      fun item mem => value item (List.mem_append_right _ mem)⟩
  obtain ⟨chip, num, result, perm, master⟩ := (getChipInfo_reads_properties 64 decompiled ['\t']
    chipItems spacing (by decide) (by decide)).1 ['\t'] boardItems spacing' (by decide) (by decide)
    (by decide) (by decide)
  exact ⟨chip, num, result, perm, master⟩

end Result

end Msm8974.Dtbtool
