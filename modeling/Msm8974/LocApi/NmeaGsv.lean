import Mathlib.Algebra.Order.Round
import Msm8974.LocApi.NmeaFields

/-!
What GPGSV and GLGSV say of a satellite report. The inner loop takes the next four satellites of
the system, wherever they stand on the list, so that the sentences together read as the part of
the list that is in the range.
-/

namespace Msm8974.Nmea
open CReal DelimitedText

section Reading

/-- A satellite as a sentence names it. -/
structure SvFields where
  prn : Nat
  elevation : Nat
  azimuth : Nat
  snr : Option Nat
  deriving DecidableEq, Repr

structure GsvSentence where
  address : Text
  sentenceCount : Nat
  sentenceNumber : Nat
  svCount : Nat
  svs : List SvFields
  deriving DecidableEq, Repr

/-- A field of digits. -/
def readNumber (field : Text) : Option Nat :=
  if field ≠ [] ∧ field.all Char.isDigit then some (Nat.ofDigitChars 10 field 0) else none

/-- A field of digits that may be empty. -/
def readOptional (field : Text) : Option (Option Nat) :=
  if field = [] then some none else (readNumber field).map some

def readSvs : List Text → Option (List SvFields)
  | [] => some []
  | prn :: elevation :: azimuth :: snr :: rest => do
      let prn ← readNumber prn
      let elevation ← readNumber elevation
      let azimuth ← readNumber azimuth
      let snr ← readOptional snr
      let svs ← readSvs rest
      return ⟨prn, elevation, azimuth, snr⟩ :: svs
  | _ => none

/-- A GSV sentence read by its format. -/
def readGsv (sentence : Text) : Option GsvSentence :=
  match (sentence.takeWhile (· ≠ '*')).splitOn ',' with
  | address :: sentenceCount :: sentenceNumber :: svCount :: rest => do
      let sentenceCount ← readNumber sentenceCount
      let sentenceNumber ← readNumber sentenceNumber
      let svCount ← readNumber svCount
      let svs ← readSvs rest
      return ⟨address, sentenceCount, sentenceNumber, svCount, svs⟩
  | _ => none

theorem decimal_natCast (width n : Nat) : decimal width n = padded width n := by
  rw [decimal, if_neg (by omega), Int.natAbs_natCast]

theorem readNumber_decimal (width n : Nat) : readNumber (decimal width n) = some n := by
  have nonempty : padded width n ≠ [] := by
    rw [padded]
    exact List.append_ne_nil_of_right_ne_nil _ Nat.toDigits_ne_nil
  have digits : (padded width n).all Char.isDigit = true :=
    List.all_eq_true.mpr fun _ mem => isDigit_of_mem_padded mem
  rw [decimal_natCast, readNumber, if_pos ⟨nonempty, digits⟩, ofDigitChars_padded]

theorem decimal_ne_nil (width n : Nat) : decimal width n ≠ [] := by
  intro empty
  have read := readNumber_decimal width n
  rw [empty] at read
  cases read

end Reading

section Values

/-- The values that a satellite may have for its fields to be formatted. -/
structure GpsSvInfo.Sane (sv : GpsSvInfo ℚ) : Prop where
  elevation : 0 ≤ sv.elevation ∧ sv.elevation < 1000
  azimuth : 0 ≤ sv.azimuth ∧ sv.azimuth < 1000
  snr : 0 ≤ sv.snr ∧ sv.snr < 1000

instance (sv : GpsSvInfo ℚ) : Decidable sv.Sane :=
  decidable_of_iff ((0 ≤ sv.elevation ∧ sv.elevation < 1000) ∧
    (0 ≤ sv.azimuth ∧ sv.azimuth < 1000) ∧ 0 ≤ sv.snr ∧ sv.snr < 1000)
    ⟨fun h => ⟨h.1, h.2.1, h.2.2⟩, fun h => ⟨h.1, h.2, h.3⟩⟩

/-- The nearest natural number. -/
def nearest (x : ℚ) : Nat := (round x).toNat

/-- What is to be read of a satellite. -/
def GpsSvInfo.expected (sv : GpsSvInfo ℚ) : SvFields where
  prn := sv.prn.toNat
  elevation := nearest sv.elevation
  azimuth := nearest sv.azimuth
  snr := if 0 < sv.snr then some (nearest sv.snr) else none

theorem rounded_eq {x : ℚ} (positive : 0 ≤ x) : rounded x = nearest x := by
  have sum : ¬ 1 / 2 + x < 0 := by linarith
  have floor : rounded x = ⌊x + 1 / 2⌋ := by
    rw [add_comm]
    exact if_neg sum
  have nonneg : 0 ≤ ⌊x + 1 / 2⌋ := Int.floor_nonneg.mpr (by linarith)
  rw [floor, nearest, round_eq, Int.toNat_of_nonneg nonneg]

theorem nearest_le {x : ℚ} (small : x < 1000) : nearest x ≤ 1000 := by
  have below : ⌊x + 1 / 2⌋ < 1001 := Int.floor_lt.mpr (by push_cast; linarith)
  rw [nearest, round_eq]
  omega

end Values

section Loops
variable {F : Type} {inRange : Int → Bool}

/-- The satellites of a system. -/
def matching (inRange : Int → Bool) (svs : List (GpsSvInfo F)) : List (GpsSvInfo F) :=
  svs.filter fun sv => inRange sv.prn

theorem countSvs_eq (svs : List (GpsSvInfo F)) :
    countSvs svs = ((matching isGps svs).length, (matching isGlonass svs).length) := by
  have counted : ∀ gpsCount glnCount : Nat,
      svs.foldl (fun counts sv =>
        if isGps sv.prn then (counts.1 + 1, counts.2)
        else if isGlonass sv.prn then (counts.1, counts.2 + 1)
        else counts) (gpsCount, glnCount) =
      (gpsCount + (matching isGps svs).length, glnCount + (matching isGlonass svs).length) := by
    induction svs with
    | nil => exact fun _ _ => rfl
    | cons sv svs ih =>
        intro gpsCount glnCount
        rw [List.foldl_cons]
        cases gps : isGps sv.prn with
        | true =>
            have other : isGlonass sv.prn = false := by
              simp only [isGps, isGlonass, Bool.and_eq_true, decide_eq_true_eq,
                Bool.and_eq_false_iff, decide_eq_false_iff_not] at gps ⊢
              omega
            simp [ih, matching, gps, other]
            omega
        | false =>
            cases glonass : isGlonass sv.prn with
            | true =>
                simp [ih, matching, gps, glonass]
                omega
            | false => simp [ih, matching, gps, glonass]
  have start := counted 0 0
  rw [Nat.zero_add, Nat.zero_add] at start
  exact start

variable [CReal F]

/-- The inner loop takes the next satellites of the system that the sentence has room for. -/
theorem svLoop_eq (svs : List (GpsSvInfo F)) {i : Nat} (room : i ≤ 4) :
    (svLoop inRange i svs).1 = ((matching inRange svs).take (4 - i)).flatMap svPieces ∧
      matching inRange (svLoop inRange i svs).2 = (matching inRange svs).drop (4 - i) := by
  induction svs generalizing i with
  | nil => simp [svLoop, matching]
  | cons sv svs ih =>
      rw [svLoop]
      by_cases full : i < 4
      · rw [if_pos full]
        have left : 4 - i = 4 - (i + 1) + 1 := by omega
        cases found : inRange sv.prn with
        | true =>
            obtain ⟨pieces, rest⟩ := @ih (i + 1) full
            have here : matching inRange (sv :: svs) = sv :: matching inRange svs := by
              simp [matching, found]
            rw [here, left, List.take_succ_cons, List.drop_succ_cons, List.flatMap_cons, ← pieces,
              ← rest]
            exact ⟨rfl, rfl⟩
        | false =>
            have skipped : matching inRange (sv :: svs) = matching inRange svs := by
              simp [matching, found]
            rw [skipped]
            exact ih room
      · rw [if_neg full]
        have left : 4 - i = 0 := by omega
        rw [left]
        exact ⟨rfl, rfl⟩

/-- The k-th group of four. -/
def group (svs : List (GpsSvInfo F)) (k : Nat) : List (GpsSvInfo F) := (svs.drop (4 * k)).take 4

def gsvDraft (address : Text) (sentenceCount sentenceNumber count : Nat)
    (svs : List (GpsSvInfo F)) : Draft where
  checked := (address ++ ',' :: decimal 0 sentenceCount ++ ',' :: decimal 0 sentenceNumber ++
    ',' :: decimal 2 count) :: svs.flatMap svPieces
  unchecked := []

/-- The outer loop goes on with the groups. -/
theorem gsvLoop_eq (address : Text) (count sentenceCount left sentenceNumber : Nat)
    (svs : List (GpsSvInfo F)) :
    gsvLoop address inRange count sentenceCount left sentenceNumber svs =
      (List.range left).map fun k => gsvDraft address sentenceCount (sentenceNumber + k) count
        (group (matching inRange svs) k) := by
  induction left generalizing sentenceNumber svs with
  | zero => rfl
  | succ left ih =>
      obtain ⟨pieces, rest⟩ := @svLoop_eq F inRange _ svs 0 (Nat.zero_le _)
      have step : gsvLoop address inRange count sentenceCount (left + 1) sentenceNumber svs =
          ⟨(address ++ ',' :: decimal 0 sentenceCount ++ ',' :: decimal 0 sentenceNumber ++
            ',' :: decimal 2 count) :: (svLoop inRange 0 svs).1, []⟩ ::
            gsvLoop address inRange count sentenceCount left (sentenceNumber + 1)
              (svLoop inRange 0 svs).2 := rfl
      have later : ∀ k, group ((matching inRange svs).drop (4 - 0)) k =
          group (matching inRange svs) (k + 1) := by
        intro k
        rw [group, group, List.drop_drop, Nat.sub_zero, Nat.mul_succ, Nat.add_comm]
      rw [step, ih, rest, pieces, List.range_succ_eq_map, List.map_cons, List.map_map]
      congr 1
      apply List.map_congr_left
      intro k _
      rw [later, Nat.add_right_comm, Nat.add_assoc]
      rfl

end Loops

section Sentences

/-- The fields of a satellite. -/
def svFields (sv : GpsSvInfo ℚ) : List Text :=
  [decimal 2 sv.prn, decimal 2 (rounded sv.elevation), decimal 3 (rounded sv.azimuth),
    if 0 < sv.snr then decimal 2 (rounded sv.snr) else []]

theorem flatten_svPieces (sv : GpsSvInfo ℚ) :
    (svPieces sv).flatten = (svFields sv).flatMap (',' :: ·) := by
  have zero : (literal 0 : ℚ) = 0 := rfl
  rw [svPieces, svFields, zero]
  by_cases heard : 0 < sv.snr
  · simp [heard]
  · simp [heard]

/-- A satellite as generateSv can name it. -/
structure Shown (sv : GpsSvInfo ℚ) : Prop where
  prn : 0 ≤ sv.prn ∧ sv.prn < 100
  sane : sv.Sane

variable {sv : GpsSvInfo ℚ} {svs : List (GpsSvInfo ℚ)}

/-- The fields of a satellite as padded natural numbers. -/
theorem Shown.svFields_eq (h : Shown sv) : svFields sv =
    [decimal 2 sv.prn.toNat, decimal 2 (nearest sv.elevation), decimal 3 (nearest sv.azimuth),
      if 0 < sv.snr then decimal 2 (nearest sv.snr) else []] := by
  rw [svFields, rounded_eq h.sane.elevation.1, rounded_eq h.sane.azimuth.1,
    rounded_eq h.sane.snr.1, Int.toNat_of_nonneg h.prn.1]

theorem Shown.plain (h : Shown sv) : ∀ field ∈ svFields sv, PlainText field := by
  rw [h.svFields_eq]
  simp only [List.forall_mem_cons, List.not_mem_nil, false_implies, implies_true, and_true]
  refine ⟨plain_decimal _ _, plain_decimal _ _, plain_decimal _ _, ?_⟩
  split
  · exact plain_decimal _ _
  · decide

theorem length_decimal_le {width n : Nat} (digits : Nat) (positive : 0 < digits)
    (small : n < 10 ^ digits) : (decimal width n).length ≤ max width digits := by
  rw [decimal_natCast]
  exact length_padded_le positive small

theorem Shown.length_le (h : Shown sv) : ((svFields sv).flatMap (',' :: ·)).length ≤ 18 := by
  have prn : (decimal 2 sv.prn.toNat).length ≤ 2 := by
    have small := h.prn
    exact length_decimal_le 2 (by decide) (by omega)
  have elevation : (decimal 2 (nearest sv.elevation)).length ≤ 4 :=
    length_decimal_le 4 (by decide) (Nat.lt_of_le_of_lt (nearest_le h.sane.elevation.2)
      (by decide))
  have azimuth : (decimal 3 (nearest sv.azimuth)).length ≤ 4 :=
    length_decimal_le 4 (by decide) (Nat.lt_of_le_of_lt (nearest_le h.sane.azimuth.2)
      (by decide))
  have snr : (if 0 < sv.snr then decimal 2 (nearest sv.snr) else []).length ≤ 4 := by
    split
    · exact length_decimal_le 4 (by decide)
        (Nat.lt_of_le_of_lt (nearest_le h.sane.snr.2) (by decide))
    · exact Nat.zero_le _
  rw [h.svFields_eq]
  simp only [List.flatMap_cons, List.flatMap_nil, List.length_append, List.length_cons,
    List.append_nil]
  omega

theorem readSvs_svFields (all : ∀ sv ∈ svs, Shown sv) :
    readSvs (svs.flatMap svFields) = some (svs.map GpsSvInfo.expected) := by
  induction svs with
  | nil => rfl
  | cons sv svs ih =>
      have rest := ih fun other mem => all other (List.mem_cons_of_mem _ mem)
      rw [List.flatMap_cons, (all sv List.mem_cons_self).svFields_eq]
      have snr : readOptional (if 0 < sv.snr then decimal 2 (nearest sv.snr) else []) =
          some (if 0 < sv.snr then some (nearest sv.snr) else none) := by
        by_cases heard : 0 < sv.snr
        · simp [readOptional, heard, decimal_ne_nil, readNumber_decimal]
        · simp [readOptional, heard]
      simp only [List.cons_append, List.nil_append, readSvs, readNumber_decimal, rest, snr,
        Option.bind_eq_bind, Option.bind_some, Option.pure_def, List.map_cons]
      rfl

variable {address : Text} {sentenceCount sentenceNumber count : Nat}

/-- The fields of a sentence behind its address. -/
def gsvFields (sentenceCount sentenceNumber count : Nat) (svs : List (GpsSvInfo ℚ)) : List Text :=
  decimal 0 sentenceCount :: decimal 0 sentenceNumber :: decimal 2 count :: svs.flatMap svFields

theorem gsvDraft_text : (gsvDraft address sentenceCount sentenceNumber count svs).text =
    address ++ (gsvFields sentenceCount sentenceNumber count svs).flatMap (',' :: ·) := by
  have satellites : (svs.flatMap svPieces).flatten = (svs.flatMap svFields).flatMap (',' :: ·) := by
    induction svs with
    | nil => rfl
    | cons sv svs ih =>
        rw [List.flatMap_cons, List.flatMap_cons, List.flatten_append, List.flatMap_append, ih,
          flatten_svPieces]
  simp [Draft.text, gsvDraft, gsvFields, satellites]

theorem length_satellites_le (all : ∀ sv ∈ svs, Shown sv) :
    ((svs.flatMap svFields).flatMap (',' :: ·)).length ≤ 18 * svs.length := by
  induction svs with
  | nil => exact Nat.le_refl _
  | cons sv svs ih =>
      have first := (all sv List.mem_cons_self).length_le
      have rest := ih fun other mem => all other (List.mem_cons_of_mem _ mem)
      rw [List.flatMap_cons, List.flatMap_append, List.length_append, List.length_cons]
      omega

/-- Four satellites never fill the buffer, whatever the counters are. -/
theorem gsvDraft_fits (six : address.length = 6) (few : sentenceCount < 10 ^ 10)
    (numbered : sentenceNumber < 10 ^ 10) (counted : count < 10 ^ 10) (four : svs.length ≤ 4)
    (all : ∀ sv ∈ svs, Shown sv) :
    (gsvDraft address sentenceCount sentenceNumber count svs).Fits := by
  have satellites := length_satellites_le all
  have header : ∀ width n : Nat, width ≤ 2 → n < 10 ^ 10 → (decimal width n).length ≤ 10 := by
    intro width n narrow small
    have length := @length_decimal_le width n 10 (by decide) small
    omega
  have first := header 0 _ (by decide) few
  have second := header 0 _ (by decide) numbered
  have third := header 2 _ (by decide) counted
  rw [Draft.Fits, gsvDraft_text, gsvFields, NMEA_SENTENCE_MAX_LENGTH]
  simp only [List.flatMap_cons, List.length_append, List.length_cons]
  omega

theorem plain_gsvFields (all : ∀ sv ∈ svs, Shown sv) :
    ∀ field ∈ gsvFields sentenceCount sentenceNumber count svs, PlainText field := by
  rw [gsvFields]
  simp only [List.forall_mem_cons, List.forall_mem_flatMap]
  exact ⟨plain_decimal _ _, plain_decimal _ _, plain_decimal _ _, fun sv mem => (all sv mem).plain⟩

/-- A sentence reads as what it was made of. -/
theorem readGsv_gsvDraft (plain_address : PlainText address) (all : ∀ sv ∈ svs, Shown sv) :
    readGsv (gsvDraft address sentenceCount sentenceNumber count svs).sent.pNmea =
      some ⟨address, sentenceCount, sentenceNumber, count, svs.map GpsSvInfo.expected⟩ := by
  have plain : ∀ field ∈ gsvFields sentenceCount sentenceNumber count svs, PlainText field :=
    plain_gsvFields all
  have free : '*' ∉ (gsvDraft address sentenceCount sentenceNumber count svs).text := by
    rw [gsvDraft_text]
    intro mem
    cases List.mem_append.mp mem with
    | inl first => exact (plain_address _ first).2 rfl
    | inr rest =>
        obtain ⟨field, listed, inside⟩ := List.mem_flatMap.mp rest
        cases List.mem_cons.mp inside with
        | inl comma => cases comma
        | inr inside => exact (plain field listed _ inside).2 rfl
  have split : (address ++ (gsvFields sentenceCount sentenceNumber count svs).flatMap
      (',' :: ·)).splitOn ',' = address :: gsvFields sentenceCount sentenceNumber count svs := by
    apply splitOn_preceded
    · exact fun comma => (plain_address _ comma).1 rfl
    · exact fun field mem comma => (plain field mem _ comma).1 rfl
  rw [readGsv, body_sent free, gsvDraft_text, split, gsvFields]
  simp only [readNumber_decimal, readSvs_svFields all, Option.bind_eq_bind, Option.bind_some,
    Option.pure_def]

end Sentences

section Systems
variable {svs : List (GpsSvInfo ℚ)} {address : Text}

/-- Groups of four make up the list. -/
theorem flatMap_group (svs : List (GpsSvInfo ℚ)) (count : Nat) :
    (List.range count).flatMap (group svs) = svs.take (4 * count) := by
  induction count with
  | zero => rfl
  | succ count ih =>
      rw [List.range_succ, List.flatMap_append, ih, List.flatMap_singleton, group, Nat.mul_succ,
        List.take_add]

/-- What the sentences of a system say if these are its satellites: a blank sentence if there are
none, or else sentences of four that name each satellite once and in the order of the list. -/
structure Carries (address : Text) (svs : List (GpsSvInfo ℚ)) (sentences : List Sent) : Prop where
  blank : svs = [] → ∃ sent, sentences = [sent] ∧
    sent.pNmea.takeWhile (· ≠ '*') = address ++ ",1,1,0,".toList
  groups : svs ≠ [] → ∃ groups : List (List SvFields),
    groups.length = (svs.length + 3) / 4 ∧ (∀ group ∈ groups, group.length ≤ 4) ∧
    groups.flatten = svs.map GpsSvInfo.expected ∧
    sentences.map (fun sent => readGsv sent.pNmea) = groups.mapIdx fun i group =>
      some ⟨address, groups.length, i + 1, svs.length, group⟩

theorem Shown.of_mem_group (all : ∀ sv ∈ svs, Shown sv) (k : Nat) : ∀ sv ∈ group svs k, Shown sv :=
  fun sv mem => all sv (List.mem_of_mem_drop (List.mem_of_mem_take mem))

/-- The sentences of a system. -/
theorem gsv_eq {inRange : Int → Bool} {report : List (GpsSvInfo ℚ)}
    (listed : matching inRange report = svs) (some_sv : svs ≠ []) :
    gsv address inRange svs.length report = (List.range ((svs.length + 3) / 4)).map fun k =>
      gsvDraft address ((svs.length + 3) / 4) (k + 1) svs.length (group svs k) := by
  have positive : svs.length ≠ 0 := by simpa using some_sv
  have total : (svs.length / 4 + if svs.length % 4 ≠ 0 then 1 else 0) = (svs.length + 3) / 4 := by
    split <;> omega
  simp only [gsv, if_neg positive, total, gsvLoop_eq, listed, Nat.add_comm 1]

theorem gsv_of_none {inRange : Int → Bool} {report : List (GpsSvInfo ℚ)} :
    gsv address inRange 0 report = [⟨[], address ++ ",1,1,0,".toList⟩] := rfl

theorem gsv_fits {inRange : Int → Bool} {report : List (GpsSvInfo ℚ)}
    (listed : matching inRange report = svs) (six : address.length = 6)
    (small : svs.length < 2 ^ 31) (all : ∀ sv ∈ svs, Shown sv) :
    ∀ draft ∈ gsv address inRange svs.length report, draft.Fits := by
  intro draft mem
  by_cases none : svs = []
  · rw [none, List.length_nil, gsv_of_none] at mem
    obtain rfl := List.mem_singleton.mp mem
    have length : (address ++ ",1,1,0,".toList).length = 13 := by
      rw [List.length_append, six]
      rfl
    rw [Draft.Fits, Draft.text, List.flatten_nil, List.nil_append, length]
    decide
  · rw [gsv_eq listed none] at mem
    obtain ⟨k, inside, rfl⟩ := List.mem_map.mp mem
    have inside := List.mem_range.mp inside
    apply gsvDraft_fits six (by omega) (by omega) (by omega) _ (Shown.of_mem_group all k)
    exact List.length_take_le _ _

theorem gsv_carries {inRange : Int → Bool} {report : List (GpsSvInfo ℚ)}
    (listed : matching inRange report = svs) (plain : PlainText address)
    (all : ∀ sv ∈ svs, Shown sv) :
    Carries address svs ((gsv address inRange svs.length report).map Draft.sent) := by
  constructor
  case blank =>
    rintro rfl
    refine ⟨_, rfl, body_sent ?_⟩
    change '*' ∉ address ++ ",1,1,0,".toList
    rw [List.mem_append]
    intro mem
    cases mem with
    | inl inside => exact (plain _ inside).2 rfl
    | inr inside =>
        revert inside
        decide
  case groups =>
    intro some_sv
    refine ⟨(List.range ((svs.length + 3) / 4)).map fun k =>
      (group svs k).map GpsSvInfo.expected, ?_, ?_, ?_, ?_⟩
    · rw [List.length_map, List.length_range]
    · intro fields mem
      obtain ⟨k, -, rfl⟩ := List.mem_map.mp mem
      rw [List.length_map]
      exact List.length_take_le _ _
    · have whole : svs.take (4 * ((svs.length + 3) / 4)) = svs := List.take_of_length_le (by omega)
      rw [← List.flatMap_def, ← List.map_flatMap, flatMap_group, whole]
    · rw [gsv_eq listed some_sv]
      apply List.ext_getElem
      · simp only [List.length_map, List.length_mapIdx]
      intro k _ _
      simp only [List.getElem_map, List.getElem_range, List.getElem_mapIdx, List.length_map,
        List.length_range]
      exact readGsv_gsvDraft plain (Shown.of_mem_group all k)

/-- No satellite report with sane values ends in a formatting error; the sentences of each system
carry its satellites. -/
theorem gsv_sentences_carry_every_satellite (data : LocEngData ℚ) (svStatus : HaxxSvStatus ℚ)
    (locationExtended : GpsLocationExtended ℚ) (bounded : svStatus.sv_list.length < 2 ^ 31)
    (sane : ∀ sv ∈ svStatus.sv_list, sv.Sane) :
    (generateSv data svStatus locationExtended).formatted = true ∧
      (data.nmea_cb = true → ∃ gps glonass,
        (generateSv data svStatus locationExtended).sent = gps ++ glonass ∧
        Carries "$GPGSV".toList (matching isGps svStatus.sv_list) gps ∧
        Carries "$GLGSV".toList (matching isGlonass svStatus.sv_list) glonass) := by
  have shown : ∀ inRange : Int → Bool, (∀ prn, inRange prn = true → 0 ≤ prn ∧ prn < 100) →
      ∀ sv ∈ matching inRange svStatus.sv_list, Shown sv := by
    intro inRange range sv mem
    obtain ⟨listed, found⟩ := List.mem_filter.mp mem
    exact ⟨range _ found, sane sv listed⟩
  have gps := shown isGps fun prn found => by
    simp only [isGps, Bool.and_eq_true, decide_eq_true_eq] at found
    omega
  have glonass := shown isGlonass fun prn found => by
    simp only [isGlonass, Bool.and_eq_true, decide_eq_true_eq] at found
    omega
  have fewer : ∀ inRange : Int → Bool,
      (matching inRange svStatus.sv_list).length < 2 ^ 31 :=
    fun _ => Nat.lt_of_le_of_lt (List.length_filter_le _ _) bounded
  have drafts : gpgsv svStatus.sv_list ++ glgsv svStatus.sv_list =
      gsv "$GPGSV".toList isGps (matching isGps svStatus.sv_list).length svStatus.sv_list ++
        gsv "$GLGSV".toList isGlonass (matching isGlonass svStatus.sv_list).length
          svStatus.sv_list := by
    rw [gpgsv, glgsv, countSvs_eq]
  have fits : ∀ draft ∈ gpgsv svStatus.sv_list ++ glgsv svStatus.sv_list, draft.Fits := by
    rw [drafts]
    intro draft mem
    exact (List.mem_append.mp mem).elim (gsv_fits rfl rfl (fewer _) gps draft)
      (gsv_fits rfl rfl (fewer _) glonass draft)
  have all := sendAll_of_fits fits data.nmea_cb
  refine ⟨congrArg Prod.snd all, fun callback => ?_⟩
  have sent : (generateSv data svStatus locationExtended).sent =
      (gpgsv svStatus.sv_list ++ glgsv svStatus.sv_list).map Draft.sent := by
    rw [callback] at all
    exact (congrArg (fun data => (sendAll data _).1) callback).trans (congrArg Prod.fst all)
  rw [sent, drafts, List.map_append]
  exact ⟨_, _, rfl, gsv_carries rfl (by decide) gps, gsv_carries rfl (by decide) glonass⟩

end Systems

/-- Five GPS satellites with one of GLONASS and one of neither between them. -/
def mixedReport : HaxxSvStatus ℚ where
  sv_list := [⟨3, 30, 41 / 2, 118⟩, ⟨70, 28, 15, 200⟩, ⟨7, 0, 5, 719 / 2⟩, ⟨193, 33, 80, 90⟩,
    ⟨32, 42, 66, 1⟩, ⟨1, 25, 12, 45⟩, ⟨19, 27, 33, 270⟩]
  gps_used_in_fix_mask := 5

theorem mixed_report_is_carried :
    (generateSv withCallback mixedReport ⟨0, 0, 0, 0, 0, 0⟩).formatted = true ∧
      (withCallback.nmea_cb = true → ∃ gps glonass,
        (generateSv withCallback mixedReport ⟨0, 0, 0, 0, 0, 0⟩).sent = gps ++ glonass ∧
        Carries "$GPGSV".toList (matching isGps mixedReport.sv_list) gps ∧
        Carries "$GLGSV".toList (matching isGlonass mixedReport.sv_list) glonass) :=
  gsv_sentences_carry_every_satellite withCallback mixedReport _ (by decide) (by decide +kernel)

end Msm8974.Nmea
