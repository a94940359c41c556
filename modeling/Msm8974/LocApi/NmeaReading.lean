import Msm8974.LocApi.NmeaGsv

/-!
What can be read back from the sentences of a position report. A number is rounded to the nearest
one of its decimals; a field with a checked piece behind it is there even if the end of its
sentence is cut.
-/

namespace Msm8974.Nmea
open CReal DelimitedText

section Rounding
variable {q : ℚ}

theorem floor_toNat_le (nonneg : 0 ≤ q) : (q.floor.toNat : ℚ) ≤ q := Nat.floor_le nonneg

theorem lt_floor_toNat_add_one (q : ℚ) : q < q.floor.toNat + 1 := Nat.lt_floor_add_one q

theorem abs_roundHalfEven_sub_le (nonneg : 0 ≤ q) : |(roundHalfEven q : ℚ) - q| ≤ 1 / 2 := by
  have below := floor_toNat_le nonneg
  have above := lt_floor_toNat_add_one q
  rw [roundHalfEven, abs_le]
  split
  next down =>
    have half : q - q.floor.toNat ≤ 1 / 2 := down.elim le_of_lt fun tie => tie.1.le
    constructor <;> linarith
  next up =>
    have half : 1 / 2 ≤ q - q.floor.toNat := not_lt.mp fun less => up (.inl less)
    push_cast
    constructor <;> linarith

/-- A tie above an even number goes down to it. -/
theorem roundHalfEven_le_iff (nonneg : 0 ≤ q) {k : Nat} (even : k % 2 = 0) :
    roundHalfEven q ≤ k ↔ q ≤ k + 1 / 2 := by
  have below := floor_toNat_le nonneg
  have above := lt_floor_toNat_add_one q
  rw [roundHalfEven]
  generalize q.floor.toNat = n at below above
  obtain less | rfl | more := lt_trichotomy n k
  · have cast : (n : ℚ) + 1 ≤ k := mod_cast less
    refine iff_of_true ?_ (by linarith)
    split <;> omega
  · split
    next down => exact iff_of_true le_rfl (by linarith [down.elim le_of_lt fun tie => tie.1.le])
    next up =>
      refine iff_of_false (Nat.not_succ_le_self n) fun small => up ?_
      obtain less | tie := lt_or_eq_of_le small
      · exact .inl (by linarith)
      · exact .inr ⟨by linarith, even⟩
  · have cast : (k : ℚ) + 1 ≤ n := mod_cast more
    refine iff_of_false ?_ (by linarith)
    split <;> omega

/-- A tie below an even number goes up to it. -/
theorem le_roundHalfEven_iff (nonneg : 0 ≤ q) {k : Nat} (even : k % 2 = 0) :
    k ≤ roundHalfEven q ↔ k - 1 / 2 ≤ q := by
  have below := floor_toNat_le nonneg
  have above := lt_floor_toNat_add_one q
  rw [roundHalfEven]
  generalize q.floor.toNat = n at below above
  obtain less | rfl | more := lt_trichotomy (n + 1) k
  · have cast : (n : ℚ) + 1 + 1 ≤ k := mod_cast less
    refine iff_of_false ?_ (by linarith)
    split <;> omega
  · push_cast
    split
    next down =>
      have strict : q - n < 1 / 2 := down.resolve_right fun tie => by omega
      exact iff_of_false (Nat.not_succ_le_self n) (by linarith)
    next up =>
      have half : 1 / 2 ≤ q - n := not_lt.mp fun less => up (.inl less)
      exact iff_of_true le_rfl (by linarith)
  · have cast : (k : ℚ) ≤ n := mod_cast Nat.le_of_lt_succ more
    refine iff_of_true ?_ (by linarith)
    split <;> omega

end Rounding

section Numbers

/-- A field of digits with a point before the last of them. -/
def readFixed (precision : Nat) (field : Text) : Option ℚ :=
  match field.splitOn '.' with
  | [whole, decimals] =>
      if decimals.length = precision then do
        let whole ← readNumber whole
        let decimals ← readNumber decimals
        return (whole : ℚ) + (decimals : ℚ) / 10 ^ precision
      else none
  | _ => none

theorem length_padded_of_lt {width n : Nat} (positive : 0 < width) (small : n < 10 ^ width) :
    (padded width n).length = width := by
  have length := length_padded width n
  have le := @length_padded_le width n width positive small
  omega

theorem point_not_mem_padded (width n : Nat) : '.' ∉ padded width n := by
  intro mem
  have digit := isDigit_of_mem_padded mem
  revert digit
  decide

theorem readNumber_padded (width n : Nat) : readNumber (padded width n) = some n := by
  rw [← decimal_natCast, readNumber_decimal]

/-- The digits of a rounded number that is not negative. -/
theorem fixedRat_eq (width : Nat) {precision : Nat} (positive : 0 < precision) {q : ℚ}
    (nonneg : 0 ≤ q) :
    fixedRat width precision q =
      padded (width - (precision + 1)) (roundHalfEven (q * 10 ^ precision) / 10 ^ precision) ++
        '.' :: padded precision (roundHalfEven (q * 10 ^ precision) % 10 ^ precision) := by
  have decimals := length_padded_of_lt positive
    (Nat.mod_lt (roundHalfEven (q * 10 ^ precision)) (Nat.pow_pos (by decide : 0 < 10)))
  have whole : ∀ n, padded 1 n = Nat.toDigits 10 n := fun n => by
    have nonempty := List.length_pos_of_ne_nil (@Nat.toDigits_ne_nil n 10)
    rw [padded, Nat.sub_eq_zero_of_le nonempty]
    rfl
  rw [fixedRat, abs_of_nonneg nonneg]
  simp only [if_neg nonneg.not_gt, List.length_append, List.length_cons, decimals, whole,
    List.nil_append, List.length_nil]
  rw [padded, ← List.append_assoc]
  congr 3
  omega

theorem readFixed_fixedRat (width : Nat) {precision : Nat} (positive : 0 < precision) {q : ℚ}
    (nonneg : 0 ≤ q) :
    readFixed precision (fixedRat width precision q) =
      some ((roundHalfEven (q * 10 ^ precision) : ℚ) / 10 ^ precision) := by
  rw [fixedRat_eq width positive nonneg]
  generalize roundHalfEven (q * 10 ^ precision) = n
  have decimals := length_padded_of_lt positive
    (Nat.mod_lt n (Nat.pow_pos (by decide : 0 < 10)))
  have split : (padded (width - (precision + 1)) (n / 10 ^ precision) ++
      '.' :: padded precision (n % 10 ^ precision)).splitOn '.' =
      [padded (width - (precision + 1)) (n / 10 ^ precision),
        padded precision (n % 10 ^ precision)] := by
    rw [List.splitOn_append_cons_self_of_not_mem (point_not_mem_padded _ _),
      List.splitOn_eq_singleton (point_not_mem_padded _ _)]
  have value : ((n / 10 ^ precision : ℕ) : ℚ) + (n % 10 ^ precision : ℕ) / 10 ^ precision =
      n / 10 ^ precision := by
    have power : (10 : ℚ) ^ precision ≠ 0 := pow_ne_zero _ (by norm_num)
    have parts : ((10 ^ precision * (n / 10 ^ precision) + n % 10 ^ precision : ℕ) : ℚ) = n :=
      congrArg _ (Nat.div_add_mod n (10 ^ precision))
    push_cast at parts ⊢
    field_simp
    linarith
  rw [readFixed, split]
  simp only [decimals, if_true, readNumber_padded, Option.bind_eq_bind, Option.bind_some,
    Option.pure_def, value]

end Numbers

section Sentences

/-- The fields that are terminated can be read, whatever comes behind them. -/
theorem fields_of_prefix {address : Text} {inner : List Text} {sentence : Text}
    (begins : terminated ',' (address :: inner) <+: sentence) (plain_address : PlainText address)
    (plain : ∀ field ∈ inner, PlainText field) : inner <+: fields sentence := by
  obtain ⟨rest, rfl⟩ := begins
  have all : ∀ field ∈ address :: inner, PlainText field :=
    List.forall_mem_cons.mpr ⟨plain_address, plain⟩
  have free : '*' ∉ terminated ',' (address :: inner) := asterisk_not_mem_terminated all
  rw [fields, takeWhile_ne_append free, splitOn_terminated_append]
  · exact List.prefix_append _ _
  · exact fun field mem comma => (all field mem _ comma).1 rfl

theorem Sentence.foldlM_append_text {s t : Sentence} {pieces : List Text}
    (printed : pieces.foldlM append s = some t) : t.text = s.text ++ pieces.flatten := by
  induction pieces generalizing s with
  | nil =>
      obtain rfl := Option.some.inj printed
      exact (List.append_nil _).symm
  | cons piece pieces ih =>
      obtain ⟨next, first, rest⟩ := Option.bind_eq_some_iff.mp printed
      obtain ⟨long, same⟩ := Option.ite_none_left_eq_some.mp first
      obtain rfl := Option.some.inj same
      have room : s.text.length + piece.length < NMEA_SENTENCE_MAX_LENGTH := by
        rw [lengthRemaining] at long
        omega
      rw [ih rest, snprintf_text room, List.flatten_cons, List.append_assoc]

theorem Draft.checked_prefix {draft : Draft} {s : Sentence} (printed : draft.print = some s) :
    draft.checked.flatten <+: s.text := by
  obtain ⟨checked, all, rfl⟩ := Option.map_eq_some_iff.mp printed
  have whole : checked.text = draft.checked.flatten := Sentence.foldlM_append_text all
  rw [← whole]
  exact List.prefix_append _ _

/-- The checked pieces of a sentence are sent whole. -/
theorem checked_prefix_of_mem_sendAll {nmea_cb : Bool} {drafts : List Draft} {sent : Sent}
    (mem : sent ∈ (sendAll nmea_cb drafts).1) :
    ∃ draft ∈ drafts, draft.checked.flatten <+: sent.pNmea := by
  induction drafts with
  | nil => cases mem
  | cons draft drafts ih =>
      rw [sendAll] at mem
      cases printed : draft.print with
      | none =>
          rw [printed] at mem
          cases mem
      | some s =>
          rw [printed] at mem
          cases List.mem_append.mp mem with
          | inl here =>
              obtain ⟨-, here⟩ := List.mem_ite_nil_right.mp here
              obtain rfl := List.mem_singleton.mp here
              refine ⟨draft, List.mem_cons_self, (Draft.checked_prefix printed).trans ?_⟩
              exact List.prefix_append _ _
          | inr later =>
              obtain ⟨other, listed, begins⟩ := ih later
              exact ⟨other, List.mem_cons_of_mem _ listed, begins⟩

variable {F : Type} [CReal F]

/-- The sentences of a full position report by their addresses. -/
def byAddress (pTm : Tm) (data : LocEngData F) (location : GpsLocation F)
    (locationExtended : GpsLocationExtended F) : List (Text × Draft) :=
  [("$GPGSA,".toList, gpgsa data locationExtended), ("$GPVTG,".toList, gpvtg data location),
    ("$GPRMC,".toList, gprmc pTm data location locationExtended),
    ("$GPGGA,".toList, gpgga pTm data location locationExtended)]

theorem address_prefix {pTm : Tm} {data : LocEngData F} {location : GpsLocation F}
    {locationExtended : GpsLocationExtended F} {draft : Draft}
    (listed : draft ∈ posDrafts pTm data location locationExtended true) :
    ∃ address, address.length = 7 ∧ address <+: draft.checked.flatten ∧
      (byAddress pTm data location locationExtended).lookup address = some draft := by
  simp only [posDrafts, if_true, List.mem_cons, List.not_mem_nil, or_false] at listed
  obtain rfl | rfl | rfl | rfl := listed
  · exact ⟨"$GPGSA,".toList, rfl, ⟨_, rfl⟩, rfl⟩
  · refine ⟨"$GPVTG,".toList, rfl, ?_, rfl⟩
    rw [gpvtg, vtgCourse]
    split <;> exact ⟨_, rfl⟩
  · exact ⟨"$GPRMC,".toList, rfl, ⟨_, rfl⟩, rfl⟩
  · exact ⟨"$GPGGA,".toList, rfl, ⟨_, rfl⟩, rfl⟩

/-- A sentence that a full position report sends is the one of its address. -/
theorem checked_prefix_of_address {gmtime : Int → Option Tm} {data : LocEngData F}
    {location : GpsLocation F} {locationExtended : GpsLocationExtended F} {sent : Sent}
    (mem : sent ∈ (generatePos gmtime data location locationExtended true).sent)
    {address : Text} (begins : address <+: sent.pNmea) (seven : address.length = 7) :
    ∃ pTm draft, gmtime (location.timestamp.tdiv 1000) = some pTm ∧
      (byAddress pTm data location locationExtended).lookup address = some draft ∧
      draft.checked.flatten <+: sent.pNmea := by
  rw [generatePos] at mem
  cases timed : gmtime (location.timestamp.tdiv 1000) with
  | none =>
      rw [timed] at mem
      cases mem
  | some pTm =>
      rw [timed] at mem
      obtain ⟨draft, listed, checked⟩ := checked_prefix_of_mem_sendAll mem
      obtain ⟨own, length, first, found⟩ := address_prefix listed
      have same : own.length = address.length := length.trans seven.symm
      obtain rfl : own = address :=
        (List.prefix_of_prefix_length_le (first.trans checked) begins same.le).eq_of_length same
      exact ⟨pTm, draft, rfl, found, checked⟩

end Sentences
end Msm8974.Nmea
