import Msm8974.LocApi.NmeaSentences

/-!
The fields of GPGSA, GPVTG, GPRMC and GPGGA. Each optional piece of a sentence has as many commas
in its empty form as in its full one.
-/

namespace Msm8974.Nmea
open CReal DelimitedText

/-- The fields of a sentence behind its address: between commas, up to the asterisk. -/
def fields (sentence : Text) : List Text :=
  ((sentence.takeWhile (· ≠ '*')).splitOn ',').drop 1

section UsedSatellites

/-- The positions of the set bits, counted from 1, below a position. -/
def setBitsBelow (mask : BitVec 32) (k : Nat) : List Nat :=
  ((List.range k).filter (mask.getLsbD ·)).map (· + 1)

/-- The positions of the set bits, counted from 1 and in ascending order. -/
def setBits (mask : BitVec 32) : List Nat := setBitsBelow mask 32

theorem setBitsBelow_succ (mask : BitVec 32) (k : Nat) :
    setBitsBelow mask (k + 1) =
      if mask.getLsbD k then setBitsBelow mask k ++ [k + 1] else setBitsBelow mask k := by
  rw [setBitsBelow, setBitsBelow, List.range_succ, List.filter_append, List.map_append]
  cases set : mask.getLsbD k <;> simp [set]

theorem length_setBitsBelow_le (mask : BitVec 32) (k : Nat) :
    (setBitsBelow mask k).length ≤ k := by
  rw [setBitsBelow, List.length_map]
  exact (List.length_filter_le _ _).trans_eq List.length_range

/-- The lowest bit decides what a round of the loop adds. -/
theorem and_one_ne_zero_iff (x : BitVec 32) : x &&& 1 ≠ 0 ↔ x.getLsbD 0 = true := by
  rw [show x &&& 1 = _ from BitVec.and_one_eq_setWidth_ofBool_getLsbD]
  cases x.getLsbD 0 <;> decide

/-- Nothing is added once the mask is zero. -/
theorem setBits_of_shifted {mask : BitVec 32} {k : Nat} (empty : mask >>> k = 0) (n : Nat) :
    setBitsBelow mask (k + n) = setBitsBelow mask k := by
  induction n with
  | zero => rfl
  | succ n ih =>
      have unset : mask.getLsbD (k + n) = false := by
        rw [← BitVec.getLsbD_ushiftRight, empty]
        exact BitVec.getLsbD_zero
      rw [← Nat.add_assoc, setBitsBelow_succ, unset, ih]
      rfl

/-- The loop from the round for bit k on. -/
theorem usedLoop_eq (mask : BitVec 32) {bits k : Nat} (all : k + bits = 32) :
    usedLoop bits (k + 1) (mask >>> k) (setBitsBelow mask k) = setBits mask := by
  induction bits generalizing k with
  | zero =>
      rw [Nat.add_zero] at all
      rw [usedLoop, all, setBits]
  | succ bits ih =>
      rw [usedLoop]
      have room := length_setBitsBelow_le mask k
      split
      next more =>
        have shifted : (mask >>> k) >>> 1 = mask >>> (k + 1) := by
          rw [BitVec.shiftRight_add]
        have added : (if mask >>> k &&& 1 ≠ 0 then setBitsBelow mask k ++ [k + 1]
            else setBitsBelow mask k) = setBitsBelow mask (k + 1) := by
          rw [setBitsBelow_succ]
          simp only [and_one_ne_zero_iff, BitVec.getLsbD_ushiftRight, Nat.add_zero]
        rw [shifted, added]
        exact ih (by omega)
      next done =>
        have empty : mask >>> k = 0 := by
          generalize mask >>> k = rest at done
          bv_omega
        rw [setBits, ← all, setBits_of_shifted empty]

theorem svUsedList_eq (mask : BitVec 32) : svUsedList mask = setBits mask := by
  have start := @usedLoop_eq mask 32 0 rfl
  rwa [BitVec.ushiftRight_zero] at start

end UsedSatellites

section Plain

/-- A character that stands in a field. -/
def Plain (c : Char) : Prop := c ≠ ',' ∧ c ≠ '*'

instance (c : Char) : Decidable (Plain c) := inferInstanceAs (Decidable (_ ∧ _))

def PlainText (text : Text) : Prop := ∀ c ∈ text, Plain c

instance (text : Text) : Decidable (PlainText text) := List.decidableBAll Plain text

theorem plain_nil : PlainText [] := by decide

theorem plain_of_alphanum {c : Char} (h : c.isAlphanum = true) : Plain c := by
  constructor
  · rintro rfl
    revert h
    decide
  · rintro rfl
    revert h
    decide

theorem PlainText.append {text text' : Text} (h : PlainText text) (h' : PlainText text') :
    PlainText (text ++ text') :=
  fun c mem => (List.mem_append.mp mem).elim (h c) (h' c)

theorem PlainText.cons {c : Char} {text : Text} (h : Plain c) (h' : PlainText text) :
    PlainText (c :: text) :=
  List.forall_mem_cons.mpr ⟨h, h'⟩

theorem plain_padded (width n : Nat) : PlainText (padded width n) :=
  fun _ mem => plain_of_alphanum (alphanum_of_mem_padded mem)

theorem plain_decimal (width : Nat) (n : Int) : PlainText (decimal width n) := by
  rw [decimal]
  split
  · exact .cons (by decide) (plain_padded _ _)
  · exact plain_padded _ _

theorem plain_digits (precision : Nat) (n : Int) : PlainText (digits precision n) := by
  rw [digits]
  split
  · exact .cons (by decide) (plain_padded _ _)
  · exact plain_padded _ _

theorem plain_fixed {F : Type} [CReal F] (width precision : Nat) (x : F) :
    PlainText (fixed width precision x) := by
  intro c mem
  rcases fixed_chars width precision x c mem with alphanum | rfl | rfl | rfl
  · exact plain_of_alphanum alphanum
  all_goals decide

/-- The asterisk ends the text that the checksum is of. -/
theorem body_sent {draft : Draft} (free : '*' ∉ draft.text) :
    draft.sent.pNmea.takeWhile (· ≠ '*') = draft.text := by
  rw [Draft.sent]
  exact takeWhile_ne_cons free _

theorem asterisk_not_mem_terminated {fields : List Text}
    (plain : ∀ field ∈ fields, PlainText field) : '*' ∉ terminated ',' fields := by
  intro mem
  cases mem_terminated mem with
  | inl comma => cases comma
  | inr field => exact (plain _ field.choose_spec.1 _ field.choose_spec.2).2 rfl

/-- A sentence in fields has these behind its address. -/
theorem fields_sent {draft : Draft} {address : Text} {inner : List Text} {last : Text}
    (text : draft.text = terminated ',' (address :: inner) ++ last)
    (plain_address : PlainText address) (plain : ∀ field ∈ inner, PlainText field)
    (plain_last : PlainText last) :
    fields draft.sent.pNmea = inner ++ [last] := by
  have all : ∀ field ∈ address :: inner, PlainText field :=
    List.forall_mem_cons.mpr ⟨plain_address, plain⟩
  have free : '*' ∉ draft.text := by
    rw [text, List.mem_append, not_or]
    exact ⟨asterisk_not_mem_terminated all, fun tail => (plain_last _ tail).2 rfl⟩
  rw [fields, body_sent free, text, splitOn_terminated]
  · rfl
  · exact fun field mem comma => (all field mem _ comma).1 rfl
  · exact fun comma => (plain_last _ comma).1 rfl

end Plain

section Pieces

/-- So many fields with commas behind them. -/
def Piece (count : Nat) (text : Text) : Prop := Terminated ',' Plain count text

theorem plain_modeIndicator {F : Type} (data : LocEngData F) (location : GpsLocation F) :
    PlainText [modeIndicator data location] := by
  rw [modeIndicator]
  split
  · decide
  · split <;> decide

theorem plain_gpsQuality {F : Type} (data : LocEngData F) (location : GpsLocation F) :
    PlainText [gpsQuality data location] := by
  rw [gpsQuality]
  split
  · decide
  · split <;> decide

variable {F : Type} [CReal F]

theorem piece_coordinates (location : GpsLocation F) : Piece 4 (coordinates location) := by
  rw [coordinates]
  split
  next =>
    obtain ⟨latHemisphere, latitude, north, lat⟩ : ∃ c x, PlainText [c] ∧
        (if literal 0 < location.latitude then ('N', location.latitude)
          else ('S', location.latitude * literal (-1))) = (c, x) := by
      split <;> exact ⟨_, _, by decide, rfl⟩
    obtain ⟨lonHemisphere, longitude, east, lon⟩ : ∃ c x, PlainText [c] ∧
        (if location.longitude < literal 0 then ('W', location.longitude * literal (-1))
          else ('E', location.longitude)) = (c, x) := by
      split <;> exact ⟨_, _, by decide, rfl⟩
    have angle : ∀ (width : Nat) (degrees : F), PlainText (decimal width (toByte (floor degrees)) ++
        fixed 9 6 (fmod (degrees * literal 60) (literal 60))) :=
      fun _ _ => (plain_decimal _ _).append (plain_fixed _ _ _)
    have whole : Piece 4 _ := .cons _ (angle 2 latitude) (.cons [latHemisphere] north
      (.cons _ (angle 3 longitude) (.cons [lonHemisphere] east .nil)))
    rw [lat, lon]
    simpa only [List.append_assoc, List.cons_append, List.nil_append] using whole
  next =>
    exact .cons [] plain_nil (.cons [] plain_nil (.cons [] plain_nil (.cons [] plain_nil .nil)))

theorem plain_utcTime (pTm : Tm) : PlainText (utcTime pTm) :=
  ((plain_decimal _ _).append (plain_decimal _ _)).append (plain_decimal _ _)

theorem piece_vtgSpeed (location : GpsLocation F) : Piece 4 (vtgSpeed location) := by
  have knots : PlainText ['N'] := by decide
  have kmPerHour : PlainText ['K'] := by decide
  rw [vtgSpeed]
  split
  next =>
    rw [List.append_assoc, List.append_assoc]
    exact .cons _ (plain_fixed _ _ _) (.cons ['N'] knots
      (.cons _ (plain_fixed _ _ _) (.cons ['K'] kmPerHour .nil)))
  next =>
    exact .cons [] plain_nil (.cons ['N'] knots
      (.cons [] plain_nil (.cons ['K'] kmPerHour .nil)))

theorem piece_rmcSpeed (location : GpsLocation F) : Piece 1 (rmcSpeed location) := by
  rw [rmcSpeed]
  split
  next => exact .cons _ (plain_fixed _ _ _) .nil
  next => exact .cons [] plain_nil .nil

theorem piece_rmcBearing (location : GpsLocation F) : Piece 1 (rmcBearing location) := by
  rw [rmcBearing]
  split
  next => exact .cons _ (plain_fixed _ _ _) .nil
  next => exact .cons [] plain_nil .nil

theorem plain_utcDate (pTm : Tm) : PlainText (utcDate pTm) :=
  ((plain_digits _ _).append (plain_digits _ _)).append (plain_digits _ _)

theorem piece_rmcVariation (locationExtended : GpsLocationExtended F) :
    Piece 2 (rmcVariation locationExtended) := by
  rw [rmcVariation]
  split
  next =>
    obtain ⟨direction, variation, plain, same⟩ : ∃ c x, PlainText [c] ∧
        (if locationExtended.magneticDeviation < literal 0 then
          ('W', toFloat (locationExtended.magneticDeviation * literal (-1)))
          else ('E', locationExtended.magneticDeviation)) = (c, x) := by
      split <;> exact ⟨_, _, by decide, rfl⟩
    rw [same]
    exact .cons _ (plain_fixed _ _ _) (.cons [direction] plain .nil)
  next => exact .cons [] plain_nil (.cons [] plain_nil .nil)

theorem piece_ggaAltitude (locationExtended : GpsLocationExtended F) :
    Piece 2 (ggaAltitude locationExtended) := by
  have metres : PlainText ['M'] := by decide
  rw [ggaAltitude]
  split
  next => exact .cons _ (plain_fixed _ _ _) (.cons ['M'] metres .nil)
  next => exact .cons [] plain_nil (.cons [] plain_nil .nil)

theorem piece_ggaSeparation (location : GpsLocation F)
    (locationExtended : GpsLocationExtended F) :
    Piece 3 (ggaSeparation location locationExtended) := by
  have metres : PlainText ['M'] := by decide
  rw [ggaSeparation]
  split
  next => exact .cons _ (plain_fixed _ _ _) (.cons ['M'] metres (.cons [] plain_nil .nil))
  next => exact .cons [] plain_nil (.cons [] plain_nil (.cons [] plain_nil .nil))

theorem plain_ggaHdop (data : LocEngData F) (locationExtended : GpsLocationExtended F) :
    PlainText (ggaHdop data locationExtended) := by
  rw [ggaHdop]
  split
  next => exact plain_fixed _ _ _
  next => decide

theorem plain_usedField (used : List Nat) (i : Nat) : PlainText (usedField used i) := by
  rw [usedField]
  split
  next => exact plain_decimal _ _
  next => decide

/-- The address and so many fields with commas behind them. -/
def Opening (address : Text) (count : Nat) (text : Text) : Prop :=
  ∃ inner, inner.length = count ∧ (∀ field ∈ inner, PlainText field) ∧
    text = terminated ',' (address :: inner)

theorem Opening.of_piece {address rest : Text} {count : Nat} (h : Piece count rest) :
    Opening address count (address ++ ',' :: rest) := by
  obtain ⟨inner, length, plain, rfl⟩ := h
  refine ⟨inner, length, plain, ?_⟩
  rw [terminated, terminated, List.flatMap_cons, List.append_assoc, List.singleton_append]

theorem Opening.append {address text text' : Text} {count count' : Nat}
    (h : Opening address count text) (h' : Piece count' text') :
    Opening address (count + count') (text ++ text') := by
  obtain ⟨inner, rfl, plain, rfl⟩ := h
  obtain ⟨fields, rfl, plain', rfl⟩ := h'
  refine ⟨inner ++ fields, List.length_append, ?_, ?_⟩
  · exact fun field mem => (List.mem_append.mp mem).elim (plain field) (plain' field)
  · rw [← List.cons_append, terminated_append]

theorem Opening.length_fields {draft : Draft} {address text last : Text} {count : Nat}
    (h : Opening address count text) (plain_address : PlainText address)
    (plain_last : PlainText last) (same : draft.text = text ++ last) :
    (fields draft.sent.pNmea).length = count + 1 := by
  obtain ⟨inner, rfl, plain, rfl⟩ := h
  rw [fields_sent same plain_address plain plain_last, List.length_append, List.length_singleton]

theorem opening_vtgCourse (location : GpsLocation F) :
    Opening "$GPVTG".toList 4 (vtgCourse location) := by
  have true_north : PlainText ['T'] := by decide
  have magnetic : PlainText ['M'] := by decide
  rw [vtgCourse]
  split
  next =>
    have bearing := plain_fixed 0 1 location.bearing
    have whole : Opening "$GPVTG".toList 4 _ := .of_piece (.cons _ bearing
      (.cons ['T'] true_north (.cons _ bearing (.cons ['M'] magnetic .nil))))
    rw [List.append_assoc, List.append_assoc, List.append_assoc]
    exact whole
  next =>
    exact .of_piece (.cons [] plain_nil (.cons ['T'] true_north (.cons [] plain_nil
      (.cons ['M'] magnetic .nil))))

theorem length_fields_gpvtg (data : LocEngData F) (location : GpsLocation F) :
    (fields (gpvtg data location).sent.pNmea).length = 9 := by
  apply ((opening_vtgCourse location).append (piece_vtgSpeed location)).length_fields (by decide)
    (plain_modeIndicator data location)
  simp [Draft.text, gpvtg]

/-- GPRMC up to the date. -/
theorem opening_gprmc (pTm : Tm) (location : GpsLocation F) :
    Opening "$GPRMC".toList 9 ("$GPRMC,".toList ++ utcTime pTm ++ ",A,".toList ++
      coordinates location ++ rmcSpeed location ++ rmcBearing location ++
        (utcDate pTm ++ [','])) := by
  have opening : Opening "$GPRMC".toList 2 ("$GPRMC,".toList ++ utcTime pTm ++ ",A,".toList) := by
    have valid : PlainText ['A'] := by decide
    rw [List.append_assoc]
    exact .of_piece (.cons _ (plain_utcTime pTm) (.cons ['A'] valid .nil))
  exact (((opening.append (piece_coordinates location)).append (piece_rmcSpeed location)).append
    (piece_rmcBearing location)).append (Terminated.cons _ (plain_utcDate pTm) .nil)

theorem length_fields_gprmc (pTm : Tm) (data : LocEngData F) (location : GpsLocation F)
    (locationExtended : GpsLocationExtended F) :
    (fields (gprmc pTm data location locationExtended).sent.pNmea).length = 12 := by
  apply ((opening_gprmc pTm location).append (piece_rmcVariation locationExtended)).length_fields
    (by decide) (plain_modeIndicator data location)
  simp [Draft.text, gprmc]

/-- The twelve satellite fields of GPGSA. -/
def satelliteFields (mask : BitVec 32) : List Text :=
  let first := (setBits mask).take 12
  first.map (fun sv : Nat => decimal 2 sv) ++ List.replicate (12 - first.length) []

theorem usedFields_eq (mask : BitVec 32) :
    (List.range 12).map (usedField (svUsedList mask)) = satelliteFields mask := by
  rw [svUsedList_eq, satelliteFields]
  generalize setBits mask = used
  apply List.ext_getElem
  · simp only [List.length_map, List.length_range, List.length_append, List.length_replicate,
      List.length_take]
    omega
  intro i inside _
  rw [List.length_map, List.length_range] at inside
  rw [List.getElem_map, List.getElem_range, usedField]
  by_cases there : i < used.length
  · rw [List.getElem_append_left (by simp only [List.length_map, List.length_take]; omega),
      List.getElem_map, List.getElem_take, List.getElem?_eq_getElem there]
  · rw [List.getElem_append_right (by simp only [List.length_map, List.length_take]; omega),
      List.getElem_replicate, List.getElem?_eq_none (by omega)]

theorem fields_gpgsa (data : LocEngData F) (locationExtended : GpsLocationExtended F) :
    ∃ fixType pdop hdop vdop, fields (gpgsa data locationExtended).sent.pNmea =
      ['A'] :: [fixType] :: satelliteFields data.sv_used_mask ++ [pdop, hdop, vdop] := by
  obtain ⟨pdop, hdop, vdop, plain, dops⟩ : ∃ pdop hdop vdop : Text,
      (PlainText pdop ∧ PlainText hdop ∧ PlainText vdop) ∧
        gsaDop data locationExtended = terminated ',' [pdop, hdop] ++ vdop := by
    rw [gsaDop]
    split
    next pdop hdop vdop _ =>
      exact ⟨_, _, _, ⟨plain_fixed 0 1 pdop, plain_fixed 0 1 hdop, plain_fixed 0 1 vdop⟩,
        by simp [terminated]⟩
    next => exact ⟨[], [], [], by decide, rfl⟩
  obtain ⟨fixType, plain_fix, fix⟩ : ∃ c, PlainText [c] ∧
      (if (svUsedList data.sv_used_mask).length = 0 then '1'
        else if (svUsedList data.sv_used_mask).length ≤ 3 then '2' else '3') = c := by
    refine ⟨_, ?_, rfl⟩
    split
    · decide
    · split <;> decide
  have text : (gpgsa data locationExtended).text = terminated ',' ("$GPGSA".toList :: (['A'] ::
      [fixType] :: (List.range 12).map (usedField (svUsedList data.sv_used_mask)) ++
        [pdop, hdop])) ++ vdop := by
    have satellites : ((List.range 12).map fun i =>
        usedField (svUsedList data.sv_used_mask) i ++ [',']).flatten =
          terminated ',' ((List.range 12).map (usedField (svUsedList data.sv_used_mask))) := by
      rw [terminated, List.flatMap_map, List.flatMap_def]
    simp only [Draft.text, gpgsa, List.flatten_cons, satellites, dops, fix]
    simp [terminated]
  have plain_inner : ∀ field ∈ ['A'] :: [fixType] ::
      (List.range 12).map (usedField (svUsedList data.sv_used_mask)) ++ [pdop, hdop],
      PlainText field := by
    simp only [List.cons_append, List.forall_mem_cons, List.forall_mem_append, List.forall_mem_map,
      List.not_mem_nil, false_implies, implies_true, and_true]
    exact ⟨by decide, plain_fix, fun i _ => plain_usedField _ i, plain.1, plain.2.1⟩
  refine ⟨fixType, pdop, hdop, vdop, ?_⟩
  rw [fields_sent text (by decide) plain_inner plain.2.2, usedFields_eq]
  simp

theorem fields_gpgga (pTm : Tm) (data : LocEngData F) (location : GpsLocation F)
    (locationExtended : GpsLocationExtended F) :
    ∃ before after : List Text, before.length = 6 ∧ after.length = 7 ∧
      fields (gpgga pTm data location locationExtended).sent.pNmea =
        before ++ decimal 2 (setBits data.sv_used_mask).length :: after := by
  obtain ⟨place, place_length, plain_place, place_text⟩ := piece_coordinates location
  obtain ⟨rest, rest_length, plain_rest, rest_text⟩ :=
    (piece_ggaAltitude locationExtended).append (piece_ggaSeparation location locationExtended)
  have text : (gpgga pTm data location locationExtended).text = terminated ',' ("$GPGGA".toList ::
      (utcTime pTm :: place ++ [gpsQuality data location] ::
        decimal 2 (setBits data.sv_used_mask).length :: ggaHdop data locationExtended :: rest)) ++
          [] := by
    have parts : terminated ',' ("$GPGGA".toList :: (utcTime pTm :: place ++
        [gpsQuality data location] :: decimal 2 (setBits data.sv_used_mask).length ::
          ggaHdop data locationExtended :: rest)) =
        terminated ',' ["$GPGGA".toList, utcTime pTm] ++ terminated ',' place ++
          terminated ',' [[gpsQuality data location], decimal 2 (setBits data.sv_used_mask).length,
            ggaHdop data locationExtended] ++ terminated ',' rest := by
      simp [terminated]
    rw [parts, ← place_text, ← rest_text]
    simp [Draft.text, gpgga, svUsedList_eq, terminated]
  have plain_inner : ∀ field ∈ utcTime pTm :: place ++ [gpsQuality data location] ::
      decimal 2 (setBits data.sv_used_mask).length :: ggaHdop data locationExtended :: rest,
      PlainText field := by
    simp only [List.cons_append, List.forall_mem_cons, List.forall_mem_append]
    exact ⟨plain_utcTime pTm, plain_place, plain_gpsQuality _ _, plain_decimal _ _,
      plain_ggaHdop _ _, plain_rest⟩
  refine ⟨utcTime pTm :: place ++ [[gpsQuality data location]],
    ggaHdop data locationExtended :: rest ++ [[]], ?_, ?_, ?_⟩
  · simp [place_length]
  · simp [rest_length]
  · rw [fields_sent text (by decide) plain_inner (by decide)]
    simp

theorem length_satelliteFields (mask : BitVec 32) : (satelliteFields mask).length = 12 := by
  simp only [satelliteFields, List.length_append, List.length_map, List.length_replicate,
    List.length_take]
  omega

theorem begins_gpvtg (data : LocEngData F) (location : GpsLocation F) :
    "$GPVTG,".toList <+: (gpvtg data location).sent.pNmea := by
  obtain ⟨inner, -, -, course⟩ := opening_vtgCourse location
  refine ⟨terminated ',' inner ++ vtgSpeed location ++ [modeIndicator data location] ++
    Sentence.ending (Sentence.checksum ((gpvtg data location).text.drop 1)), ?_⟩
  rw [Draft.sent]
  simp [Draft.text, gpvtg, course, terminated]

/-- What the four sentences for a position have in their fields. -/
structure HasFields (mask : BitVec 32) (generate_nmea : Bool) (gsa vtg rmc gga : Text) : Prop where
  addresses : "$GPGSA,".toList <+: gsa ∧ "$GPVTG,".toList <+: vtg ∧ "$GPRMC,".toList <+: rmc ∧
    "$GPGGA,".toList <+: gga
  gsa_fields : (fields gsa).length = 17
  vtg_fields : (fields vtg).length = 9
  rmc_fields : (fields rmc).length = 12
  gga_fields : (fields gga).length = 14
  satellites : ((fields gsa).drop 2).take 12 =
    if generate_nmea then satelliteFields mask else List.replicate 12 []
  count : (fields gga)[6]? =
    some (if generate_nmea then decimal 2 (setBits mask).length else [])

theorem hasFields_full (pTm : Tm) (data : LocEngData F) (location : GpsLocation F)
    (locationExtended : GpsLocationExtended F) :
    HasFields data.sv_used_mask true (gpgsa data locationExtended).sent.pNmea
      (gpvtg data location).sent.pNmea (gprmc pTm data location locationExtended).sent.pNmea
      (gpgga pTm data location locationExtended).sent.pNmea := by
  obtain ⟨fixType, pdop, hdop, vdop, gsa⟩ := fields_gpgsa data locationExtended
  obtain ⟨before, after, length_before, length_after, gga⟩ :=
    fields_gpgga pTm data location locationExtended
  have twelve := length_satelliteFields data.sv_used_mask
  constructor
  case addresses => exact ⟨⟨_, rfl⟩, begins_gpvtg data location, ⟨_, rfl⟩, ⟨_, rfl⟩⟩
  case gsa_fields => simp [gsa, twelve]
  case vtg_fields => exact length_fields_gpvtg data location
  case rmc_fields => exact length_fields_gprmc pTm data location locationExtended
  case gga_fields => simp [gga, length_before, length_after]
  case satellites =>
    rw [gsa]
    exact List.take_left' twelve
  case count =>
    rw [gga, List.getElem?_append_right (by omega), length_before]
    rfl

theorem hasFields_blank (mask : BitVec 32) :
    HasFields mask false (Draft.sent ⟨[], "$GPGSA,A,1,,,,,,,,,,,,,,,".toList⟩).pNmea
      (Draft.sent ⟨[], "$GPVTG,,T,,M,,N,,K,N".toList⟩).pNmea
      (Draft.sent ⟨[], "$GPRMC,,V,,,,,,,,,,N".toList⟩).pNmea
      (Draft.sent ⟨[], "$GPGGA,,,,,,0,,,,,,,,".toList⟩).pNmea := by
  constructor
  case satellites =>
    rw [if_neg Bool.false_ne_true]
    decide
  case count =>
    rw [if_neg Bool.false_ne_true]
    decide
  all_goals decide

/-- A position report that has a date and whose sentences fit gives four sentences with their
numbers of fields. In the full form, GPGSA names the first twelve used satellites and GPGGA counts
all of them. -/
theorem position_sentences_have_their_fields (gmtime : Int → Option Tm) (data : LocEngData F)
    (location : GpsLocation F) (locationExtended : GpsLocationExtended F) (generate_nmea : Bool)
    {pTm : Tm} (timed : gmtime (location.timestamp.tdiv 1000) = some pTm)
    (callback : data.nmea_cb = true)
    (fits : (Report.position gmtime location locationExtended generate_nmea).Fits data) :
    ∃ gsa vtg rmc gga, (generatePos gmtime data location locationExtended generate_nmea).sent =
        [gsa, vtg, rmc, gga] ∧
      HasFields data.sv_used_mask generate_nmea gsa.pNmea vtg.pNmea rmc.pNmea gga.pNmea := by
  have sent := Report.sent_of_fits fits
  rw [callback, if_pos rfl, Report.drafts, timed] at sent
  cases generate_nmea with
  | true => exact ⟨_, _, _, _, sent, hasFields_full pTm data location locationExtended⟩
  | false => exact ⟨_, _, _, _, sent, hasFields_blank data.sv_used_mask⟩

end Pieces

/-- A fix without speed and bearing; the used satellites are 1, 3 and 32. -/
def fixReport : GpsLocation ℚ := ⟨0x0003, 3751 / 100, -12211 / 100, 30, 0, 0, 0⟩

def usedData : LocEngData ℚ := ⟨true, .standalone, 0x80000005, 3 / 2, 1, 9 / 10⟩

theorem fields_of_a_fix :
    ∃ gsa vtg rmc gga, (generatePos (fun _ => some ⟨70, 0, 1, 0, 0, 0⟩) usedData fixReport
        ⟨0x0006, -10, 0, 0, 0, 4⟩ true).sent = [gsa, vtg, rmc, gga] ∧
      HasFields usedData.sv_used_mask true gsa.pNmea vtg.pNmea rmc.pNmea gga.pNmea :=
  position_sentences_have_their_fields _ usedData fixReport _ true rfl rfl (by decide +kernel)

end Msm8974.Nmea
