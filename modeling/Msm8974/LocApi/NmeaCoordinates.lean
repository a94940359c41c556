import Mathlib.Algebra.Order.Floor.Ring
import Mathlib.Tactic.LinearCombination
import Msm8974.LocApi.NmeaReading

/-!
Latitude and longitude in GPRMC and GPGGA. The whole degrees are taken from the angle and the
minutes are rounded by themselves, so that minutes that round up to 60 are not carried.
-/

namespace Msm8974.Nmea
open CReal DelimitedText

section Reading

/-- ddmm.mmmmmm or dddmm.mmmmmm, in degrees and minutes. -/
def readAngle (degreeDigits : Nat) (field : Text) : Option (Nat × ℚ) :=
  if field.length = degreeDigits + 9 then do
    let degrees ← readNumber (field.take degreeDigits)
    let minutes ← readFixed 6 (field.drop degreeDigits)
    return (degrees, minutes)
  else none

/-- The sign that a letter stands for. -/
def readDirection (positive negative : Char) : Text → Option ℚ
  | [c] => if c = positive then some 1 else if c = negative then some (-1) else none
  | _ => none

/-- An angle is read back from its field and letter, to the nearest millionth of a minute. -/
def Survives (degreeDigits : Nat) (positive negative : Char) (x : ℚ) (field letter : Text) :
    Prop :=
  ∃ degrees minutes sign, readAngle degreeDigits field = some (degrees, minutes) ∧
    readDirection positive negative letter = some sign ∧ minutes < 60 ∧
    |sign * (60 * degrees + minutes) - 60 * x| ≤ 1 / 2000000

/-- The two sentences have the same four fields, and these are the coordinates. -/
structure CoordinatesSurvive (location : GpsLocation ℚ) (rmc gga : Text) : Prop where
  same : ((fields gga).drop 1).take 4 = ((fields rmc).drop 2).take 4
  read : ∃ latitude latHemisphere longitude lonHemisphere,
    ((fields rmc).drop 2).take 4 = [latitude, latHemisphere, longitude, lonHemisphere] ∧
    Survives 2 'N' 'S' location.latitude latitude latHemisphere ∧
    Survives 3 'E' 'W' location.longitude longitude lonHemisphere

/-- The minutes beyond the whole degrees are nearer to something below 60. -/
def MinutesStay (x : ℚ) : Prop := 60 * Int.fract |x| < 60 - 1 / 2000000

instance (x : ℚ) : Decidable (MinutesStay x) := inferInstanceAs (Decidable (_ < _))

end Reading

section Printing

/-- Degrees and minutes of an angle that is not negative, as they are printed. -/
def angleField (degreeDigits : Nat) (x : ℚ) : Text :=
  decimal degreeDigits (toByte (CReal.floor x)) ++
    fixed 9 6 (fmod (x * literal 60) (literal 60))

def latLetter (latitude : ℚ) : Char := if 0 < latitude then 'N' else 'S'

def lonLetter (longitude : ℚ) : Char := if longitude < 0 then 'W' else 'E'

def coordinateFields (location : GpsLocation ℚ) : List Text :=
  [angleField 2 |location.latitude|, [latLetter location.latitude],
    angleField 3 |location.longitude|, [lonLetter location.longitude]]

theorem coordinates_eq {location : GpsLocation ℚ}
    (located : location.flags &&& GPS_LOCATION_HAS_LAT_LONG ≠ 0) :
    coordinates location = terminated ',' (coordinateFields location) := by
  have lat : (if literal 0 < location.latitude then ('N', location.latitude)
      else ('S', location.latitude * literal (-1))) =
      (latLetter location.latitude, |location.latitude|) := by
    change (if 0 < location.latitude then ('N', location.latitude)
      else ('S', location.latitude * (-1))) = _
    rw [latLetter]
    split
    next north => rw [abs_of_pos north]
    next south => rw [abs_of_nonpos (not_lt.mp south), mul_neg_one]
  have lon : (if location.longitude < literal 0 then ('W', location.longitude * literal (-1))
      else ('E', location.longitude)) = (lonLetter location.longitude, |location.longitude|) := by
    change (if location.longitude < 0 then ('W', location.longitude * (-1))
      else ('E', location.longitude)) = _
    rw [lonLetter]
    split
    next west => rw [abs_of_neg west, mul_neg_one]
    next east => rw [abs_of_nonneg (not_lt.mp east)]
  rw [coordinates, if_pos located, lat, lon]
  simp [terminated, coordinateFields, angleField]

theorem truncate_of_nonneg {x : ℚ} (nonneg : 0 ≤ x) : truncate x = ⌊x⌋ :=
  if_neg nonneg.not_gt

theorem toByte_floor {x : ℚ} (nonneg : 0 ≤ x) (byte : x < 256) :
    toByte (CReal.floor x) = ⌊x⌋.toNat := by
  have low : 0 ≤ ⌊x⌋ := Int.floor_nonneg.mpr nonneg
  have high : ⌊x⌋ < 256 := Int.floor_lt.mpr (mod_cast byte)
  have whole : truncate (⌊x⌋ : ℚ) = ⌊x⌋ := by
    rw [truncate_of_nonneg (mod_cast low), Int.floor_intCast]
  change truncate (⌊x⌋ : ℚ) % 256 = _
  rw [whole]
  omega

theorem fmod_sixty {x : ℚ} (nonneg : 0 ≤ x) :
    fmod (x * literal 60) (literal 60) = 60 * Int.fract x := by
  change x * 60 - 60 * (truncate (x * 60 / 60) : ℚ) = _
  rw [mul_div_cancel_right₀ x (by norm_num), truncate_of_nonneg nonneg, Int.fract]
  ring

/-- The whole degrees and the rounded minutes. -/
theorem angleField_eq (degreeDigits : Nat) {x : ℚ} (nonneg : 0 ≤ x) (byte : x < 256) :
    angleField degreeDigits x =
      padded degreeDigits ⌊x⌋.toNat ++ fixedRat 9 6 (60 * Int.fract x) := by
  rw [angleField, toByte_floor nonneg byte, decimal_natCast, fmod_sixty nonneg]
  rfl

/-- The millionths of a minute that are printed. -/
def millionths (x : ℚ) : Nat := roundHalfEven (60 * Int.fract x * 10 ^ 6)

theorem minutes_nonneg (x : ℚ) : 0 ≤ 60 * Int.fract x * 10 ^ 6 :=
  mul_nonneg (mul_nonneg (by norm_num) (Int.fract_nonneg x)) (by norm_num)

theorem millionths_le (x : ℚ) : millionths x ≤ 60000000 := by
  have fract := Int.fract_lt_one x
  refine (roundHalfEven_le_iff (minutes_nonneg x) rfl).mpr ?_
  push_cast
  linarith

/-- mm.mmmmmm, if 60.000000 is taken for minutes. -/
theorem length_minutes (x : ℚ) : (fixedRat 9 6 (60 * Int.fract x)).length = 9 := by
  have few : millionths x / 10 ^ 6 < 10 ^ 2 := by
    have le := millionths_le x
    omega
  rw [fixedRat_eq 9 (by decide) (mul_nonneg (by norm_num) (Int.fract_nonneg x)),
    List.length_append, List.length_cons, ← millionths, length_padded_of_lt (by decide) few,
    length_padded_of_lt (by decide) (Nat.mod_lt _ (by decide))]

theorem readAngle_angleField {degreeDigits : Nat} (positive : 0 < degreeDigits) {x : ℚ}
    (nonneg : 0 ≤ x) (byte : x < 256) (few : ⌊x⌋.toNat < 10 ^ degreeDigits) :
    readAngle degreeDigits (angleField degreeDigits x) =
      some (⌊x⌋.toNat, (millionths x : ℚ) / 10 ^ 6) := by
  have minutes : 0 ≤ 60 * Int.fract x := mul_nonneg (by norm_num) (Int.fract_nonneg x)
  have width : (padded degreeDigits ⌊x⌋.toNat).length = degreeDigits :=
    length_padded_of_lt positive few
  rw [angleField_eq degreeDigits nonneg byte, readAngle, List.length_append, width,
    length_minutes, if_pos rfl, List.take_left' width, List.drop_left' width, readNumber_padded,
    readFixed_fixedRat 9 (by decide) minutes]
  rfl

theorem millionths_lt_iff (x : ℚ) :
    (millionths |x| : ℚ) / 10 ^ 6 < 60 ↔ MinutesStay x := by
  have carried : 60000000 ≤ millionths |x| ↔ _ := le_roundHalfEven_iff (minutes_nonneg |x|) rfl
  have cast : (millionths |x| : ℚ) / 10 ^ 6 < 60 ↔ millionths |x| < 60000000 := by
    rw [div_lt_iff₀ (by norm_num), ← Nat.cast_lt (α := ℚ)]
    norm_num
  rw [cast, ← not_le, carried, not_le, MinutesStay]
  push_cast
  constructor <;> intro h <;> linarith

theorem abs_millionths_sub_le (x : ℚ) :
    |(millionths x : ℚ) / 10 ^ 6 - 60 * Int.fract x| ≤ 1 / 2000000 := by
  have near := abs_le.mp (abs_roundHalfEven_sub_le (minutes_nonneg x))
  rw [← millionths] at near
  rw [abs_le]
  constructor <;> linarith

theorem abs_of_readDirection {plus minus letter : Char} {sign : ℚ}
    (direction : readDirection plus minus [letter] = some sign) : |sign| = 1 := by
  rw [readDirection] at direction
  by_cases first : letter = plus
  · rw [if_pos first] at direction
    obtain rfl := Option.some.inj direction
    exact abs_one
  · rw [if_neg first] at direction
    obtain ⟨-, same⟩ := Option.ite_none_right_eq_some.mp direction
    obtain rfl := Option.some.inj same
    rw [abs_neg, abs_one]

theorem survives_angleField_iff {degreeDigits : Nat} (positive : 0 < degreeDigits)
    {plus minus letter : Char} {x sign : ℚ} (byte : |x| < 256)
    (few : ⌊|x|⌋.toNat < 10 ^ degreeDigits)
    (direction : readDirection plus minus [letter] = some sign) (signed : sign * |x| = x) :
    Survives degreeDigits plus minus x (angleField degreeDigits |x|) [letter] ↔
      MinutesStay x := by
  have read := readAngle_angleField positive (abs_nonneg x) byte few
  rw [← millionths_lt_iff]
  constructor
  · intro ⟨degrees, minutes, _, angle, _, small, _⟩
    obtain ⟨rfl, rfl⟩ := Prod.mk.inj (Option.some.inj (read.symm.trans angle))
    exact small
  · intro small
    refine ⟨_, _, sign, read, direction, small, ?_⟩
    have whole : ((⌊|x|⌋.toNat : ℕ) : ℚ) = ⌊|x|⌋ :=
      mod_cast Int.toNat_of_nonneg (Int.floor_nonneg.mpr (abs_nonneg x))
    calc |sign * (60 * (⌊|x|⌋.toNat : ℕ) + (millionths |x| : ℚ) / 10 ^ 6) - 60 * x|
      _ = |sign * ((millionths |x| : ℚ) / 10 ^ 6 - 60 * Int.fract |x|)| := by
        congr 1
        rw [whole, Int.fract]
        linear_combination 60 * signed
      _ = |(millionths |x| : ℚ) / 10 ^ 6 - 60 * Int.fract (|x|)| := by
        rw [abs_mul, abs_of_readDirection direction, one_mul]
      _ ≤ 1 / 2000000 := abs_millionths_sub_le |x|

theorem latitude_survives_iff {latitude : ℚ} (low : -90 ≤ latitude) (high : latitude ≤ 90) :
    Survives 2 'N' 'S' latitude (angleField 2 |latitude|) [latLetter latitude] ↔
      MinutesStay latitude := by
  have bound : |latitude| ≤ 90 := abs_le.mpr ⟨low, high⟩
  have few : ⌊|latitude|⌋.toNat < 10 ^ 2 :=
    (Nat.floor_lt (abs_nonneg latitude)).mpr (by push_cast; linarith)
  have byte : |latitude| < 256 := by linarith
  by_cases north : 0 < latitude
  · have letter : latLetter latitude = 'N' := if_pos north
    rw [letter]
    exact survives_angleField_iff (by decide) byte few rfl (by rw [one_mul, abs_of_pos north])
  · have letter : latLetter latitude = 'S' := if_neg north
    rw [letter]
    exact survives_angleField_iff (by decide) byte few rfl
      (by rw [abs_of_nonpos (not_lt.mp north), neg_one_mul, neg_neg])

theorem longitude_survives_iff {longitude : ℚ} (low : -180 ≤ longitude)
    (high : longitude ≤ 180) :
    Survives 3 'E' 'W' longitude (angleField 3 |longitude|) [lonLetter longitude] ↔
      MinutesStay longitude := by
  have bound : |longitude| ≤ 180 := abs_le.mpr ⟨low, high⟩
  have few : ⌊|longitude|⌋.toNat < 10 ^ 3 :=
    (Nat.floor_lt (abs_nonneg longitude)).mpr (by push_cast; linarith)
  have byte : |longitude| < 256 := by linarith
  by_cases west : longitude < 0
  · have letter : lonLetter longitude = 'W' := if_pos west
    rw [letter]
    exact survives_angleField_iff (by decide) byte few rfl
      (by rw [abs_of_neg west, neg_one_mul, neg_neg])
  · have letter : lonLetter longitude = 'E' := if_neg west
    rw [letter]
    exact survives_angleField_iff (by decide) byte few rfl
      (by rw [one_mul, abs_of_nonneg (not_lt.mp west)])

end Printing

section Sentences

theorem plain_angleField (degreeDigits : Nat) (x : ℚ) : PlainText (angleField degreeDigits x) :=
  (plain_decimal _ _).append (plain_fixed _ _ _)

theorem plain_coordinateFields (location : GpsLocation ℚ) :
    ∀ field ∈ coordinateFields location, PlainText field := by
  have north : PlainText [latLetter location.latitude] := by
    rw [latLetter]
    split <;> decide
  have east : PlainText [lonLetter location.longitude] := by
    rw [lonLetter]
    split <;> decide
  simp only [coordinateFields, List.forall_mem_cons]
  exact ⟨plain_angleField 2 _, north, plain_angleField 3 _, east,
    fun _ mem => (List.not_mem_nil mem).elim⟩

variable {location : GpsLocation ℚ} {sentence : Text}

theorem fields_of_gprmc (located : location.flags &&& GPS_LOCATION_HAS_LAT_LONG ≠ 0) {pTm : Tm}
    {data : LocEngData ℚ} {locationExtended : GpsLocationExtended ℚ}
    (checked : (gprmc pTm data location locationExtended).checked.flatten <+: sentence) :
    ((fields sentence).drop 2).take 4 = coordinateFields location := by
  have begins : terminated ',' ("$GPRMC".toList :: utcTime pTm :: ['A'] ::
      coordinateFields location) <+:
        (gprmc pTm data location locationExtended).checked.flatten := by
    refine ⟨((gprmc pTm data location locationExtended).checked.drop 2).flatten, ?_⟩
    simp [terminated, gprmc, coordinates_eq located]
  have plain := List.forall_mem_cons.mpr ⟨plain_utcTime pTm, List.forall_mem_cons.mpr
    ⟨(by decide : PlainText ['A']), plain_coordinateFields location⟩⟩
  obtain ⟨rest, all⟩ := fields_of_prefix (begins.trans checked) (by decide) plain
  rw [← all]
  rfl

theorem fields_of_gpgga (located : location.flags &&& GPS_LOCATION_HAS_LAT_LONG ≠ 0) {pTm : Tm}
    {data : LocEngData ℚ} {locationExtended : GpsLocationExtended ℚ}
    (checked : (gpgga pTm data location locationExtended).checked.flatten <+: sentence) :
    ((fields sentence).drop 1).take 4 = coordinateFields location := by
  have begins : terminated ',' ("$GPGGA".toList :: utcTime pTm :: coordinateFields location) <+:
      (gpgga pTm data location locationExtended).checked.flatten := by
    refine ⟨((gpgga pTm data location locationExtended).checked.drop 2).flatten, ?_⟩
    simp [terminated, gpgga, coordinates_eq located]
  have plain := List.forall_mem_cons.mpr ⟨plain_utcTime pTm, plain_coordinateFields location⟩
  obtain ⟨rest, all⟩ := fields_of_prefix (begins.trans checked) (by decide) plain
  rw [← all]
  rfl

/-- Both sentences of a position have its coordinates exactly if the minutes of neither round up
to 60. -/
theorem coordinates_survive_iff (gmtime : Int → Option Tm) (data : LocEngData ℚ)
    (location : GpsLocation ℚ) (locationExtended : GpsLocationExtended ℚ)
    (located : location.flags &&& GPS_LOCATION_HAS_LAT_LONG ≠ 0)
    (latitude : -90 ≤ location.latitude ∧ location.latitude ≤ 90)
    (longitude : -180 ≤ location.longitude ∧ location.longitude ≤ 180)
    {rmc gga : Sent}
    (rmc_sent : rmc ∈ (generatePos gmtime data location locationExtended true).sent)
    (rmc_address : "$GPRMC,".toList <+: rmc.pNmea)
    (gga_sent : gga ∈ (generatePos gmtime data location locationExtended true).sent)
    (gga_address : "$GPGGA,".toList <+: gga.pNmea) :
    CoordinatesSurvive location rmc.pNmea gga.pNmea ↔
      MinutesStay location.latitude ∧ MinutesStay location.longitude := by
  obtain ⟨_, _, _, rmc_found, rmc_checked⟩ := checked_prefix_of_address rmc_sent rmc_address rfl
  obtain ⟨_, _, _, gga_found, gga_checked⟩ := checked_prefix_of_address gga_sent gga_address rfl
  obtain rfl := Option.some.inj rmc_found
  obtain rfl := Option.some.inj gga_found
  have rmc_fields := fields_of_gprmc located rmc_checked
  have gga_fields := fields_of_gpgga located gga_checked
  rw [← latitude_survives_iff latitude.1 latitude.2,
    ← longitude_survives_iff longitude.1 longitude.2]
  constructor
  · intro ⟨_, lat, ns, lon, ew, read, north, east⟩
    rw [rmc_fields] at read
    obtain ⟨rfl, rfl, rfl, rfl⟩ : _ ∧ _ ∧ _ ∧ _ := by
      simpa only [coordinateFields, List.cons.injEq, and_true] using read
    exact ⟨north, east⟩
  · intro ⟨north, east⟩
    exact ⟨gga_fields.trans rmc_fields.symm, _, _, _, _, rmc_fields, north, east⟩

end Sentences

/-- The sentences of fixReport. -/
def rmcReport : Sent :=
  (gprmc ⟨70, 0, 1, 0, 0, 0⟩ usedData fixReport ⟨0x0006, -10, 0, 0, 0, 4⟩).sent

def ggaReport : Sent :=
  (gpgga ⟨70, 0, 1, 0, 0, 0⟩ usedData fixReport ⟨0x0006, -10, 0, 0, 0, 4⟩).sent

theorem coordinates_of_a_fix : CoordinatesSurvive fixReport rmcReport.pNmea ggaReport.pNmea :=
  (coordinates_survive_iff (fun _ => some ⟨70, 0, 1, 0, 0, 0⟩) usedData fixReport
    ⟨0x0006, -10, 0, 0, 0, 4⟩ (by decide) (by decide +kernel) (by decide +kernel)
    (by decide +kernel) (by decide +kernel) (by decide +kernel) (by decide +kernel)).mpr
      (by decide +kernel)

/-- A ten-millionth of a minute below 38 degrees north. -/
def nearlyWhole : GpsLocation ℚ := ⟨0x0001, 38 - 1 / 600000000, 0, 0, 0, 0, 0⟩

/-- "3760.000000,N" -/
theorem minutes_of_sixty :
    ∃ rmc gga, (generatePos (fun _ => some ⟨70, 0, 1, 0, 0, 0⟩) usedData nearlyWhole
        ⟨0, 0, 0, 0, 0, 0⟩ true).sent.drop 2 = [rmc, gga] ∧
      "$GPRMC,000000,A,3760.000000,N,".toList <+: rmc.pNmea ∧
      "$GPGGA,000000,3760.000000,N,".toList <+: gga.pNmea ∧
      ¬ CoordinatesSurvive nearlyWhole rmc.pNmea gga.pNmea := by
  refine ⟨(gprmc ⟨70, 0, 1, 0, 0, 0⟩ usedData nearlyWhole ⟨0, 0, 0, 0, 0, 0⟩).sent,
    (gpgga ⟨70, 0, 1, 0, 0, 0⟩ usedData nearlyWhole ⟨0, 0, 0, 0, 0, 0⟩).sent, by decide +kernel,
    by decide +kernel, by decide +kernel, ?_⟩
  intro ⟨_, lat, ns, lon, ew, four, ⟨degrees, minutes, _, angle, _, small, _⟩, _⟩
  have first : some lat = some "3760.000000".toList :=
    (congrArg List.head? four).symm.trans (by decide +kernel)
  have read : readAngle 2 "3760.000000".toList = some (37, 60) := by decide +kernel
  rw [Option.some.inj first, read] at angle
  obtain ⟨-, rfl⟩ := Prod.mk.inj (Option.some.inj angle)
  exact lt_irrefl _ small

end Msm8974.Nmea
