import Msm8974.LocApi.NmeaCoordinates

/-!
The magnetic track of GPVTG and the magnetic variation of GPRMC. The track with the deviation is
computed into a variable of an inner block, so that GPVTG has the bearing twice.
-/

namespace Msm8974.Nmea
open CReal DelimitedText

section Values
variable {F : Type} [CReal F]

/-- magTrack at the snprintf of GPVTG. -/
def magTrack (location : GpsLocation F) : F :=
  -- the one that takes the deviation off ended with its block
  location.bearing

/-- direction and magneticVariation. -/
def magneticVariation (locationExtended : GpsLocationExtended F) : Char × F :=
  if locationExtended.magneticDeviation < literal 0 then
    ('W', toFloat (locationExtended.magneticDeviation * literal (-1)))
  else ('E', locationExtended.magneticDeviation)

theorem vtgCourse_eq {location : GpsLocation F}
    (present : location.flags &&& GPS_LOCATION_HAS_BEARING ≠ 0) :
    vtgCourse location = terminated ',' ["$GPVTG".toList, fixed 0 1 location.bearing, ['T'],
      fixed 0 1 (magTrack location), ['M']] := by
  rw [vtgCourse, if_pos present]
  simp [terminated, magTrack]

theorem rmcVariation_eq {locationExtended : GpsLocationExtended F}
    (present : locationExtended.flags &&& GPS_LOCATION_EXTENDED_HAS_MAG_DEV ≠ 0) :
    rmcVariation locationExtended = terminated ',' [
      fixed 0 1 (magneticVariation locationExtended).2,
      [(magneticVariation locationExtended).1]] := by
  rw [rmcVariation, if_pos present]
  change fixed 0 1 (magneticVariation locationExtended).2 ++
    [',', (magneticVariation locationExtended).1, ','] = _
  simp [terminated]

end Values

section Agreement

/-- The magnetic track is the true one less the variation, in degrees of a circle. -/
structure TracksAgree (trueTrack magneticTrack variation : ℚ) : Prop where
  difference : ∃ turns : ℤ, trueTrack - magneticTrack = variation + 360 * turns
  range : 0 ≤ magneticTrack ∧ magneticTrack ≤ 360

/-- A variation of no more than half a circle leaves the track as it is only if it is none. -/
theorem tracksAgree_self_iff {track variation : ℚ} (range : 0 ≤ track ∧ track ≤ 360)
    (half : |variation| ≤ 180) : TracksAgree track track variation ↔ variation = 0 := by
  constructor
  · intro ⟨⟨turns, difference⟩, _⟩
    have bound := abs_le.mp half
    have low : (-1 : ℚ) < turns := by linarith
    have high : (turns : ℚ) < 1 := by linarith
    have zero : turns = 0 := by
      have low : -1 < turns := mod_cast low
      have high : turns < 1 := mod_cast high
      omega
    rw [zero] at difference
    push_cast at difference
    linarith
  · rintro rfl
    exact ⟨⟨0, by simp⟩, range⟩

/-- True track, magnetic track and signed variation, E positive. -/
def readTracks (vtg rmc : Text) : Option (ℚ × ℚ × ℚ) := do
  let trueTrack ← (fields vtg)[0]?.bind (readFixed 1)
  let magneticTrack ← (fields vtg)[2]?.bind (readFixed 1)
  let variation ← (fields rmc)[9]?.bind (readFixed 1)
  let sign ← (fields rmc)[10]?.bind (readDirection 'E' 'W')
  return (trueTrack, magneticTrack, sign * variation)

/-- The values that are printed agree. -/
def ValuesAgree (location : GpsLocation ℚ) (locationExtended : GpsLocationExtended ℚ) : Prop :=
  ∃ sign, readDirection 'E' 'W' [(magneticVariation locationExtended).1] = some sign ∧
    TracksAgree location.bearing (magTrack location) (sign * (magneticVariation locationExtended).2)

/-- What is read from the sentences agrees. -/
def SentencesAgree (vtg rmc : Text) : Prop :=
  ∃ trueTrack magneticTrack variation,
    readTracks vtg rmc = some (trueTrack, magneticTrack, variation) ∧
      TracksAgree trueTrack magneticTrack variation

end Agreement

section Sentences
variable {location : GpsLocation ℚ} {locationExtended : GpsLocationExtended ℚ} {sentence : Text}

theorem fields_of_gpvtg {data : LocEngData ℚ}
    (present : location.flags &&& GPS_LOCATION_HAS_BEARING ≠ 0)
    (checked : (gpvtg data location).checked.flatten <+: sentence) :
    [fixedRat 0 1 location.bearing, ['T'], fixedRat 0 1 (magTrack location), ['M']] <+:
      fields sentence := by
  refine fields_of_prefix (.trans ?_ checked) (by decide : PlainText "$GPVTG".toList) ?_
  · rw [gpvtg, List.flatten_cons, vtgCourse_eq present]
    exact List.prefix_append _ _
  · simp only [List.forall_mem_cons]
    exact ⟨plain_fixed 0 1 location.bearing, by decide, plain_fixed 0 1 (magTrack location),
      by decide, fun _ mem => (List.not_mem_nil mem).elim⟩

theorem fields_of_variation {pTm : Tm} {data : LocEngData ℚ}
    (present : locationExtended.flags &&& GPS_LOCATION_EXTENDED_HAS_MAG_DEV ≠ 0)
    (checked : (gprmc pTm data location locationExtended).checked.flatten <+: sentence) :
    (fields sentence)[9]? = some (fixedRat 0 1 (magneticVariation locationExtended).2) ∧
      (fields sentence)[10]? = some [(magneticVariation locationExtended).1] := by
  obtain ⟨inner, nine, plain, opening⟩ := opening_gprmc pTm location
  have letter : PlainText [(magneticVariation locationExtended).1] := by
    rw [magneticVariation]
    split
    · exact (by decide : PlainText ['W'])
    · exact (by decide : PlainText ['E'])
  have whole : terminated ',' ("$GPRMC".toList :: (inner ++
      [fixed 0 1 (magneticVariation locationExtended).2,
        [(magneticVariation locationExtended).1]])) =
      (gprmc pTm data location locationExtended).checked.flatten := by
    rw [← List.cons_append, terminated_append, ← opening, gprmc, rmcVariation_eq present]
    simp only [List.flatten_cons, List.flatten_nil, List.append_assoc, List.append_nil]
  have plain_inner := List.forall_mem_append.mpr ⟨plain, List.forall_mem_cons.mpr
    ⟨plain_fixed 0 1 (magneticVariation locationExtended).2,
      List.forall_mem_singleton.mpr letter⟩⟩
  obtain ⟨rest, all⟩ := fields_of_prefix (whole ▸ checked) (by decide) plain_inner
  rw [← all, List.append_assoc]
  constructor
  · rw [List.getElem?_append_right (by omega), nine]
    rfl
  · rw [List.getElem?_append_right (by omega), nine]
    rfl

theorem magneticVariation_eq (locationExtended : GpsLocationExtended ℚ) :
    ∃ sign, readDirection 'E' 'W' [(magneticVariation locationExtended).1] = some sign ∧
      |sign| = 1 ∧ (magneticVariation locationExtended).2 = |locationExtended.magneticDeviation| ∧
        sign * |locationExtended.magneticDeviation| = locationExtended.magneticDeviation := by
  by_cases west : locationExtended.magneticDeviation < 0
  · have printed : magneticVariation locationExtended =
        ('W', locationExtended.magneticDeviation * (-1)) := if_pos west
    rw [printed, abs_of_neg west]
    exact ⟨-1, rfl, by norm_num, by ring, by ring⟩
  · have printed : magneticVariation locationExtended =
        ('E', locationExtended.magneticDeviation) := if_neg west
    rw [printed, abs_of_nonneg (not_lt.mp west)]
    exact ⟨1, rfl, abs_one, rfl, one_mul _⟩

/-- What is printed of a number that is not negative. -/
def tenths (x : ℚ) : ℚ := (roundHalfEven (x * 10 ^ 1) : ℚ) / 10 ^ 1

theorem tenths_nonneg (x : ℚ) : 0 ≤ tenths x := div_nonneg (Nat.cast_nonneg _) (by norm_num)

theorem tenths_le {x : ℚ} (nonneg : 0 ≤ x) {k : Nat} (le : x ≤ k) : tenths x ≤ k := by
  have few : roundHalfEven (x * 10 ^ 1) ≤ 10 * k := by
    refine (roundHalfEven_le_iff (by linarith) (by omega)).mpr ?_
    push_cast
    linarith
  have cast : (roundHalfEven (x * 10 ^ 1) : ℚ) ≤ 10 * k := mod_cast few
  rw [tenths, div_le_iff₀ (by norm_num)]
  linarith

theorem tenths_eq_zero_iff {x : ℚ} (nonneg : 0 ≤ x) : tenths x = 0 ↔ x ≤ 1 / 20 := by
  have zero := roundHalfEven_le_iff (q := x * 10 ^ 1) (by linarith) (k := 0) rfl
  have power : (10 : ℚ) ^ 1 ≠ 0 := by norm_num
  rw [tenths, div_eq_zero_iff, or_iff_left power, Nat.cast_eq_zero, ← Nat.le_zero, zero]
  push_cast
  constructor <;> intro h <;> linarith

theorem readTracks_eq {vtg rmc : Text} {track magnitude sign : ℚ} {letter : Text}
    (tracks : [fixedRat 0 1 track, ['T'], fixedRat 0 1 track, ['M']] <+: fields vtg)
    (variation : (fields rmc)[9]? = some (fixedRat 0 1 magnitude))
    (lettered : (fields rmc)[10]? = some letter)
    (direction : readDirection 'E' 'W' letter = some sign)
    (track_nonneg : 0 ≤ track) (magnitude_nonneg : 0 ≤ magnitude) :
    readTracks vtg rmc = some (tenths track, tenths track, sign * tenths magnitude) := by
  obtain ⟨rest, all⟩ := tracks
  have read_track := readFixed_fixedRat 0 (by decide : 0 < 1) track_nonneg
  have read_magnitude := readFixed_fixedRat 0 (by decide : 0 < 1) magnitude_nonneg
  rw [readTracks, ← all, variation, lettered]
  simp [read_track, read_magnitude, direction, tenths]

theorem sentencesAgree_iff {vtg rmc : Text} {track magnitude sign : ℚ} {letter : Text}
    (tracks : [fixedRat 0 1 track, ['T'], fixedRat 0 1 track, ['M']] <+: fields vtg)
    (variation : (fields rmc)[9]? = some (fixedRat 0 1 magnitude))
    (lettered : (fields rmc)[10]? = some letter)
    (direction : readDirection 'E' 'W' letter = some sign) (unit : |sign| = 1)
    (circle : 0 ≤ track ∧ track < 360) (half : 0 ≤ magnitude ∧ magnitude ≤ 180) :
    SentencesAgree vtg rmc ↔ magnitude ≤ 1 / 20 := by
  have read := readTracks_eq tracks variation lettered direction circle.1 half.1
  have same : SentencesAgree vtg rmc ↔
      TracksAgree (tenths track) (tenths track) (sign * tenths magnitude) := by
    constructor
    · intro ⟨trueTrack, magneticTrack, variation, read', agree⟩
      obtain ⟨rfl, rest⟩ := Prod.mk.inj (Option.some.inj (read.symm.trans read'))
      obtain ⟨rfl, rfl⟩ := Prod.mk.inj rest
      exact agree
    · exact fun agree => ⟨_, _, _, read, agree⟩
  have small : |sign * tenths magnitude| ≤ 180 := by
    rw [abs_mul, unit, one_mul, abs_of_nonneg (tenths_nonneg _)]
    exact tenths_le half.1 half.2
  have some_sign : sign ≠ 0 := abs_ne_zero.mp (unit ▸ one_ne_zero)
  rw [same, tracksAgree_self_iff ⟨tenths_nonneg _, tenths_le circle.1 circle.2.le⟩ small,
    mul_eq_zero, or_iff_right some_sign, tenths_eq_zero_iff half.1]

/-- The tracks agree with the variation only where there is none, or none that is printed. -/
theorem tracks_agree_iff (gmtime : Int → Option Tm) (data : LocEngData ℚ)
    (location : GpsLocation ℚ) (locationExtended : GpsLocationExtended ℚ)
    (moving : location.flags &&& GPS_LOCATION_HAS_BEARING ≠ 0)
    (deviating : locationExtended.flags &&& GPS_LOCATION_EXTENDED_HAS_MAG_DEV ≠ 0)
    (bearing : 0 ≤ location.bearing ∧ location.bearing < 360)
    (deviation : -180 ≤ locationExtended.magneticDeviation ∧
      locationExtended.magneticDeviation ≤ 180) :
    (ValuesAgree location locationExtended ↔ locationExtended.magneticDeviation = 0) ∧
    ∀ vtg ∈ (generatePos gmtime data location locationExtended true).sent,
      "$GPVTG,".toList <+: vtg.pNmea →
    ∀ rmc ∈ (generatePos gmtime data location locationExtended true).sent,
      "$GPRMC,".toList <+: rmc.pNmea →
        (SentencesAgree vtg.pNmea rmc.pNmea ↔ |locationExtended.magneticDeviation| ≤ 1 / 20) := by
  obtain ⟨sign, direction, unit, magnitude, signed⟩ := magneticVariation_eq locationExtended
  have half := abs_le.mpr deviation
  constructor
  · have same : TracksAgree location.bearing (magTrack location)
        (sign * (magneticVariation locationExtended).2) ↔
        locationExtended.magneticDeviation = 0 := by
      rw [magnitude, signed]
      exact tracksAgree_self_iff ⟨bearing.1, bearing.2.le⟩ half
    rw [← same]
    constructor
    · intro ⟨sign', direction', agree⟩
      obtain rfl := Option.some.inj (direction.symm.trans direction')
      exact agree
    · exact fun agree => ⟨sign, direction, agree⟩
  · intro vtg vtg_sent vtg_address rmc rmc_sent rmc_address
    obtain ⟨_, _, _, vtg_found, vtg_checked⟩ := checked_prefix_of_address vtg_sent vtg_address rfl
    obtain ⟨_, _, _, rmc_found, rmc_checked⟩ := checked_prefix_of_address rmc_sent rmc_address rfl
    obtain rfl := Option.some.inj vtg_found
    obtain rfl := Option.some.inj rmc_found
    have tracks := fields_of_gpvtg moving vtg_checked
    obtain ⟨variation, letter⟩ := fields_of_variation deviating rmc_checked
    rw [magnitude] at variation
    exact sentencesAgree_iff tracks variation letter direction unit bearing ⟨abs_nonneg _, half⟩

end Sentences

/-- To the north-east. -/
def movingFix : GpsLocation ℚ := ⟨0x0009, 3751 / 100, -12211 / 100, 0, 0, 45, 0⟩

def deviatingBy (deviation : ℚ) : GpsLocationExtended ℚ := ⟨0x0004, 0, 0, 0, 0, deviation⟩

def movingSentences (deviation : ℚ) : List Sent :=
  (generatePos (fun _ => some ⟨70, 0, 1, 0, 0, 0⟩) usedData movingFix (deviatingBy deviation)
    true).sent

theorem tracks_without_deviation :
    ValuesAgree movingFix (deviatingBy 0) ∧
    ∀ vtg ∈ movingSentences 0, "$GPVTG,".toList <+: vtg.pNmea →
    ∀ rmc ∈ movingSentences 0, "$GPRMC,".toList <+: rmc.pNmea →
      SentencesAgree vtg.pNmea rmc.pNmea := by
  obtain ⟨values, printed⟩ := tracks_agree_iff (fun _ => some ⟨70, 0, 1, 0, 0, 0⟩) usedData
    movingFix (deviatingBy 0) (by decide) (by decide) (by decide +kernel) (by decide +kernel)
  refine ⟨values.mpr rfl, fun vtg vtg_sent vtg_address rmc rmc_sent rmc_address => ?_⟩
  exact (printed vtg vtg_sent vtg_address rmc rmc_sent rmc_address).mpr (by decide +kernel)

/-- Ten degrees off, the magnetic track is the true one. -/
theorem magnetic_track_is_true_track :
    ¬ ValuesAgree movingFix (deviatingBy 10) ∧
    ∃ vtg ∈ movingSentences 10, "$GPVTG,45.0,T,45.0,M,".toList <+: vtg.pNmea ∧
    ∃ rmc ∈ movingSentences 10, "$GPRMC,".toList <+: rmc.pNmea ∧
      ¬ SentencesAgree vtg.pNmea rmc.pNmea := by
  have self : ¬ TracksAgree 45 45 10 := by
    rw [tracksAgree_self_iff (by norm_num) (by norm_num)]
    norm_num
  constructor
  · intro ⟨sign, direction, agree⟩
    obtain rfl : 1 = sign := Option.some.inj direction
    have ten : 1 * (magneticVariation (deviatingBy 10)).2 = 10 := by decide +kernel
    rw [ten] at agree
    exact self agree
  · refine ⟨(gpvtg usedData movingFix).sent, by decide +kernel, by decide +kernel,
      (gprmc ⟨70, 0, 1, 0, 0, 0⟩ usedData movingFix (deviatingBy 10)).sent, by decide +kernel,
      by decide +kernel, ?_⟩
    intro ⟨trueTrack, magneticTrack, variation, read, agree⟩
    have numbers : some (45, 45, 10) = some (trueTrack, magneticTrack, variation) :=
      (by decide +kernel : some (45, 45, 10) = readTracks _ _).trans read
    obtain ⟨rfl, rest⟩ := Prod.mk.inj (Option.some.inj numbers)
    obtain ⟨rfl, rfl⟩ := Prod.mk.inj rest
    exact self agree

end Msm8974.Nmea
