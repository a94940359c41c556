import Msm8974.LocApi.LocEng
import Msm8974.LocApi.NmeaNumbers

/-!
The sentences of loc_eng_nmea.cpp. The buffer is its text up to the terminator. Of gmtime, any
function will do; of a satellite report, sv_list is its first num_svs entries.
-/

namespace Msm8974.Nmea
open CReal
open LocEng (LocPositionMode)

abbrev Text := List Char

def NMEA_SENTENCE_MAX_LENGTH : Nat := 200

def GPS_LOCATION_HAS_LAT_LONG : BitVec 16 := 0x0001
def GPS_LOCATION_HAS_ALTITUDE : BitVec 16 := 0x0002
def GPS_LOCATION_HAS_SPEED : BitVec 16 := 0x0004
def GPS_LOCATION_HAS_BEARING : BitVec 16 := 0x0008

def GPS_LOCATION_EXTENDED_HAS_DOP : BitVec 16 := 0x0001
def GPS_LOCATION_EXTENDED_HAS_ALTITUDE_MEAN_SEA_LEVEL : BitVec 16 := 0x0002
def GPS_LOCATION_EXTENDED_HAS_MAG_DEV : BitVec 16 := 0x0004

structure GpsLocation (F : Type) where
  flags : BitVec 16
  latitude : F
  longitude : F
  altitude : F
  speed : F
  bearing : F
  timestamp : Int

structure GpsLocationExtended (F : Type) where
  flags : BitVec 16
  altitudeMeanSeaLevel : F
  pdop : F
  hdop : F
  vdop : F
  magneticDeviation : F

structure GpsSvInfo (F : Type) where
  prn : Int
  snr : F
  elevation : F
  azimuth : F

structure HaxxSvStatus (F : Type) where
  sv_list : List (GpsSvInfo F)
  gps_used_in_fix_mask : BitVec 32

/-- The fields of loc_eng_data that the generator uses, with the mode of the adapter. -/
structure LocEngData (F : Type) where
  nmea_cb : Bool
  mode : LocPositionMode
  sv_used_mask : BitVec 32
  pdop : F
  hdop : F
  vdop : F

structure Tm where
  tm_year : Int
  tm_mon : Int
  tm_mday : Int
  tm_hour : Int
  tm_min : Int
  tm_sec : Int

/-- The buffer; the terminator fits. -/
structure Sentence where
  text : Text
  fits : text.length < NMEA_SENTENCE_MAX_LENGTH

/-- A call of nmea_cb. -/
structure Sent where
  pNmea : Text
  length : Int
  deriving DecidableEq, Repr

namespace Sentence

def empty : Sentence := ⟨[], by decide⟩

def lengthRemaining (s : Sentence) : Nat := NMEA_SENTENCE_MAX_LENGTH - s.text.length

/-- snprintf or strlcpy behind the text, cut to what fits with a terminator. -/
def snprintf (s : Sentence) (printed : Text) : Sentence where
  text := s.text ++ printed.take (s.lengthRemaining - 1)
  fits := by
    have fits := s.fits
    rw [List.length_append, List.length_take, lengthRemaining]
    omega

/-- snprintf with the check for "NMEA Error in string formatting". -/
def append (s : Sentence) (printed : Text) : Option Sentence :=
  if printed.length ≥ s.lengthRemaining then none else some (s.snprintf printed)

/-- The exclusive or of the characters. -/
def checksum (body : Text) : UInt8 := body.foldl (fun sum c => sum ^^^ UInt8.ofNat c.toNat) 0

/-- "*%02X\r\n" -/
def ending (sum : UInt8) : Text := '*' :: hex sum ++ ['\r', '\n']

/-- loc_eng_nmea_put_checksum, with what it returns. Behind the `$` it counts from, the buffer has
maxSize - length - 1 bytes left. -/
def putChecksum (s : Sentence) : Sentence × Int :=
  let body := s.text.drop 1
  let printed := ending (checksum body)
  (s.snprintf printed, body.length + printed.length)

/-- loc_eng_nmea_send, with the checksum that is put before. -/
def send (nmea_cb : Bool) (s : Sentence) : List Sent :=
  let (sentence, length) := s.putChecksum
  if nmea_cb then [⟨sentence.text, length⟩] else []

end Sentence

/-- A sentence as it is printed piece by piece. The last piece is not checked. -/
structure Draft where
  checked : List Text
  unchecked : Text

def Draft.print (draft : Draft) : Option Sentence :=
  (draft.checked.foldlM Sentence.append .empty).map (·.snprintf draft.unchecked)

/-- Sentences one after another; false if one cannot be formatted and nothing is sent after it. -/
def sendAll (nmea_cb : Bool) : List Draft → List Sent × Bool
  | [] => ([], true)
  | draft :: drafts =>
      match draft.print with
      | none => ([], false)
      | some sentence =>
          let (sent, formatted) := sendAll nmea_cb drafts
          (sentence.send nmea_cb ++ sent, formatted)

/-- What a call of the generator leaves and sends. -/
structure Generated (F : Type) where
  data : LocEngData F
  sent : List Sent
  formatted : Bool

section Position

/-- The loop over sv_used_mask, at most once for each of its bits. -/
def usedLoop : Nat → Nat → BitVec 32 → List Nat → List Nat
  | 0, _, _, svUsedList => svUsedList
  | bits + 1, i, mask, svUsedList =>
      if 0 < mask ∧ svUsedList.length < 32 then
        usedLoop bits (i + 1) (mask >>> 1)
          (if mask &&& 1 ≠ 0 then svUsedList ++ [i] else svUsedList)
      else svUsedList

def svUsedList (mask : BitVec 32) : List Nat := usedLoop 32 1 mask []

variable {F : Type} [CReal F]

/-- pdop, hdop and vdop: those of the report (QMI), or else the cached ones (RPC). -/
def dop (data : LocEngData F) (locationExtended : GpsLocationExtended F) : Option (F × F × F) :=
  if locationExtended.flags &&& GPS_LOCATION_EXTENDED_HAS_DOP ≠ 0 then
    some (locationExtended.pdop, locationExtended.hdop, locationExtended.vdop)
  else if literal 0 < data.pdop ∧ literal 0 < data.hdop ∧ literal 0 < data.vdop then
    some (data.pdop, data.hdop, data.vdop)
  else none

/-- The field of GPGSA for the i-th used satellite. -/
def usedField (used : List Nat) (i : Nat) : Text :=
  match used[i]? with
  | some sv => decimal 2 sv
  | none => []

/-- The end of GPGSA. -/
def gsaDop (data : LocEngData F) (locationExtended : GpsLocationExtended F) : Text :=
  match dop data locationExtended with
  | some (pdop, hdop, vdop) => fixed 0 1 pdop ++ ',' :: fixed 0 1 hdop ++ ',' :: fixed 0 1 vdop
  | none => [',', ',']

def gpgsa (data : LocEngData F) (locationExtended : GpsLocationExtended F) : Draft :=
  let used := svUsedList data.sv_used_mask
  let fixType := if used.length = 0 then '1' else if used.length ≤ 3 then '2' else '3'
  { checked := ("$GPGSA,A,".toList ++ [fixType, ',']) ::
      (List.range 12).map fun i => usedField used i ++ [',']
    unchecked := gsaDop data locationExtended }

def modeIndicator (data : LocEngData F) (location : GpsLocation F) : Char :=
  if location.flags &&& GPS_LOCATION_HAS_LAT_LONG = 0 then 'N'
  else if data.mode = .standalone then 'A'
  else 'D'

/-- The beginning of GPVTG. -/
def vtgCourse (location : GpsLocation F) : Text :=
  if location.flags &&& GPS_LOCATION_HAS_BEARING ≠ 0 then
    -- the magTrack with the magnetic deviation is a variable of an inner block
    let magTrack := location.bearing
    "$GPVTG,".toList ++ fixed 0 1 location.bearing ++ ",T,".toList ++ fixed 0 1 magTrack ++
      ",M,".toList
  else "$GPVTG,,T,,M,".toList

def vtgSpeed (location : GpsLocation F) : Text :=
  if location.flags &&& GPS_LOCATION_HAS_SPEED ≠ 0 then
    let speedKnots := toFloat (location.speed * literal (3600 / 1852))
    let speedKmPerHour := toFloat (location.speed * literal (36 / 10))
    fixed 0 1 speedKnots ++ ",N,".toList ++ fixed 0 1 speedKmPerHour ++ ",K,".toList
  else ",N,,K,".toList

def gpvtg (data : LocEngData F) (location : GpsLocation F) : Draft where
  checked := [vtgCourse location, vtgSpeed location]
  unchecked := [modeIndicator data location]

/-- (uint8_t) -/
def toByte (x : F) : Int := toInt x % 256

/-- Latitude and longitude, in GPRMC and GPGGA alike. -/
def coordinates (location : GpsLocation F) : Text :=
  if location.flags &&& GPS_LOCATION_HAS_LAT_LONG ≠ 0 then
    let (latHemisphere, latitude) :=
      if literal 0 < location.latitude then ('N', location.latitude)
      else ('S', location.latitude * literal (-1))
    let (lonHemisphere, longitude) :=
      if location.longitude < literal 0 then ('W', location.longitude * literal (-1))
      else ('E', location.longitude)
    let latMinutes := fmod (latitude * literal 60) (literal 60)
    let lonMinutes := fmod (longitude * literal 60) (literal 60)
    decimal 2 (toByte (floor latitude)) ++ fixed 9 6 latMinutes ++ ',' :: latHemisphere :: ',' ::
      decimal 3 (toByte (floor longitude)) ++ fixed 9 6 lonMinutes ++ [',', lonHemisphere, ',']
  else ",,,,".toList

def utcTime (pTm : Tm) : Text :=
  decimal 2 pTm.tm_hour ++ decimal 2 pTm.tm_min ++ decimal 2 pTm.tm_sec

def rmcSpeed (location : GpsLocation F) : Text :=
  if location.flags &&& GPS_LOCATION_HAS_SPEED ≠ 0 then
    fixed 0 1 (toFloat (location.speed * literal (3600 / 1852))) ++ [',']
  else [',']

def rmcBearing (location : GpsLocation F) : Text :=
  if location.flags &&& GPS_LOCATION_HAS_BEARING ≠ 0 then fixed 0 1 location.bearing ++ [',']
  else [',']

def utcDate (pTm : Tm) : Text :=
  digits 2 pTm.tm_mday ++ digits 2 (pTm.tm_mon + 1) ++ digits 2 (pTm.tm_year.tmod 100)

def rmcVariation (locationExtended : GpsLocationExtended F) : Text :=
  if locationExtended.flags &&& GPS_LOCATION_EXTENDED_HAS_MAG_DEV ≠ 0 then
    let (direction, magneticVariation) :=
      if locationExtended.magneticDeviation < literal 0 then
        ('W', toFloat (locationExtended.magneticDeviation * literal (-1)))
      else ('E', locationExtended.magneticDeviation)
    fixed 0 1 magneticVariation ++ [',', direction, ',']
  else [',', ',']

def gprmc (pTm : Tm) (data : LocEngData F) (location : GpsLocation F)
    (locationExtended : GpsLocationExtended F) : Draft where
  checked := ["$GPRMC,".toList ++ utcTime pTm ++ ",A,".toList, coordinates location,
    rmcSpeed location, rmcBearing location, utcDate pTm ++ [','], rmcVariation locationExtended]
  unchecked := [modeIndicator data location]

def gpsQuality (data : LocEngData F) (location : GpsLocation F) : Char :=
  if location.flags &&& GPS_LOCATION_HAS_LAT_LONG = 0 then '0'
  else if data.mode = .standalone then '1'
  else '2'

def ggaHdop (data : LocEngData F) (locationExtended : GpsLocationExtended F) : Text :=
  match dop data locationExtended with
  | some (_, hdop, _) => fixed 0 1 hdop
  | none => []

def ggaAltitude (locationExtended : GpsLocationExtended F) : Text :=
  if locationExtended.flags &&& GPS_LOCATION_EXTENDED_HAS_ALTITUDE_MEAN_SEA_LEVEL ≠ 0 then
    fixed 0 1 locationExtended.altitudeMeanSeaLevel ++ ",M,".toList
  else ",,".toList

/-- The end of GPGGA. -/
def ggaSeparation (location : GpsLocation F) (locationExtended : GpsLocationExtended F) : Text :=
  if location.flags &&& GPS_LOCATION_HAS_ALTITUDE ≠ 0 ∧
      locationExtended.flags &&& GPS_LOCATION_EXTENDED_HAS_ALTITUDE_MEAN_SEA_LEVEL ≠ 0 then
    fixed 0 1 (location.altitude - locationExtended.altitudeMeanSeaLevel) ++ ",M,,".toList
  else ",,,".toList

def gpgga (pTm : Tm) (data : LocEngData F) (location : GpsLocation F)
    (locationExtended : GpsLocationExtended F) : Draft :=
  let svUsedCount := (svUsedList data.sv_used_mask).length
  { checked := ["$GPGGA,".toList ++ utcTime pTm ++ [','], coordinates location,
      gpsQuality data location :: ',' :: decimal 2 svUsedCount ++ ',' ::
        ggaHdop data locationExtended ++ [','], ggaAltitude locationExtended]
    unchecked := ggaSeparation location locationExtended }

/-- The blank sentences for fixes that are not final. -/
def blankDrafts : List Draft :=
  [⟨[], "$GPGSA,A,1,,,,,,,,,,,,,,,".toList⟩, ⟨[], "$GPVTG,,T,,M,,N,,K,N".toList⟩,
    ⟨[], "$GPRMC,,V,,,,,,,,,,N".toList⟩, ⟨[], "$GPGGA,,,,,,0,,,,,,,,".toList⟩]

def posDrafts (pTm : Tm) (data : LocEngData F) (location : GpsLocation F)
    (locationExtended : GpsLocationExtended F) (generate_nmea : Bool) : List Draft :=
  if generate_nmea then
    [gpgsa data locationExtended, gpvtg data location, gprmc pTm data location locationExtended,
      gpgga pTm data location locationExtended]
  else blankDrafts

def LocEngData.clearDop (data : LocEngData F) : LocEngData F :=
  { data with pdop := literal 0, hdop := literal 0, vdop := literal 0 }

/-- loc_eng_nmea_generate_pos. -/
def generatePos (gmtime : Int → Option Tm) (data : LocEngData F) (location : GpsLocation F)
    (locationExtended : GpsLocationExtended F) (generate_nmea : Bool) : Generated F :=
  match gmtime (location.timestamp.tdiv 1000) with
  | none => ⟨data, [], true⟩
  | some pTm =>
      let (sent, formatted) := sendAll data.nmea_cb
        (posDrafts pTm data location locationExtended generate_nmea)
      let data := if generate_nmea then { data with sv_used_mask := 0 } else data
      ⟨if formatted then data.clearDop else data, sent, formatted⟩

end Position

section Satellites
variable {F : Type} [CReal F]

def isGps (prn : Int) : Bool := 1 ≤ prn && prn ≤ 32

def isGlonass (prn : Int) : Bool := 65 ≤ prn && prn ≤ 96

/-- (int)(0.5 + x) -/
def rounded (x : F) : Int := toInt (literal (1 / 2) + x)

/-- What the inner loop prints for a satellite. -/
def svPieces (sv : GpsSvInfo F) : List Text :=
  (',' :: decimal 2 sv.prn ++ ',' :: decimal 2 (rounded sv.elevation) ++
    ',' :: decimal 3 (rounded sv.azimuth) ++ [',']) ::
      if literal 0 < sv.snr then [decimal 2 (rounded sv.snr)] else []

/-- The inner loop from i on, over the entries from svNumber on; with those it leaves. -/
def svLoop (inRange : Int → Bool) : Nat → List (GpsSvInfo F) → List Text × List (GpsSvInfo F)
  | _, [] => ([], [])
  | i, sv :: svs =>
      if i < 4 then
        if inRange sv.prn then
          let (pieces, rest) := svLoop inRange (i + 1) svs
          (svPieces sv ++ pieces, rest)
        else svLoop inRange i svs
      else ([], sv :: svs)

/-- The outer loop, with so many sentences still to come. -/
def gsvLoop (address : Text) (inRange : Int → Bool) (count sentenceCount : Nat) :
    Nat → Nat → List (GpsSvInfo F) → List Draft
  | 0, _, _ => []
  | left + 1, sentenceNumber, svs =>
      let (pieces, rest) := svLoop inRange 0 svs
      let header := address ++ ',' :: decimal 0 sentenceCount ++ ',' :: decimal 0 sentenceNumber ++
        ',' :: decimal 2 count
      ⟨header :: pieces, []⟩ ::
        gsvLoop address inRange count sentenceCount left (sentenceNumber + 1) rest

/-- The sentences of one system. -/
def gsv (address : Text) (inRange : Int → Bool) (count : Nat) (svs : List (GpsSvInfo F)) :
    List Draft :=
  if count = 0 then [⟨[], address ++ ",1,1,0,".toList⟩]
  else
    let sentenceCount := count / 4 + if count % 4 ≠ 0 then 1 else 0
    gsvLoop address inRange count sentenceCount sentenceCount 1 svs

/-- gpsCount and glnCount. -/
def countSvs (svs : List (GpsSvInfo F)) : Nat × Nat :=
  svs.foldl (fun (gpsCount, glnCount) sv =>
    if isGps sv.prn then (gpsCount + 1, glnCount)
    else if isGlonass sv.prn then (gpsCount, glnCount + 1)
    else (gpsCount, glnCount)) (0, 0)

def gpgsv (svs : List (GpsSvInfo F)) : List Draft :=
  gsv "$GPGSV".toList isGps (countSvs svs).1 svs

def glgsv (svs : List (GpsSvInfo F)) : List Draft :=
  gsv "$GLGSV".toList isGlonass (countSvs svs).2 svs

/-- What generateSv caches for the next position report. -/
def LocEngData.cache (data : LocEngData F) (svStatus : HaxxSvStatus F)
    (locationExtended : GpsLocationExtended F) : LocEngData F :=
  let data := { data with sv_used_mask := svStatus.gps_used_in_fix_mask }
  if locationExtended.flags &&& GPS_LOCATION_EXTENDED_HAS_DOP ≠ 0 then
    { data with
      pdop := locationExtended.pdop, hdop := locationExtended.hdop, vdop := locationExtended.vdop }
  else data.clearDop

/-- loc_eng_nmea_generate_sv. -/
def generateSv (data : LocEngData F) (svStatus : HaxxSvStatus F)
    (locationExtended : GpsLocationExtended F) : Generated F :=
  let (sent, formatted) := sendAll data.nmea_cb (gpgsv svStatus.sv_list ++ glgsv svStatus.sv_list)
  ⟨if formatted then data.cache svStatus locationExtended else data, sent, formatted⟩

end Satellites
end Msm8974.Nmea
