import Msm8974.Library.Runs
import Msm8974.Library.Traces
import Msm8974.LocApi.DSMachine

/-!
The messages of loc_eng.cpp that report to the framework or move the state those
reports look at. Payloads that loc_eng only hands on are type parameters, and so is
the text of the NMEA sentences: the generator is any function of what
loc_eng_nmea.cpp reads. Every call that leaves loc_eng is logged with the mute state
it was made in.
-/

namespace Msm8974.LocEng
open Msm8974.Agps (LOC_API_ADAPTER_ERR_SUCCESS)

abbrev GpsStatusValue := BitVec 16

def GPS_STATUS_NONE : GpsStatusValue := 0
def GPS_STATUS_SESSION_BEGIN : GpsStatusValue := 1
def GPS_STATUS_SESSION_END : GpsStatusValue := 2
def GPS_STATUS_ENGINE_ON : GpsStatusValue := 3
def GPS_STATUS_ENGINE_OFF : GpsStatusValue := 4

def LOC_API_ADAPTER_ERR_PHONE_OFFLINE : Int := 7
def LOC_API_ADAPTER_ERR_ENGINE_DOWN : Int := LOC_API_ADAPTER_ERR_PHONE_OFFLINE
def LOC_API_ADAPTER_ERR_INTERNAL : Int := 10

abbrev LocPosTechMask := BitVec 32

def LOC_POS_TECH_MASK_SATELLITE : LocPosTechMask := 0x01
def LOC_POS_TECH_MASK_SENSORS : LocPosTechMask := 0x08
def LOC_POS_TECH_MASK_HYBRID : LocPosTechMask := 0x80

def GPS_LOCATION_HAS_ACCURACY : BitVec 16 := 0x0010

def GPS_POSITION_RECURRENCE_SINGLE : BitVec 32 := 1

inductive LocMuteSession
  | none | wait | inSession
  deriving DecidableEq, Repr

inductive LocSessStatus
  | success | intermediate | failure
  deriving DecidableEq, Repr

/-- The value `intermediateFix` is compared with. -/
def LocSessStatus.code : LocSessStatus → BitVec 8
  | .success => 0
  | .intermediate => 1
  | .failure => 2

inductive LocPositionMode
  | invalid | standalone | msBased | msAssisted | reserved1 | reserved2 | reserved3 | reserved4
  | reserved5
  deriving DecidableEq, Repr

structure LocPosMode where
  mode : LocPositionMode
  recurrence : BitVec 32
  min_interval : BitVec 32
  preferred_accuracy : BitVec 32
  preferred_time : BitVec 32
  credentials : String
  provider : String
  deriving DecidableEq, Repr

structure GpsLocation where
  flags : BitVec 16
  latitude : Float
  longitude : Float
  altitude : Float
  speed : Float32
  bearing : Float32
  accuracy : Float32
  timestamp : Int

structure UlpLocation where
  gpsLocation : GpsLocation
  position_source : BitVec 16

/-- What loc_eng hands on without looking into it. -/
structure Payloads where
  GpsLocationExtended : Type
  LocExt : Type
  HaxxSvStatus : Type
  SvExt : Type
  GpsData : Type

variable {P : Payloads}

/-- The fields of loc_eng_data that only the NMEA generator uses. -/
structure NmeaFields where
  sv_used_mask : BitVec 32
  hdop : Float32
  pdop : Float32
  vdop : Float32

/-- loc_eng_nmea.cpp: the sentences for a report in the order they are sent, and the fields
the generator leaves behind. -/
structure NmeaGenerator (P : Payloads) where
  generatePos : NmeaFields → LocPosMode → UlpLocation → P.GpsLocationExtended → Bool →
    List String × NmeaFields
  generateSv : NmeaFields → P.HaxxSvStatus → P.GpsLocationExtended → List String × NmeaFields

inductive Call (P : Payloads)
  | locationCb (location : Option UlpLocation) (locExt : Option P.LocExt)
  | svStatusCb (svStatus : P.HaxxSvStatus) (svExt : P.SvExt)
  | gpsMeasurementCb (gpsData : P.GpsData)
  | nmeaCb (nmea : String)
  | statusCb (status : GpsStatusValue)
  | startFix (fixCriteria : LocPosMode) (ret : Int)
  | stopFix
  | setInSession (inSession : Bool)
  | setPositionMode (posMode : LocPosMode)
  | deleteAidingData (f : BitVec 16)

structure LoggedCall (P : Payloads) where
  mute : LocMuteSession
  call : Call P

/-- loc_eng_data, with the adapter's `mFixCriteria` and `mNavigating`. A callback is
its being registered. -/
structure LocEngData (P : Payloads) where
  location_cb : Bool
  status_cb : Bool
  sv_status_cb : Bool
  nmea_cb : Bool
  gps_measurement_cb : Bool
  intermediateFix : BitVec 8
  ACCURACY_THRES : UInt32
  engine_status : GpsStatusValue
  fix_session_status : GpsStatusValue
  aiding_data_for_deletion : BitVec 16
  mute_session_state : LocMuteSession
  generateNmea : Bool
  nmea : NmeaFields
  mFixCriteria : LocPosMode
  mNavigating : Bool
  log : List (LoggedCall P)

structure LocEngReportPosition (P : Payloads) where
  mLocation : UlpLocation
  mLocationExtended : P.GpsLocationExtended
  mLocationExt : Option P.LocExt
  mStatus : LocSessStatus
  mTechMask : LocPosTechMask

structure LocEngReportSv (P : Payloads) where
  mSvStatus : P.HaxxSvStatus
  mLocationExtended : P.GpsLocationExtended
  mSvExt : P.SvExt

namespace LocEngData

def record (c : Call P) (s : LocEngData P) : LocEngData P :=
  { s with log := s.log ++ [⟨s.mute_session_state, c⟩] }

def isInSession (s : LocEngData P) : Bool := s.mNavigating

def setInSession (inSession : Bool) (s : LocEngData P) : LocEngData P :=
  let s := ({ s with mNavigating := inSession } : LocEngData P).record (.setInSession inSession)
  if !inSession then { s with mFixCriteria := { s.mFixCriteria with mode := .invalid } } else s

def setPositionMode (posMode : Option LocPosMode) (s : LocEngData P) : LocEngData P :=
  let s := { s with mFixCriteria := posMode.getD s.mFixCriteria }
  s.record (.setPositionMode s.mFixCriteria)

/-- `ret` is what the modem's startFix returns. -/
def startHandler (ret : Int) (s : LocEngData P) : LocEngData P :=
  if !s.isInSession then
    let s := s.record (.startFix s.mFixCriteria ret)
    if ret = LOC_API_ADAPTER_ERR_SUCCESS ∨ ret = LOC_API_ADAPTER_ERR_ENGINE_DOWN ∨
        ret = LOC_API_ADAPTER_ERR_PHONE_OFFLINE ∨ ret = LOC_API_ADAPTER_ERR_INTERNAL then
      s.setInSession true
    else s
  else s

def stopHandler (s : LocEngData P) : LocEngData P :=
  if s.isInSession then (s.record .stopFix).setInSession false else s

def muteOneSession (s : LocEngData P) : LocEngData P := { s with mute_session_state := .wait }

def nmeaSend (s : LocEngData P) (pNmea : String) : LocEngData P :=
  if s.nmea_cb then s.record (.nmeaCb pNmea) else s

/-- The sends of one generator call. -/
def nmeaGenerate (made : List String × NmeaFields) (s : LocEngData P) : LocEngData P :=
  made.1.foldl nmeaSend { s with nmea := made.2 }

def informGpsStatus (status : GpsStatusValue) (s : LocEngData P) : LocEngData P :=
  if s.status_cb then s.record (.statusCb status) else s

def updateAidingDataForDeletion (s : LocEngData P) : LocEngData P :=
  if s.engine_status ≠ GPS_STATUS_ENGINE_ON ∧ s.aiding_data_for_deletion ≠ 0 then
    { s.record (.deleteAidingData s.aiding_data_for_deletion) with aiding_data_for_deletion := 0 }
  else s

def delAidData (f : BitVec 16) (s : LocEngData P) : LocEngData P :=
  ({ s with aiding_data_for_deletion := f } : LocEngData P).updateAidingDataForDeletion

/-- The mute state after a status report. -/
def muteAfter (status : GpsStatusValue) (mute : LocMuteSession) : LocMuteSession :=
  let mute :=
    if (status = GPS_STATUS_SESSION_BEGIN ∨ status = GPS_STATUS_ENGINE_ON) ∧ mute = .wait then
      .inSession
    else mute
  if mute = .inSession ∧ (status = GPS_STATUS_SESSION_END ∨ status = GPS_STATUS_ENGINE_OFF) then
    .none
  else mute

/-- Whether a status is meant for the framework, the mute aside. -/
def statusReported (status : GpsStatusValue) (navigating : Bool) : Bool :=
  status ≠ GPS_STATUS_NONE && !(status = GPS_STATUS_SESSION_END && navigating) &&
    !(status = GPS_STATUS_SESSION_BEGIN && !navigating)

/-- The two status fields a report is kept in. -/
def keepStatus (status : GpsStatusValue) (s : LocEngData P) : LocEngData P :=
  let s :=
    if status = GPS_STATUS_ENGINE_ON ∨ status = GPS_STATUS_ENGINE_OFF then
      { s with engine_status := status }
    else s
  if status = GPS_STATUS_SESSION_BEGIN ∨ status = GPS_STATUS_SESSION_END then
    { s with fix_session_status := status }
  else s

def reportStatus (status : GpsStatusValue) (s : LocEngData P) : LocEngData P :=
  let s := { s with mute_session_state := muteAfter status s.mute_session_state }
  let s :=
    if statusReported status s.isInSession ∧ s.mute_session_state ≠ .inSession then
      s.informGpsStatus status
    else s
  s.keepStatus status

/-- A modem that is back drops the session; the LocEngStartFix it queues is a later message. -/
def handleEngineUp (s : LocEngData P) : LocEngData P :=
  if s.isInSession then s.setInSession false else s

end LocEngData

namespace LocEngReportPosition

/-- The condition of the `else if` around location_cb. -/
def wanted (r : LocEngReportPosition P) (s : LocEngData P) : Bool :=
  (r.mStatus = .success &&
    ((LOC_POS_TECH_MASK_SATELLITE ||| LOC_POS_TECH_MASK_SENSORS ||| LOC_POS_TECH_MASK_HYBRID) &&&
      r.mTechMask) ≠ 0) ||
  (LocSessStatus.intermediate.code = s.intermediateFix &&
    !((r.mLocation.gpsLocation.flags &&& GPS_LOCATION_HAS_ACCURACY) ≠ 0 &&
      s.ACCURACY_THRES ≠ 0 &&
      r.mLocation.gpsLocation.accuracy > s.ACCURACY_THRES.toFloat32))

/-- The call of location_cb: whether the fix was reported, and the state after it. -/
def reportLocation (r : LocEngReportPosition P) (s : LocEngData P) : Bool × LocEngData P :=
  if s.location_cb then
    if r.mStatus = .failure then (true, s.record (.locationCb none none))
    else if r.wanted s then (true, s.record (.locationCb (some r.mLocation) r.mLocationExt))
    else (false, s)
  else (false, s)

/-- A reported single shot ends the session. -/
def finishSingleShot (r : LocEngReportPosition P) (reported : Bool) (s : LocEngData P) :
    LocEngData P :=
  if reported ∧ s.mFixCriteria.recurrence = GPS_POSITION_RECURRENCE_SINGLE then
    -- modem could be still working for a final fix
    let s := if r.mStatus = .intermediate then s.record .stopFix else s
    s.setInSession false
  else s

def sendNmea (g : NmeaGenerator P) (r : LocEngReportPosition P) (reported : Bool)
    (s : LocEngData P) : LocEngData P :=
  if s.generateNmea ∧ s.isInSession then
    s.nmeaGenerate (g.generatePos s.nmea s.mFixCriteria r.mLocation r.mLocationExtended
      (reported && r.mStatus ≠ .failure))
  else s

def proc (g : NmeaGenerator P) (r : LocEngReportPosition P) (s : LocEngData P) : LocEngData P :=
  if s.mute_session_state ≠ .inSession then
    let (reported, s) := r.reportLocation s
    r.sendNmea g reported (r.finishSingleShot reported s)
  else s

end LocEngReportPosition

namespace LocEngReportSv

def reportSvStatus (r : LocEngReportSv P) (s : LocEngData P) : LocEngData P :=
  if s.sv_status_cb then s.record (.svStatusCb r.mSvStatus r.mSvExt) else s

def sendNmea (g : NmeaGenerator P) (r : LocEngReportSv P) (s : LocEngData P) : LocEngData P :=
  if s.generateNmea then s.nmeaGenerate (g.generateSv s.nmea r.mSvStatus r.mLocationExtended)
  else s

def proc (g : NmeaGenerator P) (r : LocEngReportSv P) (s : LocEngData P) : LocEngData P :=
  if s.mute_session_state ≠ .inSession then r.sendNmea g (r.reportSvStatus s) else s

end LocEngReportSv

/-- The messages loc_eng processes one at a time, with the direct calls that write the same
state. -/
inductive LocEngMsg (P : Payloads)
  | muteOneSession
  | reportStatus (mStatus : GpsStatusValue)
  | reportPosition (r : LocEngReportPosition P)
  | reportSv (r : LocEngReportSv P)
  | reportGpsMeasurement (mGpsData : P.GpsData)
  | reportNmea (mNmea : String)
  | startFix (ret : Int)
  | stopFix
  | setPositionMode (posMode : Option LocPosMode)
  | delAidData (mType : BitVec 16)
  | gpsMeasurementInit
  | gpsMeasurementClose
  | engineDown
  | engineUp

def LocEngMsg.proc (g : NmeaGenerator P) (s : LocEngData P) : LocEngMsg P → LocEngData P
  | .muteOneSession => s.muteOneSession
  | .reportStatus mStatus => (s.reportStatus mStatus).updateAidingDataForDeletion
  | .reportPosition r => r.proc g s
  | .reportSv r => r.proc g s
  | .reportGpsMeasurement mGpsData =>
      if s.mute_session_state ≠ .inSession then
        if s.gps_measurement_cb then s.record (.gpsMeasurementCb mGpsData) else s
      else s
  | .reportNmea mNmea => if s.nmea_cb then s.record (.nmeaCb mNmea) else s
  | .startFix ret => s.startHandler ret
  | .stopFix => s.stopHandler
  | .setPositionMode posMode => s.setPositionMode posMode
  | .delAidData mType => s.delAidData mType
  | .gpsMeasurementInit => { s with gps_measurement_cb := true }
  | .gpsMeasurementClose => { s with gps_measurement_cb := false }
  | .engineDown => s.reportStatus GPS_STATUS_ENGINE_OFF
  | .engineUp => s.handleEngineUp

def step (g : NmeaGenerator P) (s : LocEngData P) (msg : LocEngMsg P) : Option (LocEngData P) :=
  some (msg.proc g s)

/-- loc_eng_init: the caller's callbacks and configuration over a zeroed structure. -/
structure IsInit (s : LocEngData P) : Prop where
  gps_measurement_cb : s.gps_measurement_cb = false
  engine_status : s.engine_status = GPS_STATUS_NONE
  fix_session_status : s.fix_session_status = GPS_STATUS_NONE
  aiding_data_for_deletion : s.aiding_data_for_deletion = 0
  mute_session_state : s.mute_session_state = .none
  mNavigating : s.mNavigating = false
  log : s.log = []

end Msm8974.LocEng
