import Msm8974.Library.Registers
import Msm8974.LocApi.ConfigUpdate

/-!
loc_eng_init, loc_eng_reinit and the calls that change what they tell the modem.
loc_eng_configuration_update and loc_eng_agps_ril_update_network_availability run on a thread of the
caller, one at a time; the worker processes one message after the other; the modem restarts at any
time and forgets what it was told. Reading a value for a message and queueing the message are two
steps of a thread, and the other thread may come in between.
-/

namespace Msm8974.Reinit
open ConfigUpdate (GpsConf ConfParam restored)
open Runs

/-- A sensor property with its _VALID flag; a float is the text it was made from. -/
structure SensorProperty where
  valid : Bool
  value : String
deriving DecidableEq, Repr

structure SapConf where
  SENSOR_USAGE : Int
  SENSOR_PROVIDER : Int
  GYRO_BIAS_RANDOM_WALK : SensorProperty
  ACCEL_RANDOM_WALK_SPECTRAL_DENSITY : SensorProperty
  ANGLE_RANDOM_WALK_SPECTRAL_DENSITY : SensorProperty
  RATE_RANDOM_WALK_SPECTRAL_DENSITY : SensorProperty
  VELOCITY_RANDOM_WALK_SPECTRAL_DENSITY : SensorProperty
  SENSOR_CONTROL_MODE : Int
  SENSOR_ACCEL_SAMPLES_PER_BATCH : Int
  SENSOR_ACCEL_BATCHES_PER_SEC : Int
  SENSOR_GYRO_SAMPLES_PER_BATCH : Int
  SENSOR_GYRO_BATCHES_PER_SEC : Int
  SENSOR_ACCEL_SAMPLES_PER_BATCH_HIGH : Int
  SENSOR_ACCEL_BATCHES_PER_SEC_HIGH : Int
  SENSOR_GYRO_SAMPLES_PER_BATCH_HIGH : Int
  SENSOR_GYRO_BATCHES_PER_SEC_HIGH : Int
  SENSOR_ALGORITHM_CONFIG_MASK : Int
deriving DecidableEq, Repr

/-- loc_default_parameters. -/
def SapConf.default : SapConf where
  SENSOR_USAGE := 0
  SENSOR_PROVIDER := 1
  GYRO_BIAS_RANDOM_WALK := ⟨false, "0"⟩
  ACCEL_RANDOM_WALK_SPECTRAL_DENSITY := ⟨false, "0"⟩
  ANGLE_RANDOM_WALK_SPECTRAL_DENSITY := ⟨false, "0"⟩
  RATE_RANDOM_WALK_SPECTRAL_DENSITY := ⟨false, "0"⟩
  VELOCITY_RANDOM_WALK_SPECTRAL_DENSITY := ⟨false, "0"⟩
  SENSOR_CONTROL_MODE := 0
  SENSOR_ACCEL_SAMPLES_PER_BATCH := 5
  SENSOR_ACCEL_BATCHES_PER_SEC := 2
  SENSOR_GYRO_SAMPLES_PER_BATCH := 5
  SENSOR_GYRO_BATCHES_PER_SEC := 2
  SENSOR_ACCEL_SAMPLES_PER_BATCH_HIGH := 25
  SENSOR_ACCEL_BATCHES_PER_SEC_HIGH := 4
  SENSOR_GYRO_SAMPLES_PER_BATCH_HIGH := 25
  SENSOR_GYRO_BATCHES_PER_SEC_HIGH := 4
  SENSOR_ALGORITHM_CONFIG_MASK := 0

def SapConf.anyPropertyValid (sap_conf : SapConf) : Bool :=
  sap_conf.GYRO_BIAS_RANDOM_WALK.valid || sap_conf.ACCEL_RANDOM_WALK_SPECTRAL_DENSITY.valid ||
    sap_conf.ANGLE_RANDOM_WALK_SPECTRAL_DENSITY.valid ||
    sap_conf.RATE_RANDOM_WALK_SPECTRAL_DENSITY.valid ||
    sap_conf.VELOCITY_RANDOM_WALK_SPECTRAL_DENSITY.valid

inductive LocMsg
  | init
  | up
  | gnssConstellationConfig
  | suplVer (mSuplVer : BitVec 32)
  | lppConfig (mLppConfig : BitVec 32)
  | sensorControlConfig (mSensorsDisabled mSensorProvider : Int)
  | aGlonassProtocol (mAGlonassProtocl : BitVec 32)
  | sensorProperties (gyro accel angle rate velocity : SensorProperty)
  | sensorPerfControlConfig (mControlMode mAccelSamplesPerBatch mAccelBatchesPerSec
      mGyroSamplesPerBatch mGyroBatchesPerSec mAccelSamplesPerBatchHigh mAccelBatchesPerSecHigh
      mGyroSamplesPerBatchHigh mGyroBatchesPerSecHigh mAlgorithmConfig : Int)
  | enableData (mAPN : Option (List Char)) (mEnable : BitVec 32)
  | setXtraVersionCheck (mCheck : Int)
  | setCapabilities
  | suplMode
deriving DecidableEq, Repr

/-- The sendMsg calls of loc_eng_reinit, and the one that LocEngInit makes after it. -/
inductive Item
  | gnssConstellationConfig | suplVer | lppConfig | sensorControlConfig | aGlonassProtocol
  | sensorProperties | sensorPerfControlConfig | enableData | setXtraVersionCheck | setCapabilities
deriving DecidableEq, Repr

def reinit (sap_conf : SapConf) : List Item :=
  [.gnssConstellationConfig, .suplVer, .lppConfig, .sensorControlConfig, .aGlonassProtocol] ++
    (if sap_conf.anyPropertyValid then [.sensorProperties] else []) ++
    [.sensorPerfControlConfig, .enableData, .setXtraVersionCheck]

/-- Where the caller is: in loc_eng_init, in loc_eng_configuration_update with the comparisons
that are still to come, or in loc_eng_agps_ril_update_network_availability. -/
inductive Caller
  | idle
  | initialising
  | sending (gps_conf_tmp : GpsConf) (rest : List ConfParam)
  | available (available : BitVec 32) (apn : List Char)
deriving DecidableEq, Repr

/-- A restart of the modem, or a message that the worker has processed. -/
inductive Event
  | restart
  | proc (msg : LocMsg)
deriving DecidableEq, Repr

/-- `built` is the message that the worker has made and is about to queue, `todo` what it sends
after that. -/
structure World where
  gps_conf : GpsConf
  XTRA_VERSION_CHECK : Int
  sap_conf : SapConf
  agpsStatus : BitVec 32
  adapter : Bool
  caller : Caller
  msgs : List LocMsg
  built : Option LocMsg
  todo : List Item
  log : List Event

def param (conf : GpsConf) : ConfParam → BitVec 32
  | .GPS_LOCK => conf.GPS_LOCK
  | .SUPL_VER => conf.SUPL_VER
  | .LPP_PROFILE => conf.LPP_PROFILE
  | .A_GLONASS_POS_PROTOCOL_SELECT => conf.A_GLONASS_POS_PROTOCOL_SELECT
  | .SUPL_MODE => conf.SUPL_MODE
  | .CAPABILITIES => conf.CAPABILITIES

/-- The comparisons of loc_eng_configuration_update in their order. -/
def compared : List ConfParam :=
  [.SUPL_VER, .LPP_PROFILE, .A_GLONASS_POS_PROTOCOL_SELECT, .SUPL_MODE]

/-- The message for a value that an update has changed. -/
def change (gps_conf : GpsConf) : ConfParam → List LocMsg
  | .SUPL_VER => [.suplVer gps_conf.SUPL_VER]
  | .LPP_PROFILE => [.lppConfig gps_conf.LPP_PROFILE]
  | .A_GLONASS_POS_PROTOCOL_SELECT => [.aGlonassProtocol gps_conf.A_GLONASS_POS_PROTOCOL_SELECT]
  | .SUPL_MODE => [.suplMode]
  | .GPS_LOCK | .CAPABILITIES => []

def MAX_APN_LEN : Nat := 100

namespace World

def msg (w : World) : Item → LocMsg
  | .gnssConstellationConfig => .gnssConstellationConfig
  | .suplVer => .suplVer w.gps_conf.SUPL_VER
  | .lppConfig => .lppConfig w.gps_conf.LPP_PROFILE
  | .sensorControlConfig =>
      .sensorControlConfig w.sap_conf.SENSOR_USAGE w.sap_conf.SENSOR_PROVIDER
  | .aGlonassProtocol => .aGlonassProtocol w.gps_conf.A_GLONASS_POS_PROTOCOL_SELECT
  | .sensorProperties =>
      .sensorProperties w.sap_conf.GYRO_BIAS_RANDOM_WALK
        w.sap_conf.ACCEL_RANDOM_WALK_SPECTRAL_DENSITY w.sap_conf.ANGLE_RANDOM_WALK_SPECTRAL_DENSITY
        w.sap_conf.RATE_RANDOM_WALK_SPECTRAL_DENSITY
        w.sap_conf.VELOCITY_RANDOM_WALK_SPECTRAL_DENSITY
  | .sensorPerfControlConfig =>
      .sensorPerfControlConfig w.sap_conf.SENSOR_CONTROL_MODE
        w.sap_conf.SENSOR_ACCEL_SAMPLES_PER_BATCH w.sap_conf.SENSOR_ACCEL_BATCHES_PER_SEC
        w.sap_conf.SENSOR_GYRO_SAMPLES_PER_BATCH w.sap_conf.SENSOR_GYRO_BATCHES_PER_SEC
        w.sap_conf.SENSOR_ACCEL_SAMPLES_PER_BATCH_HIGH w.sap_conf.SENSOR_ACCEL_BATCHES_PER_SEC_HIGH
        w.sap_conf.SENSOR_GYRO_SAMPLES_PER_BATCH_HIGH w.sap_conf.SENSOR_GYRO_BATCHES_PER_SEC_HIGH
        w.sap_conf.SENSOR_ALGORITHM_CONFIG_MASK
  | .enableData => .enableData none (if w.agpsStatus ≠ 0 then 1 else 0)
  | .setXtraVersionCheck => .setXtraVersionCheck w.XTRA_VERSION_CHECK
  | .setCapabilities => .setCapabilities

/-- What the worker does with a message before it sends anything itself. -/
def proc (w : World) (added : BitVec 32) : LocMsg → World
  | .init => { w with todo := reinit w.sap_conf ++ [.setCapabilities] }
  | .up => { w with todo := reinit w.sap_conf }
  | .gnssConstellationConfig =>
      { w with gps_conf := { w.gps_conf with CAPABILITIES := w.gps_conf.CAPABILITIES ||| added } }
  | _ => w

end World

/-- The steps of the caller's three functions, those of the worker, and the modem's. `added` is
what the modem's answer to a gnssConstellationConfig adds to the capabilities. -/
inductive Label
  | init
  | sendInit
  | parse (config_data : List (ConfParam × BitVec 32))
  | sendChange
  | restore
  | setAvailable (available : BitVec 32) (apn : Option (List Char))
  | sendAvailable
  | proc (added : BitVec 32)
  | read
  | send
  | modemRestart
deriving DecidableEq

def step (w : World) : Label → Option World
  | .init =>
      match w.caller with
      | .idle => some (if w.adapter then w else { w with adapter := true, caller := .initialising })
      | _ => none
  | .sendInit =>
      match w.caller with
      | .initialising => some { w with msgs := w.msgs ++ [.init], caller := .idle }
      | _ => none
  | .parse config_data =>
      match w.caller with
      | .idle =>
          some { w with
            gps_conf := w.gps_conf.update config_data, caller := .sending w.gps_conf compared }
      | _ => none
  | .sendChange =>
      match w.caller with
      | .sending gps_conf_tmp (p :: rest) =>
          some { w with
            msgs :=
              if w.adapter ∧ param gps_conf_tmp p ≠ param w.gps_conf p then
                w.msgs ++ change w.gps_conf p
              else w.msgs
            caller := .sending gps_conf_tmp rest }
      | _ => none
  | .restore =>
      match w.caller with
      | .sending gps_conf_tmp [] =>
          some { w with gps_conf := restored gps_conf_tmp w.gps_conf, caller := .idle }
      | _ => none
  | .setAvailable available apn =>
      match w.caller with
      | .idle =>
          some { w with
            agpsStatus := available
            caller :=
              match w.adapter, apn with
              | true, some apn => .available available apn
              | _, _ => .idle }
      | _ => none
  | .sendAvailable =>
      match w.caller with
      | .available available apn =>
          some { w with
            msgs := w.msgs ++ [.enableData (some (apn.take MAX_APN_LEN)) available]
            caller := .idle }
      | _ => none
  | .proc added =>
      match w.built, w.todo, w.msgs with
      | none, [], msg :: msgs =>
          some (World.proc { w with msgs := msgs, log := w.log ++ [.proc msg] } added msg)
      | _, _, _ => none
  | .read =>
      match w.built, w.todo with
      | none, item :: todo => some { w with built := some (w.msg item), todo := todo }
      | _, _ => none
  | .send =>
      match w.built with
      | some msg => some { w with msgs := w.msgs ++ [msg], built := none }
      | none => none
  | .modemRestart =>
      some { w with
        msgs := if w.adapter then w.msgs ++ [.up] else w.msgs
        log := w.log ++ [.restart] }

def IsInit (w : World) : Prop :=
  w.adapter = false ∧ w.caller = .idle ∧ w.msgs = [] ∧ w.built = none ∧ w.todo = [] ∧ w.log = []

/-- Nothing is under way. -/
def Quiet (w : World) : Prop :=
  w.adapter = true ∧ w.caller = .idle ∧ w.msgs = [] ∧ w.built = none ∧ w.todo = []

end Msm8974.Reinit
