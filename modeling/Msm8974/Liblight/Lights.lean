import Msm8974.Library.Runs

/-!
The lights HAL: three stored light states, the arbitration between them, and the LED files
of the two hardware variants. Sums and products of ints wrap to 32 bits. A division by zero
and a duty string longer than its buffer are undefined behaviour, which leaves no files.
-/

namespace Msm8974.Liblight

def LIGHT_FLASH_NONE : BitVec 32 := 0
def LIGHT_FLASH_TIMED : BitVec 32 := 1
def LIGHT_FLASH_HARDWARE : BitVec 32 := 2

def QPNP_DUTY_STEPS : Nat := 50

structure LightState where
  color : BitVec 32
  flashMode : BitVec 32
  flashOnMS : BitVec 32
  flashOffMS : BitVec 32
deriving DecidableEq

namespace LightState

def isLit (state : LightState) : Bool := state.color &&& 0x00ffffff#32 != 0

def onMS (state : LightState) : BitVec 32 :=
  if state.flashMode = LIGHT_FLASH_TIMED then state.flashOnMS else 0

def offMS (state : LightState) : BitVec 32 :=
  if state.flashMode = LIGHT_FLASH_TIMED then state.flashOffMS else 0

def red (state : LightState) : BitVec 32 := (state.color >>> 16) &&& 0xFF
def green (state : LightState) : BitVec 32 := (state.color >>> 8) &&& 0xFF
def blue (state : LightState) : BitVec 32 := state.color &&& 0xFF

end LightState

/-- What was last written to each file; RED_LED_FILE is a file of both variants. -/
structure LedFiles where
  red : Int
  green : Int
  blue : Int
  redFreq : Int
  redPwm : Int
  redBlink : Int
  qpnpDuty : List Char
  qpnpRampStep : Int
  qpnpBlink : Int
deriving DecidableEq

def setSpeakerLightLockedShineled (state : LightState) (files : LedFiles) : LedFiles :=
  let files := { files with
    red := state.red.toInt, green := state.green.toInt, blue := state.blue.toInt }
  if 0 < state.onMS.toInt ∧ 0 < state.offMS.toInt then
    let totalMS := state.onMS + state.offMS
    let freq := totalMS.toInt.tdiv 50
    let pwm := (state.onMS * 255).toInt.tdiv totalMS.toInt
    -- the low 4 bits are ignored, so round up if necessary
    let pwm := if 0 < pwm ∧ pwm < 16 then 16 else pwm
    { files with redFreq := freq, redPwm := pwm, redBlink := 1 }
  else { files with redBlink := 0 }

/-- The quotient of two ints, which is undefined for the divisor zero. -/
def quotient (a b : Int) : Option Int := if b = 0 then none else some (a.tdiv b)

/-- What `%d` prints. -/
def decimal (value : Int) : List Char :=
  if value < 0 then '-' :: Nat.toDigits 10 value.natAbs else Nat.toDigits 10 value.natAbs

/-- The numbers that the three loops print after the leading 0. -/
def dutyPcts (onSteps : Int) : Option (List Int) := do
  let half := onSteps.tdiv 2
  let rising ← (List.range' 1 half.toNat).mapM fun (i : Nat) =>
    (quotient (100 * i) half).map (min · 100)
  let falling ← (List.range' (half.toNat + 1) (onSteps.toNat - half.toNat)).mapM fun (i : Nat) =>
    (quotient (100 * (onSteps - i)) half).map (min · 100)
  return rising ++ falling ++ List.replicate (QPNP_DUTY_STEPS - 2 - onSteps.toNat) 0

/-- The string with its newline, provided that it fits with its terminator. -/
def dutystr (onSteps : Int) : Option (List Char) := do
  let pcts ← dutyPcts onSteps
  let text := '0' :: pcts.flatMap (fun pct => ',' :: decimal pct) ++ ['\n']
  if text.length + 1 ≤ 4 * (QPNP_DUTY_STEPS + 1) then some text else none

structure Lights where
  g_notification : LightState
  g_battery : LightState
  g_attention : LightState
  g_is_qpnp_device : Bool
  files : Option LedFiles
deriving DecidableEq

namespace Lights

def setSpeakerLightLockedQpnp (s : Lights) (state : LightState) (files : LedFiles) :
    Option LedFiles := do
  let colorRGB := 0xFFFFFF#32 &&& state.color
  -- If a brightness has been applied by the user
  let brightness := (s.g_notification.color &&& 0xFF000000#32) >>> 24
  let brightness := if brightness = 0 then 0xFF#32 else brightness
  if 0 < state.onMS.toInt ∧ 0 < state.offMS.toInt then
    let totalMS := state.onMS + state.offMS
    let stepMS := totalMS.toInt.tdiv QPNP_DUTY_STEPS
    let onSteps ← quotient state.onMS.toInt stepMS
    let text ← dutystr onSteps
    return { files with red := 0, qpnpDuty := text, qpnpRampStep := stepMS, qpnpBlink := 1 }
  else
    return { files with qpnpBlink := 0, red := if colorRGB ≠ 0 then brightness.toInt else 0 }

/-- NULL is no state. -/
def setSpeakerLightLocked (s : Lights) : Option LightState → LedFiles → Option LedFiles
  | none, files => some files
  | some state, files =>
      if s.g_is_qpnp_device then s.setSpeakerLightLockedQpnp state files
      else some (setSpeakerLightLockedShineled state files)

def handleSpeakerBatteryLocked (s : Lights) (files : LedFiles) : Option LedFiles := do
  if s.g_attention.isLit then
    let files ← s.setSpeakerLightLocked none files
    s.setSpeakerLightLocked (some s.g_attention) files
  else if s.g_battery.isLit && s.g_notification.isLit then
    let files ← s.setSpeakerLightLocked none files
    s.setSpeakerLightLocked (some s.g_notification) files
  else if s.g_battery.isLit then
    let files ← s.setSpeakerLightLocked none files
    s.setSpeakerLightLocked (some s.g_battery) files
  else s.setSpeakerLightLocked (some s.g_notification) files

end Lights

inductive Call where
  | setLightBattery (state : LightState)
  | setLightNotifications (state : LightState)
  | setLightAttention (state : LightState)

namespace Lights

/-- The assignments of a call, before handle_speaker_battery_locked(). -/
def store (s : Lights) : Call → Lights
  | .setLightBattery state => { s with g_battery := state }
  | .setLightNotifications state => { s with g_notification := state }
  | .setLightAttention state =>
      if state.flashMode = LIGHT_FLASH_HARDWARE then
        if 0 < state.flashOnMS.toInt ∧ state.flashOffMS = 0 then
          { s with g_attention := { state with flashMode := LIGHT_FLASH_NONE } }
        else { s with g_attention := state }
      else if state.flashMode = LIGHT_FLASH_NONE then
        { s with g_attention := { state with color := 0 } }
      else { s with g_attention := state }

/-- Nothing is called any more once the behaviour is undefined. -/
def step (s : Lights) (call : Call) : Option Lights :=
  s.files.map fun files =>
    { s.store call with files := (s.store call).handleSpeakerBatteryLocked files }

/-- The lights before the first call, with the LED files as they happen to be. -/
def initial (g_is_qpnp_device : Bool) (files : LedFiles) : Lights :=
  { g_notification := ⟨0, 0, 0, 0⟩, g_battery := ⟨0, 0, 0, 0⟩, g_attention := ⟨0, 0, 0, 0⟩,
    g_is_qpnp_device, files := some files }

end Lights

end Msm8974.Liblight
