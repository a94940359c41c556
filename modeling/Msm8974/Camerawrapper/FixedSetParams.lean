import Mathlib.Logic.Function.Basic
import Msm8974.Library.Traces

/-!
The camera wrapper keeps the last parameters of each camera in fixed_set_params, one array for all
devices. Every open allocates a new array, every close frees the strings of all cameras, leaves
the array as it is and frees the device with its operations. What android::CameraParameters reads
from a settings string is a map.
-/

namespace Msm8974.Camerawrapper

abbrev CameraParameters := String → Option String

namespace CameraParameters

def set (params : CameraParameters) (key value : String) : CameraParameters := fun k =>
  if k = key then some value else params k

def KEY_RECORDING_HINT : String := "recording-hint"
def KEY_FLASH_MODE : String := "flash-mode"
def FLASH_MODE_OFF : String := "off"
def KEY_VIDEO_SIZE : String := "video-size"

end CameraParameters

open CameraParameters

def KEY_EXPOSURE_TIME : String := "exposure-time"
def KEY_SHUTTER_SPEED : String := "shutter-speed"

def videoMode (params : CameraParameters) : Bool := params KEY_RECORDING_HINT == some "true"

/-- A shutter speed is passed on as the exposure time. -/
def exposureFromShutter (params : CameraParameters) : CameraParameters :=
  match params KEY_SHUTTER_SPEED with
  | some speed => params.set KEY_EXPOSURE_TIME speed
  | none => params

def slowShutterMode (params : CameraParameters) : Bool :=
  match params KEY_EXPOSURE_TIME with
  | some time => time != "0"
  | none => false

/-- The parameters of camera_fixup_setparams; `none` is a strcmp of a null pointer. -/
def fixupSetparams (id : Int) (params : CameraParameters) : Option CameraParameters :=
  let video := videoMode params
  let params := exposureFromShutter params
  if !video then
    let params :=
      if id = 0 && slowShutterMode params then params.set KEY_FLASH_MODE FLASH_MODE_OFF else params
    some (params.set "oppo-app" "1")
  else
    match params KEY_VIDEO_SIZE with
    | none => none
    | some video_size =>
        let params :=
          if video_size == "4096x2160" || video_size == "3840x2160" then
            params.set "preview-format" "nv12-venus"
          else params
        some ((params.set "preview-size" video_size).set "oppo-app" "1")

/-- Where camera_device_open gives up, or that it does not. -/
inductive Opening where
  | noVendorModule
  | noArray
  | noDevice
  | vendorFails
  | noOps
  | opened

/-- A call of the wrapper. The devices are numbered in the order in which they are handed out. -/
inductive Call where
  | open (cameraid : Int) (opening : Opening)
  | setParameters (device : Nat) (settings : CameraParameters)
  | close (device : Nat)

/-- What is allocated for a device, with the address of base.ops. -/
structure WrapperCameraDevice where
  id : Int
  ops : Nat
  deriving DecidableEq

structure Wrapper where
  /-- The strings that are allocated, with what each says. -/
  strings : Nat → Option CameraParameters
  /-- The next address that malloc() returns for a string. -/
  fresh : Nat
  fixed_set_params : Option (List (Option Nat))
  /-- The devices that were handed out, `none` once they are freed. -/
  camera_devices : List (Option WrapperCameraDevice)
  /-- The operations that are allocated. -/
  camera_ops : Nat → Bool

namespace Wrapper

def initial : Wrapper := ⟨fun _ => none, 0, none, [], fun _ => false⟩

/-- The memory behind a device; `none` for one that is freed or was never handed out. -/
def device (w : Wrapper) (d : Nat) : Option WrapperCameraDevice := (w.camera_devices[d]?).join

/-- free() of a string; `none` for what is not allocated. -/
def free (w : Wrapper) (p : Nat) : Option Wrapper :=
  if (w.strings p).isSome then some { w with strings := Function.update w.strings p none }
  else none

/-- if (fixed_set_params[i]) free(fixed_set_params[i]) -/
def freeEntry (w : Wrapper) : Option Nat → Option Wrapper
  | some p => w.free p
  | none => some w

/-- A device with its operations, which is given to the caller. -/
def handOut (w : Wrapper) (cameraid : Int) : Wrapper :=
  { w with
    camera_devices := w.camera_devices ++ [some ⟨cameraid, w.camera_devices.length⟩]
    camera_ops := Function.update w.camera_ops w.camera_devices.length true }

/-- The wrapper after camera_device_open and whether a device is handed out. An array that was
there before is lost. -/
def cameraDeviceOpen (num_cameras : Nat) (w : Wrapper) (cameraid : Int) :
    Opening → Wrapper × Bool
  | .noVendorModule => (w, false)
  | .noArray => ({ w with fixed_set_params := none }, false)
  | opening =>
      let w := { w with fixed_set_params := some (List.replicate num_cameras none) }
      if cameraid > num_cameras then (w, false)
      else
        match opening with
        | .opened => (w.handOut cameraid, true)
        -- what was allocated for the device is freed again
        | _ => (w, false)

/-- camera_fixup_setparams, with the string that it returns. -/
def cameraFixupSetparams (w : Wrapper) (id : Int) (settings : CameraParameters) :
    Option (Wrapper × Nat) := do
  let params ← fixupSetparams id settings
  let array ← w.fixed_set_params
  if id < 0 then none
  let entry ← array[id.toNat]?
  let w ← w.freeEntry entry
  let w := { w with
    strings := Function.update w.strings w.fresh (some params)
    fresh := w.fresh + 1
    fixed_set_params := some (array.set id.toNat (some w.fresh)) }
  some (w, w.fresh - 1)

/-- camera_set_parameters, which is called through the operations of the device, up to the call
of the vendor with the string. -/
def cameraSetParameters (w : Wrapper) (d : Nat) (settings : CameraParameters) :
    Option (Wrapper × Nat) := do
  let device ← w.device d
  if w.camera_ops device.ops then w.cameraFixupSetparams device.id settings else none

/-- One turn of the loop of camera_device_close. -/
def closeTurn (w : Wrapper) (i : Nat) : Option Wrapper := do
  let array ← w.fixed_set_params
  let entry ← array[i]?
  w.freeEntry entry

def freeStrings (num_cameras : Nat) (w : Wrapper) : Option Wrapper :=
  (List.range num_cameras).foldlM closeTurn w

/-- free(wrapper_dev->base.ops) and free(wrapper_dev) -/
def freeDevice (w : Wrapper) (d : Nat) : Option Wrapper := do
  let device ← w.device d
  if w.camera_ops device.ops then
    some { w with
      camera_devices := w.camera_devices.set d none
      camera_ops := Function.update w.camera_ops device.ops false }
  else none

def cameraDeviceClose (num_cameras : Nat) (w : Wrapper) (d : Nat) : Option Wrapper := do
  let w ← w.freeStrings num_cameras
  w.freeDevice d

/-- A call; `none` if it touches memory that it does not own. -/
def step (num_cameras : Nat) (w : Wrapper) : Call → Option Wrapper
  | .open cameraid opening => some (w.cameraDeviceOpen num_cameras cameraid opening).1
  | .setParameters d settings => (w.cameraSetParameters d settings).map Prod.fst
  | .close d => w.cameraDeviceClose num_cameras d

def run (num_cameras : Nat) (w : Wrapper) (calls : List Call) : Option Wrapper :=
  calls.foldlM (step num_cameras) w

end Wrapper

end Msm8974.Camerawrapper
