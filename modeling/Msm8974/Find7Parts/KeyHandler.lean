import Mathlib.Data.List.Basic
import Msm8974.Library.Runs

/-!
The proximity check of KeyHandler.java. The display receiver, the settings observer and the sensor
run on one looper, so each of them is one step. R holds the values of the sensor. The cached flag
mProxyIsNear is never reset, and mUseProxiCheck is looked at anew by every callback: the check is
sound as long as no callback finds it changed since the listener was last registered.
-/

namespace Msm8974.KeyHandler
open Msm8974.Runs

variable {R : Type*}

def GESTURE_CIRCLE_SCANCODE : Int := 250
def GESTURE_V_SCANCODE : Int := 252
def GESTURE_II_SCANCODE : Int := 251
def GESTURE_LEFT_V_SCANCODE : Int := 253
def GESTURE_RIGHT_V_SCANCODE : Int := 254
def GESTURE_A_SCANCODE : Int := 255
def KEY_DOUBLE_TAP : Int := 143

def sProxiCheckedGestures : List Int :=
  [GESTURE_II_SCANCODE, GESTURE_CIRCLE_SCANCODE, GESTURE_V_SCANCODE, GESTURE_A_SCANCODE,
    GESTURE_LEFT_V_SCANCODE, GESTURE_RIGHT_V_SCANCODE, KEY_DOUBLE_TAP]

/-- mSensor is its maximum range, if there is such a sensor; `registered` is what the SensorManager
knows of mProximitySensor. -/
structure Handler (R : Type*) where
  mSensor : Option R
  mProxyIsNear : Bool
  mUseProxiCheck : Bool
  registered : Bool
  deriving DecidableEq

namespace Handler

def onSensorChanged [LT R] [DecidableLT R] (h : Handler R) (value : R) : Handler R :=
  { h with mProxyIsNear := h.mSensor.any (value < ·) }

/-- update(), with the value that DEVICE_PROXI_CHECK_ENABLED has then. -/
def update (h : Handler R) (setting : Int) : Handler R := { h with mUseProxiCheck := setting = 1 }

def onDisplayOn (h : Handler R) : Handler R :=
  if h.mUseProxiCheck then { h with registered := false } else h

/-- Without a sensor there is nothing to register with. -/
def onDisplayOff (h : Handler R) : Handler R :=
  if h.mUseProxiCheck then { h with registered := h.mSensor.isSome } else h

def isDisabledKeyEvent (h : Handler R) (scanCode : Int) : Bool :=
  let isProxyCheckRequired := h.mUseProxiCheck && sProxiCheckedGestures.contains scanCode
  h.mProxyIsNear && isProxyCheckRequired

end Handler

/-- The handler with the display it hears of and what its sensor last said since the display was
last switched off. -/
structure Phone (R : Type*) where
  handler : Handler R
  displayOn : Bool
  reading : Option Bool
  deriving DecidableEq

inductive Event (R : Type*)
  | screenOn
  | screenOff
  | onChange (setting : Int)
  | sensorChanged (value : R)
  deriving DecidableEq

def Phone.boot (mSensor : Option R) (setting : Int) (displayOn : Bool) : Phone R where
  handler := Handler.update ⟨mSensor, false, false, false⟩ setting
  displayOn := displayOn
  reading := none

/-- The sensor is heard while the listener is registered. -/
def step [LT R] [DecidableLT R] (p : Phone R) : Event R → Option (Phone R)
  | .screenOn => some { p with handler := p.handler.onDisplayOn, displayOn := true }
  | .screenOff => some ⟨p.handler.onDisplayOff, false, none⟩
  | .onChange setting => some { p with handler := p.handler.update setting }
  | .sensorChanged value =>
      if p.handler.registered then
        some { p with
          handler := p.handler.onSensorChanged value
          reading := some (p.handler.mSensor.any (value < ·)) }
      else none

/-- The listener is registered while the display is off only, and a gesture is disabled only if the
check is enabled and the last reading since then says near. -/
structure Gated (p : Phone R) : Prop where
  registered : p.handler.registered → p.displayOn = false
  disabled : ∀ scanCode, p.handler.isDisabledKeyEvent scanCode →
    p.handler.mUseProxiCheck ∧ p.reading = some true

/-- The display is not switched on with the listener registered and the check disabled meanwhile,
and the check is not in force over a flag that no reading since the last screen-off has set. -/
def Fresh (p : Phone R) : Event R → Prop
  | .screenOn => p.handler.registered → p.handler.mUseProxiCheck
  | .screenOff => p.handler.mUseProxiCheck → p.handler.mProxyIsNear = false
  | .onChange setting => setting = 1 → p.handler.mProxyIsNear → p.reading.isSome
  | .sensorChanged _ => True

/-- A reading since the last screen-off is what the flag caches. -/
def Cached (p : Phone R) : Prop := ∀ near ∈ p.reading, p.handler.mProxyIsNear = near

theorem exists_disabled_iff (h : Handler R) :
    (∃ scanCode, h.isDisabledKeyEvent scanCode) ↔ h.mProxyIsNear ∧ h.mUseProxiCheck := by
  constructor
  · intro ⟨scanCode, disabled⟩
    simp [Handler.isDisabledKeyEvent] at disabled
    exact ⟨disabled.1, disabled.2.1⟩
  · intro ⟨near, check⟩
    exact ⟨KEY_DOUBLE_TAP, by simp [Handler.isDisabledKeyEvent, near, check, sProxiCheckedGestures]⟩

theorem gated_iff (p : Phone R) :
    Gated p ↔ (p.handler.registered → p.displayOn = false) ∧
      (p.handler.mProxyIsNear → p.handler.mUseProxiCheck → p.reading = some true) := by
  constructor
  · intro gated
    refine ⟨gated.registered, fun near check => ?_⟩
    apply ((exists_disabled_iff p.handler).mpr ⟨near, check⟩).elim
    exact fun scanCode disabled => (gated.disabled scanCode disabled).2
  · intro ⟨registered, near⟩
    refine ⟨registered, fun scanCode disabled => ?_⟩
    have flags := (exists_disabled_iff p.handler).mp ⟨scanCode, disabled⟩
    exact ⟨flags.2, near flags.1 flags.2⟩

variable [LT R] [DecidableLT R]

theorem cached_step {p q : Phone R} {event : Event R} (cached : Cached p)
    (h : step p event = some q) : Cached q := by
  cases event with
  | screenOn =>
      cases h
      unfold Cached Handler.onDisplayOn
      split <;> exact cached
  | screenOff =>
      cases h
      intro near mem
      cases mem
  | onChange setting =>
      cases h
      exact cached
  | sensorChanged value =>
      simp only [step] at h
      split at h
      · cases h
        intro near mem
        exact Option.some.inj mem
      · cases h

/-- A step keeps the gating exactly where it is fresh. -/
theorem gated_step {p q : Phone R} {event : Event R} (cached : Cached p) (gated : Gated p)
    (h : step p event = some q) : Gated q ↔ Fresh p event := by
  rw [gated_iff] at *
  cases event with
  | screenOn =>
      cases h
      cases check : p.handler.mUseProxiCheck <;>
        simp_all [Handler.onDisplayOn, Fresh]
  | screenOff =>
      cases h
      cases check : p.handler.mUseProxiCheck <;>
        simp_all [Handler.onDisplayOff, Fresh]
  | onChange setting =>
      cases h
      cases flag : p.handler.mProxyIsNear with
      | false => simp_all [Handler.update, Fresh]
      | true =>
          cases reading : p.reading with
          | none => simp_all [Handler.update, Fresh]
          | some near =>
              have := cached near reading
              simp_all [Handler.update, Fresh]
  | sensorChanged value =>
      simp only [step] at h
      split at h
      · cases h
        simp_all [Handler.onSensorChanged, Fresh]
      · cases h

theorem gesture_gating_iff {mSensor : Option R} {setting : Int} {displayOn : Bool}
    {events : List (Event R)} {p : Phone R}
    (run : Run step (Phone.boot mSensor setting displayOn) events p) :
    Throughout step Gated (Phone.boot mSensor setting displayOn) events ↔
      Meets step Fresh (Phone.boot mSensor setting displayOn) events := by
  apply run.throughout_iff_meets (I := Cached)
  · exact fun _ _ _ cached gated h => gated_step cached gated h
  · exact fun _ _ _ cached h => cached_step cached h
  · intro near mem
    cases mem
  · simp [gated_iff, Phone.boot, Handler.update]

/-- The last reading before the display goes off again was far. -/
theorem far_reading_is_kept :
    Throughout step Gated (Phone.boot (some (8 : Int)) 1 true)
      [.screenOff, .sensorChanged 3, .sensorChanged 8, .screenOn, .screenOff, .sensorChanged 3] :=
  (gesture_gating_iff
    (p := ⟨⟨some 8, true, true, true⟩, false, some true⟩)
    (run_iff_foldlM.mpr (by decide))).mpr (by simp [Meets, Fresh, step, Phone.boot]; decide)

/-- Near from one screen-off is still believed at the next, before the sensor is heard again. -/
theorem stale_flag_disables_gestures :
    ¬∀ (mSensor : Option Int) (setting : Int) (displayOn : Bool) (events : List (Event Int))
      (p : Phone Int), Run step (Phone.boot mSensor setting displayOn) events p →
        Throughout step Gated (Phone.boot mSensor setting displayOn) events := by
  intro h
  have run : Run step (Phone.boot (some (8 : Int)) 1 true)
      [.screenOff, .sensorChanged 3, .screenOn, .screenOff]
      ⟨⟨some 8, true, true, true⟩, false, none⟩ := run_iff_foldlM.mpr (by decide)
  have gated := h _ _ _ _ _ run _ [] _ (List.append_nil _).symm run
  have := (gated.disabled KEY_DOUBLE_TAP (by decide)).2
  cases this

end Msm8974.KeyHandler
