import Mathlib.Algebra.Group.Int.Defs
import Mathlib.Algebra.GroupWithZero.Nat
import Msm8974.Liblight.Lights

/-!
Which of the three lights the LED files show. The arbitration always hands on the right state.
What fails is writing it: an unlit notification still blinks, and on qpnp the duty string of some
periods divides by zero or overruns its buffer.
-/

namespace Msm8974.Liblight
open Msm8974.Runs

namespace LightState

def Blinks (light : LightState) : Prop :=
  light.flashMode = LIGHT_FLASH_TIMED ∧ 0 < light.flashOnMS.toInt ∧ 0 < light.flashOffMS.toInt

/-- The periods whose duty string is defined. The last ones have a sum that wraps to a negative
number, which leaves no step at all. -/
def HasDuty (light : LightState) : Prop :=
  let on := light.flashOnMS.toInt
  let sum := on + light.flashOffMS.toInt
  50 ≤ sum ∧ sum < 2 ^ 31 ∧ (on < sum / 50 ∨ 2 * (sum / 50) ≤ on ∧ on < 69 * (sum / 50)) ∨
    2 ^ 31 ≤ sum ∧ sum ≤ 2 ^ 32 - 50

instance (light : LightState) : Decidable light.Blinks :=
  inferInstanceAs (Decidable (_ ∧ _))

instance (light : LightState) : Decidable light.HasDuty :=
  inferInstanceAs (Decidable (_ ∨ _))

theorem blinks_iff (light : LightState) :
    light.Blinks ↔ 0 < light.onMS.toInt ∧ 0 < light.offMS.toInt := by
  by_cases timed : light.flashMode = LIGHT_FLASH_TIMED <;> simp [Blinks, onMS, offMS, timed]

theorem unlit_iff (light : LightState) : light.isLit = false ↔ light.color.toNat % 2 ^ 24 = 0 := by
  have mask : (light.color &&& 0x00ffffff#32).toNat = light.color.toNat % 2 ^ 24 := by
    rw [BitVec.toNat_and]
    exact Nat.and_two_pow_sub_one_eq_mod light.color.toNat 24
  rw [isLit, bne_eq_false_iff_eq, ← BitVec.toNat_inj, mask]
  rfl

theorem component_eq_zero {light : LightState} (unlit : light.isLit = false) :
    light.red = 0 ∧ light.green = 0 ∧ light.blue = 0 := by
  have zero := light.unlit_iff.mp unlit
  have byte : ∀ x : BitVec 32, (x &&& 0xFF).toNat = x.toNat % 2 ^ 8 := fun x => by
    rw [BitVec.toNat_and]
    exact Nat.and_two_pow_sub_one_eq_mod x.toNat 8
  have vanishes : ∀ x : BitVec 32, x.toNat = 0 → x = 0 := fun _ h => BitVec.eq_of_toNat_eq h
  refine ⟨vanishes _ ?_, vanishes _ ?_, vanishes _ ?_⟩
  · rw [red, byte, BitVec.toNat_ushiftRight, Nat.shiftRight_eq_div_pow]
    omega
  · rw [green, byte, BitVec.toNat_ushiftRight, Nat.shiftRight_eq_div_pow]
    omega
  · rw [blue, byte]
    omega

end LightState

theorem quotient_eq {a b : Int} (h : b ≠ 0) : quotient a b = some (a.tdiv b) := if_neg h

section Duty
variable {onSteps : Nat}

/-- The percentages of a pulse of at least two steps. -/
def percents (onSteps : Nat) : List Nat :=
  let half := onSteps / 2
  (List.range' 1 half).map (fun i => min (100 * i / half) 100) ++
    (List.range' (half + 1) (onSteps - half)).map (fun i => min (100 * (onSteps - i) / half) 100) ++
    List.replicate (QPNP_DUTY_STEPS - 2 - onSteps) 0

theorem dutyPcts_eq (steps : 2 ≤ onSteps) :
    dutyPcts onSteps = some ((percents onSteps).map Nat.cast) := by
  have half : (onSteps : Int).tdiv 2 = (onSteps / 2 : Nat) := by
    rw [Int.tdiv_eq_ediv_of_nonneg (by omega)]
    rfl
  have divides : ((onSteps / 2 : Nat) : Int) ≠ 0 := by omega
  have loop : ∀ (f : Nat → Int) (g : Nat → Nat) (l : List Nat), (∀ i ∈ l, f i = g i) →
      l.mapM (fun i => (quotient (f i) (onSteps / 2 : Nat)).map (min · 100)) =
        some ((l.map fun i => min (g i / (onSteps / 2)) 100).map Nat.cast) := by
    intro f g l same
    have each : ∀ i ∈ l, min ((f i).tdiv (onSteps / 2 : Nat)) 100 =
        ((min (g i / (onSteps / 2)) 100 : Nat) : Int) := by
      intro i mem
      rw [same i mem, Int.tdiv_eq_ediv_of_nonneg (by omega)]
      omega
    simp only [quotient_eq divides, Option.map_some, List.map_map]
    exact List.mapM_pure.trans (congrArg some (List.map_congr_left each))
  have rising := loop (fun i => 100 * i) (fun i => 100 * i) (List.range' 1 (onSteps / 2))
    (fun i _ => by omega)
  have falling := loop (fun i => 100 * (onSteps - i)) (fun i => 100 * (onSteps - i))
    (List.range' (onSteps / 2 + 1) (onSteps - onSteps / 2)) (fun i mem => by
      rw [List.mem_range'_1] at mem
      omega)
  simp only [dutyPcts, half, Int.toNat_natCast, rising, falling, Option.bind_eq_bind,
    Option.bind_some, percents, List.map_append, List.map_replicate]
  rfl

theorem percents_le {pct : Nat} (mem : pct ∈ percents onSteps) : pct ≤ 100 := by
  simp only [percents, List.mem_append, List.mem_map, List.mem_replicate] at mem
  rcases mem with (⟨i, -, rfl⟩ | ⟨i, -, rfl⟩) | ⟨-, rfl⟩
  · exact Nat.min_le_right _ _
  · exact Nat.min_le_right _ _
  · exact Nat.zero_le _

/-- The number of digits of a percentage. -/
def width (pct : Nat) : Nat := if pct < 10 then 1 else if pct < 100 then 2 else 3

theorem length_decimal {pct : Nat} (range : pct ≤ 100) : (decimal pct).length = width pct := by
  have table : ∀ n ≤ 100, (Nat.toDigits 10 n).length = width n := by decide
  rw [decimal, if_neg (by omega), Int.natAbs_natCast, table pct range]

theorem dutystr_isSome_iff (steps : 2 ≤ onSteps) : (dutystr onSteps).isSome ↔
    ((percents onSteps).map fun pct => 1 + width pct).sum + 3 ≤ 4 * (QPNP_DUTY_STEPS + 1) := by
  have each : ∀ pct ∈ percents onSteps, (',' :: decimal pct).length = 1 + width pct := by
    intro pct mem
    rw [List.length_cons, length_decimal (percents_le mem), Nat.add_comm]
  have total : (((percents onSteps).map Nat.cast).flatMap fun pct => ',' :: decimal pct).length =
      ((percents onSteps).map fun pct => 1 + width pct).sum := by
    rw [List.length_flatMap, List.map_map]
    exact congrArg List.sum (List.map_congr_left each)
  rw [dutystr, dutyPcts_eq steps]
  simp only [Option.bind_eq_bind, Option.bind_some, List.length_append, List.length_cons, total,
    List.length_nil]
  split
  case isTrue fits => exact iff_of_true rfl (by omega)
  case isFalse long => exact iff_of_false Bool.false_ne_true (by omega)

end Duty

/-- One step divides by zero, and from 69 steps on the string is too long. -/
theorem dutystr_defined {onSteps : Int} (bound : onSteps < 99) :
    (dutystr onSteps).isSome ↔ onSteps ≠ 1 ∧ onSteps ≤ 68 := by
  by_cases off : onSteps ≤ 0
  · have half : (onSteps.tdiv 2).toNat = 0 :=
      Int.toNat_eq_zero.mpr (Int.tdiv_le_tdiv (by decide) off)
    have none_on : onSteps.toNat = 0 := by omega
    have same : dutystr onSteps = dutystr 0 := by simp [dutystr, dutyPcts, half, none_on]
    rw [same]
    exact iff_of_true (by decide) ⟨by omega, by omega⟩
  obtain ⟨n, rfl⟩ : ∃ n : Nat, onSteps = n := ⟨onSteps.toNat, by omega⟩
  by_cases single : n = 1
  · subst single
    exact iff_of_false (by decide) (by omega)
  · have table : ∀ n < 99, 2 ≤ n →
        (((percents n).map fun pct => 1 + width pct).sum + 3 ≤ 4 * (QPNP_DUTY_STEPS + 1) ↔
          n ≤ 68) := by
      decide +kernel
    rw [dutystr_isSome_iff (by omega), table n (by omega) (by omega)]
    omega

namespace LightState

theorem sum_toInt (light : LightState) (blinks : light.Blinks) :
    (light.onMS + light.offMS).toInt = light.flashOnMS.toInt + light.flashOffMS.toInt -
      if light.flashOnMS.toInt + light.flashOffMS.toInt < 2 ^ 31 then 0 else 2 ^ 32 := by
  obtain ⟨timed, on, off⟩ := blinks
  have on_lt := light.flashOnMS.toInt_lt
  have off_lt := light.flashOffMS.toInt_lt
  rw [onMS, offMS, if_pos timed, if_pos timed, BitVec.toInt_add, Int.bmod_def]
  split <;> split <;> omega

/-- The number of duty steps is defined and makes a duty string for exactly these periods. -/
theorem hasDuty_iff {light : LightState} (blinks : light.Blinks) :
    light.HasDuty ↔ ∃ onSteps, quotient light.flashOnMS.toInt
      ((light.onMS + light.offMS).toInt.tdiv QPNP_DUTY_STEPS) = some onSteps ∧
        (dutystr onSteps).isSome := by
  have total := light.sum_toInt blinks
  obtain ⟨-, on_pos, off_pos⟩ := blinks
  have on_lt := light.flashOnMS.toInt_lt
  have off_lt := light.flashOffMS.toInt_lt
  have fifty : (QPNP_DUTY_STEPS : Int) = 50 := rfl
  rw [total, fifty, HasDuty]
  generalize light.flashOnMS.toInt = on at *
  generalize light.flashOffMS.toInt = off at *
  split
  case isTrue fits =>
    rw [Int.sub_zero, Int.tdiv_eq_ediv_of_nonneg (by omega)]
    by_cases short : on + off < 50
    · have no_step : (on + off) / 50 = 0 := by omega
      refine iff_of_false (by omega) ?_
      rw [no_step]
      simp [quotient]
    · have positive : 0 < (on + off) / 50 := by omega
      have long : on < 99 * ((on + off) / 50) := by omega
      generalize (on + off) / 50 = step at *
      have exact_steps : quotient on step = some (on / step) := by
        rw [quotient_eq (by omega), Int.tdiv_eq_ediv_of_nonneg (by omega)]
      have bound : on / step < 99 := Int.ediv_lt_of_lt_mul positive long
      have below_one : on / step < 1 ↔ on < 1 * step := Int.ediv_lt_iff_lt_mul positive
      have from_two : 2 ≤ on / step ↔ 2 * step ≤ on := Int.le_ediv_iff_mul_le positive
      have below : on / step < 69 ↔ on < 69 * step := Int.ediv_lt_iff_lt_mul positive
      simp only [exact_steps, Option.some.injEq, exists_eq_left', dutystr_defined bound]
      omega
  case isFalse wraps =>
    have wrapped : (on + off - 2 ^ 32).tdiv 50 = -((2 ^ 32 - (on + off)) / 50) := by
      rw [← Int.neg_sub, Int.neg_tdiv, Int.tdiv_eq_ediv_of_nonneg (by omega)]
    by_cases short : 2 ^ 32 - 50 < on + off
    · have no_step : (on + off - 2 ^ 32).tdiv 50 = 0 := by omega
      refine iff_of_false (by omega) ?_
      rw [no_step]
      simp [quotient]
    · have negative : (on + off - 2 ^ 32).tdiv 50 < 0 := by omega
      clear wrapped
      generalize (on + off - 2 ^ 32).tdiv 50 = step at *
      have none_on : on.tdiv step ≤ 0 := Int.tdiv_nonpos_of_nonneg_of_nonpos (by omega) (by omega)
      refine iff_of_true (.inr (by omega)) ⟨_, quotient_eq (by omega), ?_⟩
      exact (dutystr_defined (by omega)).mpr ⟨by omega, by omega⟩

end LightState

namespace LedFiles

def Blinking (files : LedFiles) (g_is_qpnp_device : Bool) : Prop :=
  (if g_is_qpnp_device then files.qpnpBlink else files.redBlink) ≠ 0

/-- qpnp has a single LED, which shows no colour. -/
def HasColour (files : LedFiles) (g_is_qpnp_device : Bool) (light : LightState) : Prop :=
  if g_is_qpnp_device then light.Blinks ∨ files.red ≠ 0
  else files.red = light.red.toInt ∧ files.green = light.green.toInt ∧
    files.blue = light.blue.toInt

def Dark (files : LedFiles) (g_is_qpnp_device : Bool) : Prop :=
  files.red = 0 ∧ (g_is_qpnp_device = false → files.green = 0 ∧ files.blue = 0)

end LedFiles

namespace Lights

/-- The light that the LED belongs to. -/
def owner (s : Lights) : Option LightState :=
  [s.g_attention, s.g_notification, s.g_battery].find? LightState.isLit

/-- The LED files show the light that the LED belongs to, or a dark LED. -/
def Shows (s : Lights) : Prop :=
  ∃ files, s.files = some files ∧
    match s.owner with
    | some light => files.HasColour s.g_is_qpnp_device light ∧
        (files.Blinking s.g_is_qpnp_device ↔ light.Blinks)
    | none => files.Dark s.g_is_qpnp_device ∧ ¬ files.Blinking s.g_is_qpnp_device

/-- No unlit notification blinks, and the duty string of a blinking owner is defined. -/
def Showable (s : Lights) : Prop :=
  match s.owner with
  | some light => s.g_is_qpnp_device = true → light.Blinks → light.HasDuty
  | none => ¬ s.g_notification.Blinks

theorem handleSpeakerBatteryLocked_eq (s : Lights) (files : LedFiles) :
    s.handleSpeakerBatteryLocked files =
      s.setSpeakerLightLocked (some (s.owner.getD s.g_notification)) files := by
  cases attention : s.g_attention.isLit <;> cases notification : s.g_notification.isLit <;>
    cases battery : s.g_battery.isLit <;>
      simp [handleSpeakerBatteryLocked, owner, setSpeakerLightLocked, attention, notification,
        battery]

theorem owner_isLit {s : Lights} {light : LightState} (h : s.owner = some light) :
    light.isLit = true := List.find?_some h

theorem notification_unlit {s : Lights} (h : s.owner = none) :
    s.g_notification.isLit = false := by
  have unlit := List.find?_eq_none.mp h s.g_notification (by simp)
  simpa using unlit

theorem shineled_shows (light : LightState) (files : LedFiles) :
    (setSpeakerLightLockedShineled light files).HasColour false light ∧
      ((setSpeakerLightLockedShineled light files).Blinking false ↔ light.Blinks) := by
  rw [light.blinks_iff, setSpeakerLightLockedShineled]
  split
  case isTrue on => exact ⟨⟨rfl, rfl, rfl⟩, iff_of_true (by simp [LedFiles.Blinking]) on⟩
  case isFalse off => exact ⟨⟨rfl, rfl, rfl⟩, iff_of_false (by simp [LedFiles.Blinking]) off⟩

theorem qpnp_blinks (s : Lights) {light : LightState} (files : LedFiles) (blinks : light.Blinks)
    (hasDuty : light.HasDuty) :
    ∃ written, s.setSpeakerLightLockedQpnp light files = some written ∧ written.qpnpBlink = 1 := by
  obtain ⟨onSteps, steps, fits⟩ := (LightState.hasDuty_iff blinks).mp hasDuty
  obtain ⟨text, duty⟩ := Option.isSome_iff_exists.mp fits
  have times := light.blinks_iff.mp blinks
  have on : light.onMS = light.flashOnMS := if_pos blinks.1
  rw [← on] at steps
  simp only [setSpeakerLightLockedQpnp, if_pos times, steps, Option.bind_eq_bind,
    Option.bind_some, duty]
  exact ⟨_, rfl, rfl⟩

theorem qpnp_undefined (s : Lights) {light : LightState} (files : LedFiles)
    (blinks : light.Blinks) (noDuty : ¬ light.HasDuty) :
    s.setSpeakerLightLockedQpnp light files = none := by
  have times := light.blinks_iff.mp blinks
  have on : light.onMS = light.flashOnMS := if_pos blinks.1
  have undefined := fun h => noDuty ((LightState.hasDuty_iff blinks).mpr h)
  simp only [setSpeakerLightLockedQpnp, if_pos times]
  cases steps : quotient light.onMS.toInt
      ((light.onMS + light.offMS).toInt.tdiv QPNP_DUTY_STEPS) with
  | none => rfl
  | some onSteps =>
      cases duty : dutystr onSteps with
      | none => simp only [Option.bind_eq_bind, Option.bind_some, duty, Option.bind_none]
      | some text => exact (undefined ⟨onSteps, on ▸ steps, by simp [duty]⟩).elim

theorem qpnp_steady (s : Lights) {light : LightState} (files : LedFiles)
    (steady : ¬ light.Blinks) :
    ∃ written, s.setSpeakerLightLockedQpnp light files = some written ∧ written.qpnpBlink = 0 ∧
      (written.red = 0 ↔ light.isLit = false) := by
  have times := fun h => steady (light.blinks_iff.mpr h)
  have rgb : 0xFFFFFF#32 &&& light.color ≠ 0 ↔ light.isLit = true := by
    simp [LightState.isLit, BitVec.and_comm]
  simp only [setSpeakerLightLockedQpnp, if_neg times, rgb]
  refine ⟨_, rfl, rfl, ?_⟩
  cases lit : light.isLit with
  | false => simp
  | true =>
      have bright : ∀ x : BitVec 32, (if x = 0 then 0xFF#32 else x) ≠ 0 := by
        intro x
        split
        · decide
        · assumption
      have nonzero : ∀ x : BitVec 32, x ≠ 0 → x.toInt ≠ 0 := fun x h zero =>
        h (BitVec.eq_of_toInt_eq zero)
      simpa using nonzero _ (bright _)

/-- What handle_speaker_battery_locked() makes of the stored lights. -/
theorem shows_iff {t : Lights} (s : Lights) (files : LedFiles)
    (written : t = { s with files := s.handleSpeakerBatteryLocked files }) :
    t.Shows ↔ s.Showable := by
  have same_owner : t.owner = s.owner := by rw [written]; rfl
  have same_device : t.g_is_qpnp_device = s.g_is_qpnp_device := by rw [written]
  have result : t.files = s.setSpeakerLightLocked (some (s.owner.getD s.g_notification)) files := by
    rw [written, ← handleSpeakerBatteryLocked_eq]
  rw [Shows, Showable, same_owner, same_device, result]
  cases variant : s.g_is_qpnp_device with
  | false =>
      simp only [setSpeakerLightLocked, variant]
      cases owner : s.owner with
      | some light =>
          refine iff_of_true ⟨_, rfl, shineled_shows light files⟩ ?_
          simp
      | none =>
          obtain ⟨⟨red, green, blue⟩, blinking⟩ := shineled_shows s.g_notification files
          obtain ⟨no_red, no_green, no_blue⟩ :=
            LightState.component_eq_zero (notification_unlit owner)
          rw [no_red] at red
          rw [no_green] at green
          rw [no_blue] at blue
          constructor
          · rintro ⟨_, ⟨⟩, -, still⟩ blinks
            exact still (blinking.mpr blinks)
          · intro steady
            exact ⟨_, rfl, ⟨red, fun _ => ⟨green, blue⟩⟩, fun h => steady (blinking.mp h)⟩
  | true =>
      simp only [setSpeakerLightLocked, variant]
      cases owner : s.owner with
      | some light =>
          by_cases blinks : light.Blinks
          · by_cases hasDuty : light.HasDuty
            · obtain ⟨f, defined, blink⟩ := s.qpnp_blinks files blinks hasDuty
              refine iff_of_true ⟨f, defined, .inl blinks, iff_of_true ?_ blinks⟩ fun _ _ => hasDuty
              simp [LedFiles.Blinking, blink]
            · refine iff_of_false ?_ fun showable => hasDuty (showable trivial blinks)
              simp [s.qpnp_undefined files blinks hasDuty]
          · obtain ⟨f, defined, blink, red⟩ := s.qpnp_steady files blinks
            refine iff_of_true ⟨f, defined, .inr fun zero => ?_, iff_of_false ?_ blinks⟩
              fun _ h => absurd h blinks
            · exact Bool.false_ne_true ((red.mp zero).symm.trans (owner_isLit owner))
            · simp [LedFiles.Blinking, blink]
      | none =>
          by_cases blinks : s.g_notification.Blinks
          · refine iff_of_false ?_ (not_not_intro blinks)
            rintro ⟨f, defined, -, still⟩
            by_cases hasDuty : s.g_notification.HasDuty
            · obtain ⟨g, written, blink⟩ := s.qpnp_blinks files blinks hasDuty
              obtain rfl : f = g := Option.some.inj (defined.symm.trans written)
              exact still (by simp [LedFiles.Blinking, blink])
            · have undefined := s.qpnp_undefined files blinks hasDuty
              exact Option.some_ne_none f (defined.symm.trans undefined)
          · obtain ⟨f, defined, blink, red⟩ := s.qpnp_steady files blinks
            refine iff_of_true ⟨f, defined, ⟨red.mpr (notification_unlit owner), ?_⟩, ?_⟩ blinks
            · simp
            · simp [LedFiles.Blinking, blink]

/-- After every call of a sequence the LED files show the right light, exactly if each call
leaves lights that can be shown. -/
theorem led_shows_its_owner_iff (g_is_qpnp_device : Bool) (files : LedFiles) (calls : List Call) :
    EachStep step (fun _ _ t => t.Shows) (initial g_is_qpnp_device files) calls ↔
      Meets step (fun s call => (s.store call).Showable) (initial g_is_qpnp_device files)
        calls := by
  refine eachStep_iff_meets_of_enabled (I := fun s => s.files.isSome) (fun s call defined => ?_)
    rfl calls
  obtain ⟨before, now⟩ := Option.isSome_iff_exists.mp defined
  have taken : step s call = some { s.store call with
      files := (s.store call).handleSpeakerBatteryLocked before } := by
    rw [step, now, Option.map_some]
  have shown := shows_iff (s.store call) before rfl
  refine ⟨_, taken, shown, fun showable => ?_⟩
  obtain ⟨after, written, -⟩ := shown.mpr showable
  exact Option.isSome_iff_exists.mpr ⟨after, written⟩

def dark : LedFiles := ⟨0, 0, 0, 0, 0, 0, [], 0, 0⟩

/-- A notification without colour that flashes. -/
def colourless : LightState := ⟨0, LIGHT_FLASH_TIMED, 500, 500⟩

/-- A red light whose period is shorter than the number of duty steps. -/
def flickering : LightState := ⟨0xFFFF0000, LIGHT_FLASH_TIMED, 20, 20⟩

theorem led_shows_what_is_not_its_owner :
    (∃ t written, Run step (initial false dark) [.setLightNotifications colourless] t ∧
      t.owner = none ∧ t.files = some written ∧ written.redBlink = 1 ∧ ¬ t.Shows) ∧
    ∃ t, Run step (initial true dark) [.setLightNotifications flickering] t ∧
      t.owner = some flickering ∧ t.files = none ∧ ¬ t.Shows := by
  constructor
  · refine ⟨_, _, .cons rfl (.nil _), rfl, rfl, rfl, ?_⟩
    rintro ⟨_, ⟨⟩, -, still⟩
    exact still Int.one_ne_zero
  · refine ⟨_, .cons rfl (.nil _), rfl, rfl, ?_⟩
    rintro ⟨_, undefined, -⟩
    exact Option.some_ne_none _ undefined.symm

end Lights

end Msm8974.Liblight
