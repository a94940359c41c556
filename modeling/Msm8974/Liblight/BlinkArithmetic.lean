import Msm8974.Liblight.Arbitration

/-!
The arithmetic of the two blink functions on every period. Neither bounds its operands: on qpnp a
short period has no step and a long pulse more steps than the string has values; on shineled the
product by 255 overflows at one end, and the quotient is cut to zero at the other.
-/

namespace Msm8974.Liblight

section Duty

/-- The text that the three loops print of these numbers. -/
def dutyText (pcts : List Int) : List Char :=
  '0' :: pcts.flatMap (fun pct => ',' :: decimal pct) ++ ['\n']

/-- The call completes, and writes a duty string with no more values than there are steps, each a
percentage, that fits in its buffer with the terminator. -/
def WritesDuty (s : Lights) (light : LightState) (files : LedFiles) : Prop :=
  ∃ onSteps pcts written,
    quotient light.onMS.toInt ((light.onMS + light.offMS).toInt.tdiv QPNP_DUTY_STEPS) =
      some onSteps ∧
    dutyPcts onSteps = some pcts ∧
    s.setSpeakerLightLockedQpnp light files = some written ∧
    written.qpnpDuty = dutyText pcts ∧
    written.qpnpDuty.length + 1 ≤ 4 * (QPNP_DUTY_STEPS + 1) ∧
    pcts.length + 1 ≤ QPNP_DUTY_STEPS ∧
    ∀ pct ∈ pcts, 0 ≤ pct ∧ pct ≤ 100

/-- The periods of at least 50 ms with no pulse step, or with two to 49 of them. -/
def LightState.HasShortDuty (light : LightState) : Prop :=
  let on := light.flashOnMS.toInt
  let sum := on + light.flashOffMS.toInt
  50 ≤ sum ∧ (on < sum / 50 ∨ 2 * (sum / 50) ≤ on ∧ on < 50 * (sum / 50))

instance (light : LightState) : Decidable light.HasShortDuty :=
  inferInstanceAs (Decidable (_ ∧ _))

theorem length_percents (onSteps : Nat) :
    (percents onSteps).length = max onSteps (QPNP_DUTY_STEPS - 2) := by
  simp only [percents, List.length_append, List.length_map, List.length_range',
    List.length_replicate]
  omega

/-- Between two and 49 steps, or none, the numbers are percentages and there are 50 at most. -/
theorem dutyPcts_bounds {onSteps : Nat} (single : onSteps ≠ 1) :
    ∃ pcts, dutyPcts onSteps = some pcts ∧ (∀ pct ∈ pcts, 0 ≤ pct ∧ pct ≤ 100) ∧
      (pcts.length + 1 ≤ QPNP_DUTY_STEPS ↔ onSteps < QPNP_DUTY_STEPS) := by
  have fifty : QPNP_DUTY_STEPS = 50 := rfl
  by_cases none_on : onSteps = 0
  · subst none_on
    exact ⟨List.replicate 48 0, by decide, by simp, by simp [fifty]⟩
  · refine ⟨_, dutyPcts_eq (by omega), fun pct mem => ?_, ?_⟩
    · apply (List.mem_map.mp mem).elim
      intro n ⟨mem, eq⟩
      have := percents_le mem
      omega
    · rw [List.length_map, length_percents]
      omega

theorem dutystr_eq_some {onSteps : Int} {text : List Char} (h : dutystr onSteps = some text) :
    ∃ pcts, dutyPcts onSteps = some pcts ∧ text = dutyText pcts ∧
      text.length + 1 ≤ 4 * (QPNP_DUTY_STEPS + 1) := by
  unfold dutystr at h
  cases loops : dutyPcts onSteps with
  | none => simp [loops] at h
  | some pcts =>
      simp only [loops, Option.bind_eq_bind, Option.bind_some] at h
      split at h
      case isTrue fits =>
        rw [← Option.some.inj h]
        exact ⟨pcts, rfl, rfl, fits⟩
      case isFalse => cases h

/-- A blinking light writes the duty string of its number of steps. -/
theorem qpnp_eq {light : LightState} {onSteps : Int} (s : Lights) (files : LedFiles)
    (blinks : light.Blinks)
    (steps : quotient light.onMS.toInt
      ((light.onMS + light.offMS).toInt.tdiv QPNP_DUTY_STEPS) = some onSteps) :
    s.setSpeakerLightLockedQpnp light files = (dutystr onSteps).map fun text =>
      { files with
        red := 0
        qpnpDuty := text
        qpnpRampStep := (light.onMS + light.offMS).toInt.tdiv QPNP_DUTY_STEPS
        qpnpBlink := 1 } := by
  simp only [Lights.setSpeakerLightLockedQpnp, if_pos (light.blinks_iff.mp blinks), steps,
    Option.bind_eq_bind, Option.bind_some]
  cases dutystr onSteps <;> rfl

theorem writesDuty_iff_steps (onSteps : Nat) {light : LightState} (s : Lights) (files : LedFiles)
    (blinks : light.Blinks)
    (steps : quotient light.onMS.toInt
      ((light.onMS + light.offMS).toInt.tdiv QPNP_DUTY_STEPS) = some (onSteps : Int))
    (bound : onSteps < 99) :
    WritesDuty s light files ↔ onSteps ≠ 1 ∧ onSteps < QPNP_DUTY_STEPS := by
  have defined := dutystr_defined (show (onSteps : Int) < 99 by omega)
  have fifty : QPNP_DUTY_STEPS = 50 := rfl
  constructor
  · intro ⟨_, pcts, written, steps', loops, call, _, _, short, _⟩
    obtain rfl := Option.some.inj (steps.symm.trans steps')
    rw [qpnp_eq s files blinks steps, Option.map_eq_some_iff] at call
    apply call.elim
    intro text ⟨text_eq, _⟩
    have single : onSteps ≠ 1 := by
      have := (defined.mp (Option.isSome_of_mem text_eq)).1
      omega
    apply (dutyPcts_bounds single).elim
    intro pcts' ⟨loops', _, length⟩
    rw [Option.some.inj (loops'.symm.trans loops)] at length
    exact ⟨single, length.mp short⟩
  · intro ⟨single, short⟩
    apply (Option.isSome_iff_exists.mp (defined.mpr ⟨by omega, by omega⟩)).elim
    intro text text_eq
    apply (dutystr_eq_some text_eq).elim
    intro pcts ⟨loops, text_is, room⟩
    apply (dutyPcts_bounds single).elim
    intro pcts' ⟨loops', range, length⟩
    rw [Option.some.inj (loops'.symm.trans loops)] at length range
    have call := qpnp_eq s files blinks steps
    rw [text_eq, Option.map_some] at call
    exact ⟨onSteps, pcts, _, steps, loops, call, text_is, room, length.mpr short, range⟩

theorem duty_is_written_iff (s : Lights) (light : LightState) (files : LedFiles)
    (blinks : light.Blinks)
    (fits : light.flashOnMS.toInt + light.flashOffMS.toInt < 2 ^ 31) :
    WritesDuty s light files ↔ light.HasShortDuty := by
  have total := light.sum_toInt blinks
  rw [if_pos fits, Int.sub_zero] at total
  have on_eq : light.onMS.toInt = light.flashOnMS.toInt := congrArg BitVec.toInt (if_pos blinks.1)
  have on_pos := blinks.2.1
  have off_pos := blinks.2.2
  have fifty : (QPNP_DUTY_STEPS : Int) = 50 := rfl
  rw [LightState.HasShortDuty]
  have step_eq : (light.onMS + light.offMS).toInt.tdiv QPNP_DUTY_STEPS =
      (light.flashOnMS.toInt + light.flashOffMS.toInt) / 50 := by
    rw [total, fifty, Int.tdiv_eq_ediv_of_nonneg (by omega)]
  by_cases short : light.flashOnMS.toInt + light.flashOffMS.toInt < 50
  · have no_step : (light.flashOnMS.toInt + light.flashOffMS.toInt) / 50 = 0 := by omega
    refine iff_of_false (fun ⟨_, _, _, steps, _⟩ => ?_) (by omega)
    rw [step_eq, no_step] at steps
    cases steps
  · have steps_le := writesDuty_iff_steps (light.flashOnMS.toInt /
      ((light.flashOnMS.toInt + light.flashOffMS.toInt) / 50)).toNat s files blinks
    rw [step_eq, on_eq] at steps_le
    have positive : 0 < (light.flashOnMS.toInt + light.flashOffMS.toInt) / 50 := by omega
    have long : light.flashOnMS.toInt <
        99 * ((light.flashOnMS.toInt + light.flashOffMS.toInt) / 50) := by omega
    generalize (light.flashOnMS.toInt + light.flashOffMS.toInt) / 50 = step at *
    generalize light.flashOnMS.toInt = on at *
    have nonneg : 0 ≤ on / step := Int.ediv_nonneg (by omega) (by omega)
    have bound : on / step < 99 := Int.ediv_lt_of_lt_mul positive long
    have below_one : on / step < 1 ↔ on < 1 * step := Int.ediv_lt_iff_lt_mul positive
    have from_two : 2 ≤ on / step ↔ 2 * step ≤ on := Int.le_ediv_iff_mul_le positive
    have below : on / step < 50 ↔ on < 50 * step := Int.ediv_lt_iff_lt_mul positive
    have exact_steps : quotient on step = some ((on / step).toNat : Int) := by
      rw [quotient_eq (by omega), Int.tdiv_eq_ediv_of_nonneg (by omega),
        Int.toNat_of_nonneg nonneg]
    rw [steps_le exact_steps (by omega)]
    have fifty' : QPNP_DUTY_STEPS = 50 := rfl
    omega

/-- Half a second on and off: 25 steps. -/
theorem half_second_pulse_is_written :
    WritesDuty (Lights.initial true Lights.dark) ⟨0xFF0000, LIGHT_FLASH_TIMED, 500, 500⟩
      Lights.dark :=
  (duty_is_written_iff (Lights.initial true Lights.dark)
    ⟨0xFF0000, LIGHT_FLASH_TIMED, 500, 500⟩ Lights.dark (by decide) (by decide)).mpr (by decide)

/-- A period of two milliseconds has no step to divide by. -/
theorem short_period_divides_by_zero :
    ¬∀ (s : Lights) (light : LightState) (files : LedFiles), light.Blinks →
      light.flashOnMS.toInt + light.flashOffMS.toInt < 2 ^ 31 → WritesDuty s light files := by
  intro h
  apply (h (Lights.initial true Lights.dark) ⟨0xFF0000, LIGHT_FLASH_TIMED, 1, 1⟩ Lights.dark
    (by decide) (by decide)).elim
  intro onSteps ⟨_, _, steps, _⟩
  exact Option.some_ne_none onSteps (steps.symm.trans (by decide))

end Duty

section Pwm

def InIntRange (x : Int) : Prop := -2 ^ 31 ≤ x ∧ x < 2 ^ 31

/-- The sum, the product and the quotients are ints, and the pwm that is written is one of a
blinking light. -/
structure WritesPwm (light : LightState) (files : LedFiles) : Prop where
  sum : InIntRange (light.flashOnMS.toInt + light.flashOffMS.toInt)
  product : InIntRange (light.flashOnMS.toInt * 255)
  freq : InIntRange ((light.flashOnMS.toInt + light.flashOffMS.toInt).tdiv 50)
  ratio : InIntRange
    ((light.flashOnMS.toInt * 255).tdiv (light.flashOnMS.toInt + light.flashOffMS.toInt))
  least : 16 ≤ (setSpeakerLightLockedShineled light files).redPwm
  most : (setSpeakerLightLockedShineled light files).redPwm ≤ 255

theorem product_toInt {light : LightState} (timed : light.flashMode = LIGHT_FLASH_TIMED)
    (range : InIntRange (light.flashOnMS.toInt * 255)) :
    (light.onMS * 255).toInt = light.flashOnMS.toInt * 255 := by
  have byte : (255 : BitVec 32).toInt = 255 := by decide
  unfold InIntRange at range
  rw [LightState.onMS, if_pos timed, BitVec.toInt_mul, byte]
  exact Int.bmod_eq_of_le_mul_two (by omega) (by omega)

theorem redPwm_eq {light : LightState} (files : LedFiles) (blinks : light.Blinks)
    (sum : InIntRange (light.flashOnMS.toInt + light.flashOffMS.toInt))
    (product : InIntRange (light.flashOnMS.toInt * 255)) :
    (setSpeakerLightLockedShineled light files).redPwm =
      let pwm := light.flashOnMS.toInt * 255 / (light.flashOnMS.toInt + light.flashOffMS.toInt)
      if 0 < pwm ∧ pwm < 16 then 16 else pwm := by
  have total := light.sum_toInt blinks
  rw [if_pos sum.2, Int.sub_zero] at total
  have on_pos := blinks.2.1
  rw [setSpeakerLightLockedShineled, if_pos (light.blinks_iff.mp blinks)]
  simp only [total, product_toInt blinks.1 product]
  rw [Int.tdiv_eq_ediv_of_nonneg (by omega)]

/-- The light is on for at most 8421504 ms, and off for at most 254 times as long. -/
theorem pwm_is_written_iff (light : LightState) (files : LedFiles) (blinks : light.Blinks) :
    WritesPwm light files ↔ light.flashOnMS.toInt ≤ 8421504 ∧
      light.flashOffMS.toInt ≤ 254 * light.flashOnMS.toInt := by
  have on_pos := blinks.2.1
  have off_pos := blinks.2.2
  have nonzero : light.flashOnMS.toInt * 255 /
      (light.flashOnMS.toInt + light.flashOffMS.toInt) < 1 ↔
        light.flashOnMS.toInt * 255 < 1 * (light.flashOnMS.toInt + light.flashOffMS.toInt) :=
    Int.ediv_lt_iff_lt_mul (by omega)
  have below : light.flashOnMS.toInt * 255 /
      (light.flashOnMS.toInt + light.flashOffMS.toInt) < 255 :=
    Int.ediv_lt_of_lt_mul (by omega) (by omega)
  constructor
  · intro writes
    have product := writes.product
    have least := writes.least
    rw [redPwm_eq files blinks writes.sum product] at least
    unfold InIntRange at product
    refine ⟨by omega, ?_⟩
    simp only at least
    split at least <;> omega
  · intro ⟨on_le, off_le⟩
    have sum : InIntRange (light.flashOnMS.toInt + light.flashOffMS.toInt) := by
      unfold InIntRange
      omega
    have product : InIntRange (light.flashOnMS.toInt * 255) := by
      unfold InIntRange
      omega
    have written := redPwm_eq files blinks sum product
    refine ⟨sum, product, ?_, ?_, ?_, ?_⟩
    · rw [Int.tdiv_eq_ediv_of_nonneg (by omega)]
      unfold InIntRange at *
      omega
    · rw [Int.tdiv_eq_ediv_of_nonneg (by omega)]
      unfold InIntRange at *
      omega
    · rw [written]
      simp only
      split <;> omega
    · rw [written]
      simp only
      split <;> omega

theorem even_blink_is_written :
    WritesPwm ⟨0xFF0000, LIGHT_FLASH_TIMED, 500, 500⟩ Lights.dark :=
  (pwm_is_written_iff ⟨0xFF0000, LIGHT_FLASH_TIMED, 500, 500⟩ Lights.dark (by decide)).mpr
    (by decide)

/-- One millisecond in 256 is written as always off. -/
theorem short_flash_is_always_off :
    ¬∀ (light : LightState) (files : LedFiles), light.Blinks → WritesPwm light files := by
  intro h
  have writes := h ⟨0xFF0000, LIGHT_FLASH_TIMED, 1, 255⟩ Lights.dark (by decide)
  exact absurd writes.least (by decide)

end Pwm

end Msm8974.Liblight
