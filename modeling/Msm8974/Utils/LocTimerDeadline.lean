import Mathlib.Algebra.Order.Ring.Int
import Mathlib.Data.Nat.Init
import Msm8974.Utils.LocTimer

/-!
The deadline that LocTimer::start computes, in the words of the machine: time_t and long have
`w` bits, the delay is an unsigned int. loc_timer_start takes 64 bits and hands on 32 of them.
-/

namespace Msm8974.Timer

/-- `struct timespec` with fields of `w` bits. -/
@[ext] structure KernelTimespec (w : Nat) where
  tv_sec : BitVec w
  tv_nsec : BitVec w
  deriving DecidableEq, Repr

namespace KernelTimespec
variable {w : Nat}

/-- What the signed fields say. -/
def timespec (t : KernelTimespec w) : Timespec := ⟨t.tv_sec.toInt, t.tv_nsec.toInt⟩

/-- `LocTimer::start`, from the time that clock_gettime gives to mFutureTime. -/
def futureTime (timeOutInMs : BitVec 32) (now : KernelTimespec w) : KernelTimespec w :=
  let tv_sec := now.tv_sec + (timeOutInMs / 1000#32).setWidth w
  let tv_nsec := now.tv_nsec + (timeOutInMs % 1000#32 * 1000000#32).setWidth w
  if (1000000000#w).sle tv_nsec then
    ⟨tv_sec + tv_nsec.sdiv 1000000000#w, tv_nsec.srem 1000000000#w⟩
  else ⟨tv_sec, tv_nsec⟩

/-- `loc_timer_start`, which passes its 64 bits for the unsigned int of `LocTimer::start`. -/
def loc_timer_start (msec : BitVec 64) (now : KernelTimespec w) : KernelTimespec w :=
  now.futureTime (msec.setWidth 32)

end KernelTimespec

namespace Timespec

/-- Nanoseconds since the epoch of the clock. -/
def nanoseconds (t : Timespec) : Int := t.tv_sec * 1000000000 + t.tv_nsec

def Normal (t : Timespec) : Prop := 0 ≤ t.tv_nsec ∧ t.tv_nsec < 1000000000

instance (t : Timespec) : Decidable t.Normal := inferInstanceAs (Decidable (_ ∧ _))

/-- `t` is `ms` milliseconds after `now`. -/
def Denotes (t now : Timespec) (ms : Int) : Prop :=
  t.nanoseconds = now.nanoseconds + ms * 1000000 ∧ t.Normal

theorem after_denotes {now : Timespec} (normal : now.Normal) (timeOutInMs : BitVec 32) :
    (now.after timeOutInMs).Denotes now timeOutInMs.toNat := by
  obtain ⟨least, most⟩ := normal
  simp only [after]
  split <;> simp only [Denotes, nanoseconds, Normal] <;> omega

/-- Only one delay leads from a time to a deadline. -/
theorem Denotes.delay_unique {t now : Timespec} {ms other : Int} (h : t.Denotes now ms)
    (h' : t.Denotes now other) : ms = other := by
  have same := h.1.symm.trans h'.1
  omega

end Timespec

namespace KernelTimespec
variable {w : Nat}

theorem two_pow_pred (wide : 32 ≤ w) :
    (2 : Int) ^ w = 2 * 2 ^ (w - 1) ∧ (2147483648 : Int) ≤ 2 ^ (w - 1) := by
  have grows : 2 ^ 31 ≤ 2 ^ (w - 1) := Nat.pow_le_pow_right (by decide) (by omega)
  refine ⟨?_, by exact_mod_cast grows⟩
  rw [← pow_succ', Nat.sub_add_cancel (by omega)]

/-- A value below 2^31 is not negative in any width that the fields may have. -/
theorem toInt_of_small (wide : 32 ≤ w) {x : BitVec w} (small : x.toNat < 2147483648) :
    x.toInt = x.toNat := by
  apply BitVec.toInt_eq_toNat_of_lt
  have grows : 2 ^ 32 ≤ 2 ^ w := Nat.pow_le_pow_right (by decide) wide
  omega

theorem toInt_add_of_fits (wide : 32 ≤ w) {x y : BitVec w} (more : 0 ≤ y.toInt)
    (fits : x.toInt + y.toInt < 2 ^ (w - 1)) : (x + y).toInt = x.toInt + y.toInt := by
  have := two_pow_pred wide
  have least := BitVec.le_two_mul_toInt (x := x)
  rw [BitVec.toInt_add]
  apply Int.bmod_eq_of_le_mul_two
  · push_cast
    omega
  · push_cast
    omega

theorem billion_toInt (wide : 32 ≤ w) : (1000000000#w).toInt = 1000000000 := by
  have grows : 2 ^ 32 ≤ 2 ^ w := Nat.pow_le_pow_right (by decide) wide
  have value : (1000000000#w).toNat = 1000000000 := Nat.mod_eq_of_lt (by omega)
  rw [toInt_of_small wide (by omega), value]
  rfl

theorem seconds_toInt (wide : 32 ≤ w) (ms : BitVec 32) :
    ((ms / 1000#32).setWidth w).toInt = ms.toNat / 1000 := by
  have grows : 2 ^ 32 ≤ 2 ^ w := Nat.pow_le_pow_right (by decide) wide
  have bound := ms.isLt
  have value : ((ms / 1000#32).setWidth w).toNat = ms.toNat / 1000 := by
    have quotient : (ms / 1000#32).toNat = ms.toNat / 1000 := BitVec.toNat_udiv
    rw [BitVec.toNat_setWidth, quotient]
    exact Nat.mod_eq_of_lt (by omega)
  rw [toInt_of_small wide (by omega), value]
  rfl

theorem remainder_toInt (wide : 32 ≤ w) (ms : BitVec 32) :
    ((ms % 1000#32 * 1000000#32).setWidth w).toInt = ms.toNat % 1000 * 1000000 := by
  have grows : 2 ^ 32 ≤ 2 ^ w := Nat.pow_le_pow_right (by decide) wide
  have value : ((ms % 1000#32 * 1000000#32).setWidth w).toNat = ms.toNat % 1000 * 1000000 := by
    have product : (ms % 1000#32 * 1000000#32).toNat = ms.toNat % 1000 * 1000000 := by
      have below : (ms % 1000#32).toNat = ms.toNat % 1000 := BitVec.toNat_umod
      have million : (1000000#32).toNat = 1000000 := rfl
      rw [BitVec.toNat_mul, below, million]
      exact Nat.mod_eq_of_lt (by omega)
    rw [BitVec.toNat_setWidth, product]
    exact Nat.mod_eq_of_lt (by omega)
  rw [toInt_of_small wide (by omega), value]
  push_cast
  rfl

theorem sdiv_billion_toInt (wide : 32 ≤ w) {x : BitVec w} (more : 0 ≤ x.toInt) :
    (x.sdiv 1000000000#w).toInt = x.toInt / 1000000000 := by
  have most := BitVec.two_mul_toInt_lt (x := x)
  rw [BitVec.toInt_sdiv, billion_toInt wide, Int.tdiv_eq_ediv_of_nonneg more]
  apply Int.bmod_eq_of_le_mul_two
  · push_cast
    omega
  · push_cast
    omega

theorem srem_billion_toInt (wide : 32 ≤ w) {x : BitVec w} (more : 0 ≤ x.toInt) :
    (x.srem 1000000000#w).toInt = x.toInt % 1000000000 := by
  rw [BitVec.toInt_srem, billion_toInt wide, Int.tmod_eq_emod_of_nonneg more]

/-- Where the seconds do not overflow, the machine computes the deadline over the integers. -/
theorem futureTime_timespec (wide : 32 ≤ w) {now : KernelTimespec w}
    (normal : now.timespec.Normal) (ms : BitVec 32)
    (fits : now.tv_sec.toInt + ms.toNat / 1000 + 1 < 2 ^ (w - 1)) :
    (now.futureTime ms).timespec = now.timespec.after ms := by
  obtain ⟨least, most⟩ := normal
  simp only [timespec] at least most
  have room := (two_pow_pred wide).2
  have sec : (now.tv_sec + (ms / 1000#32).setWidth w).toInt =
      now.tv_sec.toInt + ms.toNat / 1000 := by
    rw [← seconds_toInt wide]
    apply toInt_add_of_fits wide
    · rw [seconds_toInt wide]; omega
    · rw [seconds_toInt wide]; omega
  have nsec : (now.tv_nsec + (ms % 1000#32 * 1000000#32).setWidth w).toInt =
      now.tv_nsec.toInt + ms.toNat % 1000 * 1000000 := by
    rw [← remainder_toInt wide]
    apply toInt_add_of_fits wide
    · rw [remainder_toInt wide]; omega
    · rw [remainder_toInt wide]; omega
  simp only [futureTime]
  generalize now.tv_sec + (ms / 1000#32).setWidth w = tv_sec at sec
  generalize now.tv_nsec + (ms % 1000#32 * 1000000#32).setWidth w = tv_nsec at nsec
  have guard : (1000000000#w).sle tv_nsec = true ↔ tv_nsec.toInt ≥ 1000000000 := by
    rw [BitVec.sle_iff_toInt_le, billion_toInt wide]
  have quotient := sdiv_billion_toInt wide (x := tv_nsec) (by omega)
  have carried : tv_nsec.toInt ≥ 1000000000 → (tv_sec + tv_nsec.sdiv 1000000000#w).toInt =
      tv_sec.toInt + tv_nsec.toInt / 1000000000 := by
    intro _
    rw [← quotient]
    apply toInt_add_of_fits wide
    · rw [quotient]; omega
    · rw [quotient]; omega
  simp only [Timespec.after, guard, timespec, ← sec, ← nsec]
  by_cases carry : tv_nsec.toInt ≥ 1000000000
  · rw [if_pos carry, if_pos carry, carried carry,
      srem_billion_toInt wide (x := tv_nsec) (by omega)]
  · rw [if_neg carry, if_neg carry]

/-- A timer that loc_timer_start starts is set for exactly the delay that was asked for, and for
a time in normal form, if and only if the delay fits an unsigned int. -/
theorem deadline_is_exact_iff (wide : 32 ≤ w) (msec : BitVec 64) (now : KernelTimespec w)
    (normal : now.timespec.Normal)
    (fits : now.tv_sec.toInt + msec.toNat / 1000 + 1 < 2 ^ (w - 1)) :
    (now.loc_timer_start msec).timespec.Denotes now.timespec msec.toNat ↔
      msec.toNat < 4294967296 := by
  have kept : (msec.setWidth 32).toNat = msec.toNat % 4294967296 := BitVec.toNat_setWidth 32 msec
  have deadline : (now.loc_timer_start msec).timespec.Denotes now.timespec
      (msec.setWidth 32).toNat := by
    rw [loc_timer_start, futureTime_timespec wide normal _ (by omega)]
    exact Timespec.after_denotes normal _
  constructor
  · intro exact_delay
    have same := deadline.delay_unique exact_delay
    omega
  · intro small
    have same : (msec.setWidth 32).toNat = msec.toNat := by omega
    rwa [same] at deadline

/-- A delay of fifty minutes from one millisecond before the next second. -/
theorem fifty_minutes_are_exact :
    ((⟨100#32, 999000000#32⟩ : KernelTimespec 32).loc_timer_start 3000000#64).timespec.Denotes
      ⟨100, 999000000⟩ 3000000 :=
  (deadline_is_exact_iff (le_refl 32) 3000000#64 ⟨100#32, 999000000#32⟩ (by decide)
    (by decide)).mpr (by decide)

/-- A delay of 2^32 ms ends at once. -/
theorem fifty_days_are_no_time :
    ((⟨100#32, 0#32⟩ : KernelTimespec 32).loc_timer_start 4294967296#64).timespec = ⟨100, 0⟩ ∧
      ¬ ((⟨100#32, 0#32⟩ : KernelTimespec 32).loc_timer_start 4294967296#64).timespec.Denotes
        ⟨100, 0⟩ 4294967296 := by
  refine ⟨by decide, fun exact_delay => absurd exact_delay.1 (by decide)⟩

end KernelTimespec
end Msm8974.Timer
