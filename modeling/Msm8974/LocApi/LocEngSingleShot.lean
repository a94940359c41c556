import Msm8974.Library.Monitors
import Msm8974.LocApi.LocEngEffects
import Msm8974.LocApi.LocEngMute

/-!
How many locations a single shot delivers. The report that delivers one ends the session, but
what decides on a delivery does not look at the session, so the reports behind it are
delivered as well.
-/

namespace Msm8974.LocEng
open Msm8974.Runs Msm8974.Traces LocEngData

variable {P : Payloads}

/-- The steps in which the position mode is a single shot. -/
def singleShotStep (g : NmeaGenerator P) (s : LocEngData P) : LocEngMsg P → Option (LocEngData P)
  | .setPositionMode (some posMode) =>
      if posMode.recurrence = GPS_POSITION_RECURRENCE_SINGLE then
        step g s (.setPositionMode (some posMode))
      else none
  | msg => step g s msg

/-- How many locations were delivered since the last LocEngStartFix, if there was one. -/
def noteLocations (s : LocEngData P) (msg : LocEngMsg P) (t : LocEngData P)
    (delivered : Option Nat) : Option Nat :=
  match msg with
  | .startFix _ => some 0
  | _ => delivered.map (· + (newEvents s.locations t.locations).length)

def AtMostOne (p : LocEngData P × Option Nat) : Prop := ∀ n, p.2 = some n → n ≤ 1

/-- A report that is let through while the session is off is the first one since the start. -/
def FirstIfOff (p : LocEngData P × Option Nat) : LocEngMsg P → Prop
  | .reportPosition r =>
      r.LetThrough p.1 → p.1.mNavigating = false → ∀ n, p.2 = some n → n = 0
  | _ => True

/-- A single shot that has delivered is over. -/
structure OverOnceDelivered (p : LocEngData P × Option Nat) : Prop where
  single : p.1.mFixCriteria.recurrence = GPS_POSITION_RECURRENCE_SINGLE
  ended : ∀ n, p.2 = some (n + 1) → p.1.mNavigating = false

/-- No location is delivered, and the session is at most ended. -/
structure SessionKept (s t : LocEngData P) : Prop where
  locations : t.locations = s.locations
  recurrence : t.mFixCriteria.recurrence = s.mFixCriteria.recurrence
  session : t.mNavigating = true → s.mNavigating = true

namespace SessionKept
variable {s t u : LocEngData P}

theorem trans (h : SessionKept s t) (h' : SessionKept t u) : SessionKept s u :=
  ⟨h'.locations.trans h.locations, h'.recurrence.trans h.recurrence, h.session ∘ h'.session⟩

theorem of_quiet (quiet : Quiet s t) : SessionKept s t :=
  ⟨quiet.locations, quiet.recurrence, quiet.session⟩

theorem record (s : LocEngData P) {c : Call P} (other : c.location = none) :
    SessionKept s (s.record c) := by
  refine ⟨?_, rfl, id⟩
  rw [locations_record, other]
  exact List.append_nil _

theorem updateAidingDataForDeletion (s : LocEngData P) :
    SessionKept s s.updateAidingDataForDeletion := by
  obtain ⟨-, -, flush⟩ | ⟨-, same⟩ := s.updateAidingDataForDeletion_cases
  · have deleted := record s (c := .deleteAidingData s.aiding_data_for_deletion) rfl
    rw [flush]
    exact ⟨deleted.locations, rfl, id⟩
  · rw [same]
    exact ⟨rfl, rfl, id⟩

theorem reportStatus (status : GpsStatusValue) (s : LocEngData P) :
    SessionKept s (s.reportStatus status) := by
  have quiet := of_quiet (reportStatus_quiet status s)
  exact ⟨quiet.locations, quiet.recurrence, quiet.session⟩

end SessionKept

/-- The message neither starts a fix nor delivers a location. -/
def DeliversNothing (s : LocEngData P) : LocEngMsg P → Prop
  | .startFix _ => False
  | .reportPosition r => ¬ r.LetThrough s
  | _ => True

/-- A report that is let through delivers one location and, in a single shot, ends the
session. -/
theorem reportPosition_delivers (g : NmeaGenerator P) (r : LocEngReportPosition P)
    {s : LocEngData P} (through : r.LetThrough s)
    (single : s.mFixCriteria.recurrence = GPS_POSITION_RECURRENCE_SINGLE) :
    (r.proc g s).locations = s.locations ++ [r.mLocation] ∧
      (r.proc g s).mFixCriteria.recurrence = GPS_POSITION_RECURRENCE_SINGLE ∧
      (r.proc g s).mNavigating = false := by
  have quiet := r.proc_quiet_of_letThrough g through
  refine ⟨?_, quiet.recurrence.trans single, ?_⟩
  · rw [quiet.locations, locations_record]
    rfl
  · rw [r.proc_of_letThrough g through]
    cases navigating : (r.sendNmea g true (r.finishSingleShot true
        (s.record (.locationCb (some r.mLocation) r.mLocationExt)))).mNavigating with
    | false => rfl
    | true =>
        have before := ((Quiet.refl _).sendNmea g r true).session navigating
        rw [LocEngReportPosition.finishSingleShot, if_pos ⟨rfl, single⟩] at before
        cases before

theorem noteLocations_of_kept {s t : LocEngData P} (kept : SessionKept s t) {msg : LocEngMsg P}
    (nothing : DeliversNothing s msg) (delivered : Option Nat) :
    noteLocations s msg t delivered = delivered := by
  have none : newEvents s.locations t.locations = [] := by
    rw [kept.locations, newEvents, List.drop_length]
  cases msg with
  | startFix ret => exact nothing.elim
  | _ => simp [noteLocations, none]

theorem OverOnceDelivered.of_kept {s t : LocEngData P} {delivered : Option Nat}
    (h : OverOnceDelivered (s, delivered)) (kept : SessionKept s t) :
    OverOnceDelivered (t, delivered) where
  single := kept.recurrence.trans h.single
  ended n noted := by
    cases navigating : t.mNavigating with
    | false => rfl
    | true => exact absurd (kept.session navigating) (by rw [h.ended n noted]; decide)

/-- A step of a single shot starts a fix, delivers a location, or does neither. -/
theorem singleShotStep_cases (g : NmeaGenerator P) {s t : LocEngData P} {msg : LocEngMsg P}
    (single : s.mFixCriteria.recurrence = GPS_POSITION_RECURRENCE_SINGLE)
    (taken : singleShotStep g s msg = some t) :
    (∃ ret, msg = .startFix ret ∧ t.mFixCriteria.recurrence = s.mFixCriteria.recurrence) ∨
    (∃ r, msg = .reportPosition r ∧ r.LetThrough s ∧ t = r.proc g s) ∨
    (DeliversNothing s msg ∧ SessionKept s t) := by
  cases msg with
  | startFix ret =>
      obtain rfl := Option.some.inj taken
      refine .inl ⟨ret, rfl, ?_⟩
      obtain ⟨-, same⟩ | ⟨-, tried | started⟩ := startHandler_cases ret s
      · exact congrArg (·.mFixCriteria.recurrence) same
      · exact congrArg (·.mFixCriteria.recurrence) tried
      · exact congrArg (·.mFixCriteria.recurrence) started
  | reportPosition r =>
      obtain rfl := Option.some.inj taken
      by_cases through : r.LetThrough s
      · exact .inr (.inl ⟨r, rfl, through, rfl⟩)
      · exact .inr (.inr ⟨through, .of_quiet (r.proc_quiet_of_not_letThrough g through)⟩)
  | setPositionMode posMode =>
      refine .inr (.inr ⟨trivial, ?_⟩)
      have moded := SessionKept.record { s with mFixCriteria := posMode.getD s.mFixCriteria }
        (c := .setPositionMode (posMode.getD s.mFixCriteria)) rfl
      cases posMode with
      | none =>
          obtain rfl := Option.some.inj taken
          exact ⟨moded.locations, rfl, id⟩
      | some posMode =>
          simp only [singleShotStep, Option.ite_none_right_eq_some] at taken
          obtain rfl := Option.some.inj taken.2
          exact ⟨moded.locations, taken.1.trans single.symm, id⟩
  | reportStatus mStatus =>
      obtain rfl := Option.some.inj taken
      have reported := SessionKept.reportStatus mStatus s
      exact .inr (.inr ⟨trivial, reported.trans (.updateAidingDataForDeletion _)⟩)
  | engineDown =>
      obtain rfl := Option.some.inj taken
      exact .inr (.inr ⟨trivial, .reportStatus GPS_STATUS_ENGINE_OFF s⟩)
  | delAidData mType =>
      obtain rfl := Option.some.inj taken
      have asked : SessionKept s { s with aiding_data_for_deletion := mType } := ⟨rfl, rfl, id⟩
      exact .inr (.inr ⟨trivial, asked.trans (.updateAidingDataForDeletion _)⟩)
  | muteOneSession | reportSv | reportGpsMeasurement | reportNmea | stopFix | gpsMeasurementInit
  | gpsMeasurementClose | engineUp =>
      obtain rfl := Option.some.inj taken
      exact .inr (.inr ⟨trivial, .of_quiet (quiet_of_not_major g s id)⟩)

theorem noteLocations_of_letThrough (g : NmeaGenerator P) (r : LocEngReportPosition P)
    {s : LocEngData P} (through : r.LetThrough s)
    (single : s.mFixCriteria.recurrence = GPS_POSITION_RECURRENCE_SINGLE)
    (delivered : Option Nat) :
    noteLocations s (.reportPosition r) (r.proc g s) delivered = delivered.map (· + 1) := by
  have one := newEvents_concat s.locations r.mLocation
  rw [← (reportPosition_delivers g r through single).1] at one
  simp only [noteLocations, one, List.length_singleton]

theorem OverOnceDelivered.step (g : NmeaGenerator P) {s t : LocEngData P}
    {delivered : Option Nat} (h : OverOnceDelivered (s, delivered)) {msg : LocEngMsg P}
    (taken : singleShotStep g s msg = some t) :
    OverOnceDelivered (t, noteLocations s msg t delivered) := by
  obtain ⟨ret, rfl, same⟩ | ⟨r, rfl, through, rfl⟩ | ⟨nothing, kept⟩ :=
    singleShotStep_cases g h.single taken
  · exact ⟨same.trans h.single, fun n noted => by cases noted⟩
  · obtain ⟨-, single, ended⟩ := reportPosition_delivers g r through h.single
    exact ⟨single, fun _ _ => ended⟩
  · rw [noteLocations_of_kept kept nothing]
    exact h.of_kept kept

/-- A step keeps the deliveries at one exactly if it does not deliver a second one. -/
theorem atMostOne_step_iff (g : NmeaGenerator P) {s t : LocEngData P} {delivered : Option Nat}
    (h : OverOnceDelivered (s, delivered)) (holds : AtMostOne (s, delivered))
    {msg : LocEngMsg P} (taken : singleShotStep g s msg = some t) :
    AtMostOne (t, noteLocations s msg t delivered) ↔ FirstIfOff (s, delivered) msg := by
  obtain ⟨ret, rfl, -⟩ | ⟨r, rfl, through, rfl⟩ | ⟨nothing, kept⟩ :=
    singleShotStep_cases g h.single taken
  · refine iff_of_true (fun n noted => ?_) trivial
    obtain rfl : 0 = n := Option.some.inj noted
    exact Nat.zero_le 1
  · rw [noteLocations_of_letThrough g r through h.single]
    cases delivered with
    | none => exact iff_of_true (fun n noted => by cases noted) fun _ _ n noted => by cases noted
    | some n =>
        constructor
        · intro most _ _ k noted
          obtain rfl : n = k := Option.some.inj noted
          have bound : n + 1 ≤ 1 := most (n + 1) rfl
          omega
        · intro first k noted
          obtain rfl : n + 1 = k := Option.some.inj noted
          cases n with
          | zero => exact Nat.le_refl 1
          | succ n =>
              have zero : n + 1 = 0 := first through (h.ended n rfl) (n + 1) rfl
              omega
  · rw [noteLocations_of_kept kept nothing]
    refine iff_of_true holds ?_
    cases msg with
    | reportPosition r => exact fun through => absurd through nothing
    | _ => trivial

/-- Of the runs in which the position mode is a single shot, after loc_eng_init or not, those
deliver at most one location between a start and the next, and only those, in which every report
that is let through while the session is off is the first one since the start. -/
theorem single_shot_delivers_once_iff (g : NmeaGenerator P) {s : LocEngData P}
    (single : s.mFixCriteria.recurrence = GPS_POSITION_RECURRENCE_SINGLE)
    {msgs : List (LocEngMsg P)} {q : LocEngData P × Option Nat}
    (run : Run (monitored (singleShotStep g) noteLocations) (s, none) msgs q) :
    Throughout (monitored (singleShotStep g) noteLocations) AtMostOne (s, none) msgs ↔
      Meets (monitored (singleShotStep g) noteLocations) FirstIfOff (s, none) msgs := by
  refine run.throughout_iff_meets (I := OverOnceDelivered) (fun p msg q h holds taken => ?_)
    (fun p msg q h taken => ?_) ⟨single, fun n noted => by cases noted⟩
    fun n noted => by cases noted
  · obtain ⟨stepped, noted⟩ := monitored_iff.mp taken
    have exactly_first := atMostOne_step_iff g h holds stepped
    rwa [← noted] at exactly_first
  · obtain ⟨stepped, noted⟩ := monitored_iff.mp taken
    have later := h.step g stepped
    rwa [← noted] at later

section Runs

/-- A satellite fix. -/
def satelliteFix : LocEngReportPosition plain where
  mLocation := ⟨⟨0, 0, 0, 0, 0, 0, 0, 0⟩, 0⟩
  mLocationExtended := ()
  mLocationExt := none
  mStatus := .success
  mTechMask := LOC_POS_TECH_MASK_SATELLITE

def singleShot : LocEngData plain :=
  { start with
    mFixCriteria := { start.mFixCriteria with recurrence := GPS_POSITION_RECURRENCE_SINGLE } }

theorem single_shot_delivers_its_fix :
    Throughout (monitored (singleShotStep silentGenerator) noteLocations) AtMostOne
      (singleShot, none) [.startFix 0, .reportPosition satelliteFix] := by
  refine (single_shot_delivers_once_iff silentGenerator rfl
    (.cons rfl (.cons rfl (.nil _)))).mpr ?_
  refine (meets_cons rfl).mpr ⟨trivial, ?_⟩
  exact (meets_cons rfl).mpr ⟨fun _ off => (by cases off), trivial⟩

/-- A second fix that was queued behind the one that ended the session. -/
theorem single_shot_delivers_twice :
    IsInit singleShot ∧
      ¬ Throughout (monitored (singleShotStep silentGenerator) noteLocations) AtMostOne
        (singleShot, none)
        [.startFix 0, .reportPosition satelliteFix, .reportPosition satelliteFix] := by
  refine ⟨⟨rfl, rfl, rfl, rfl, rfl, rfl, rfl⟩, fun all => ?_⟩
  have most := all [_, _, _] [] _ rfl (.cons rfl (.cons rfl (.cons rfl (.nil _)))) 2 rfl
  exact absurd most (by decide)

end Runs

end Msm8974.LocEng
