import Msm8974.LocApi.LocEng

/-!
Which steps respect a muted session. Each operation of loc_eng either keeps the mute
state and makes no private call while muted, or is one of the few exceptions named in
`Respects`; the operations are followed through their helpers by `Discreet`.
-/

namespace Msm8974.LocEng
open Msm8974.Runs Msm8974.Traces

variable {P : Payloads}

/-- A call that carries a location, satellites, measurements or NMEA to the framework. -/
def Call.IsPrivate : Call P → Prop
  | .locationCb _ _ | .svStatusCb _ _ | .gpsMeasurementCb _ | .nmeaCb _ => True
  | _ => False

/-- The call is not a private one made in a muted session. -/
def LoggedCall.Allowed (c : LoggedCall P) : Prop := c.call.IsPrivate → c.mute ≠ .inSession

/-- The message that may end a muted session. An engine that goes down is reported as
GPS_STATUS_ENGINE_OFF. -/
def LocEngMsg.EndsSession : LocEngMsg P → Prop
  | .reportStatus mStatus => mStatus = GPS_STATUS_SESSION_END ∨ mStatus = GPS_STATUS_ENGINE_OFF
  | .engineDown => True
  | _ => False

/-- One step keeps a muted session private: none of the calls it makes is a private one
made while muted, and it leaves the muted session only at its end. -/
structure KeepsPrivate (s : LocEngData P) (msg : LocEngMsg P) (t : LocEngData P) : Prop where
  calls : ∀ c ∈ newEvents s.log t.log, c.Allowed
  leaves : s.mute_session_state = .inSession → t.mute_session_state ≠ .inSession →
    msg.EndsSession

/-- The messages that a muted session withstands. -/
def Respects (s : LocEngData P) (msg : LocEngMsg P) : Prop :=
  s.mute_session_state = .inSession →
    match msg with
    | .muteOneSession => False
    | .reportNmea _ => s.nmea_cb = false
    | _ => True

/-- From `s` to `t` only allowed calls were made, and the mute state is the same. -/
structure Discreet (s t : LocEngData P) : Prop where
  calls : Extends LoggedCall.Allowed s.log t.log
  mute : t.mute_session_state = s.mute_session_state

namespace Discreet
open LocEngData
variable {s t : LocEngData P}

theorem refl (s : LocEngData P) : Discreet s s := ⟨.refl _ _, rfl⟩

theorem keepsPrivate {msg : LocEngMsg P} (h : Discreet s t) : KeepsPrivate s msg t := by
  constructor
  · intro c hc
    exact h.calls.of_mem_newEvents hc
  · intro muted left
    exact absurd (h.mute.trans muted) left

theorem record (h : Discreet s t) {c : Call P}
    (hc : c.IsPrivate → t.mute_session_state ≠ .inSession) : Discreet s (t.record c) :=
  ⟨h.calls.concat hc, h.mute⟩

theorem setInSession (h : Discreet s t) (b : Bool) : Discreet s (t.setInSession b) := by
  have kept : Discreet s { t with mNavigating := b } := ⟨h.calls, h.mute⟩
  have called := kept.record (c := .setInSession b) False.elim
  cases b with
  | true => exact called
  | false => exact ⟨called.calls, called.mute⟩

theorem setPositionMode (h : Discreet s t) (posMode : Option LocPosMode) :
    Discreet s (t.setPositionMode posMode) := by
  have kept : Discreet s { t with mFixCriteria := posMode.getD t.mFixCriteria } :=
    ⟨h.calls, h.mute⟩
  exact kept.record False.elim

theorem startHandler (h : Discreet s t) (ret : Int) : Discreet s (t.startHandler ret) := by
  have asked : Discreet s (t.record (.startFix t.mFixCriteria ret)) := h.record False.elim
  simp only [LocEngData.startHandler]
  split
  · split
    · exact asked.setInSession true
    · exact asked
  · exact h

theorem stopHandler (h : Discreet s t) : Discreet s t.stopHandler := by
  simp only [LocEngData.stopHandler]
  split
  · exact (h.record False.elim).setInSession false
  · exact h

theorem informGpsStatus (h : Discreet s t) (status : GpsStatusValue) :
    Discreet s (t.informGpsStatus status) := by
  simp only [LocEngData.informGpsStatus]
  split
  · exact h.record False.elim
  · exact h

theorem keepStatus (h : Discreet s t) (status : GpsStatusValue) :
    Discreet s (t.keepStatus status) := by
  constructor
  · have log : (t.keepStatus status).log = t.log := by
      simp only [LocEngData.keepStatus]
      split <;> split <;> rfl
    exact log ▸ h.calls
  · rw [← h.mute]
    simp only [LocEngData.keepStatus]
    split <;> split <;> rfl

theorem updateAidingDataForDeletion (h : Discreet s t) :
    Discreet s t.updateAidingDataForDeletion := by
  simp only [LocEngData.updateAidingDataForDeletion]
  split
  · have deleted := h.record (c := .deleteAidingData t.aiding_data_for_deletion) False.elim
    exact ⟨deleted.calls, deleted.mute⟩
  · exact h

theorem delAidData (h : Discreet s t) (f : BitVec 16) : Discreet s (t.delAidData f) :=
  updateAidingDataForDeletion (t := { t with aiding_data_for_deletion := f }) ⟨h.calls, h.mute⟩

theorem handleEngineUp (h : Discreet s t) : Discreet s t.handleEngineUp := by
  simp only [LocEngData.handleEngineUp]
  split
  · exact h.setInSession false
  · exact h

section Unmuted
variable (unmuted : s.mute_session_state ≠ .inSession)
include unmuted

theorem recordUnmuted (h : Discreet s t) (c : Call P) : Discreet s (t.record c) :=
  h.record fun _ => h.mute ▸ unmuted

theorem nmeaSend (h : Discreet s t) (pNmea : String) : Discreet s (t.nmeaSend pNmea) := by
  simp only [LocEngData.nmeaSend]
  split
  · exact h.recordUnmuted unmuted _
  · exact h

theorem nmeaGenerate (h : Discreet s t) (made : List String × NmeaFields) :
    Discreet s (t.nmeaGenerate made) := by
  have sends : ∀ (sentences : List String) {u : LocEngData P}, Discreet s u →
      Discreet s (sentences.foldl LocEngData.nmeaSend u) := by
    intro sentences
    induction sentences with
    | nil => intro u hu; exact hu
    | cons sentence _ ih => intro u hu; exact ih (hu.nmeaSend unmuted sentence)
  exact sends made.1 ⟨h.calls, h.mute⟩

theorem reportLocation (h : Discreet s t) (r : LocEngReportPosition P) :
    Discreet s (r.reportLocation t).2 := by
  simp only [LocEngReportPosition.reportLocation]
  split
  · split
    · exact h.recordUnmuted unmuted _
    · split
      · exact h.recordUnmuted unmuted _
      · exact h
  · exact h

theorem sendNmea (h : Discreet s t) (g : NmeaGenerator P) (r : LocEngReportPosition P)
    (reported : Bool) : Discreet s (r.sendNmea g reported t) := by
  simp only [LocEngReportPosition.sendNmea]
  split
  · exact h.nmeaGenerate unmuted _
  · exact h

end Unmuted

theorem finishSingleShot (h : Discreet s t) (r : LocEngReportPosition P) (reported : Bool) :
    Discreet s (r.finishSingleShot reported t) := by
  simp only [LocEngReportPosition.finishSingleShot]
  split
  · split
    · exact (h.record False.elim).setInSession false
    · exact h.setInSession false
  · exact h

theorem reportPosition (g : NmeaGenerator P) (r : LocEngReportPosition P) :
    Discreet s (r.proc g s) := by
  simp only [LocEngReportPosition.proc]
  split
  · rename_i unmuted
    have reported := (refl s).reportLocation unmuted r
    exact (reported.finishSingleShot r _).sendNmea unmuted g r _
  · exact refl s

theorem reportSv (g : NmeaGenerator P) (r : LocEngReportSv P) : Discreet s (r.proc g s) := by
  simp only [LocEngReportSv.proc]
  split
  · rename_i unmuted
    have reported : Discreet s (r.reportSvStatus s) := by
      simp only [LocEngReportSv.reportSvStatus]
      split
      · exact (refl s).recordUnmuted unmuted _
      · exact refl s
    simp only [LocEngReportSv.sendNmea]
    split
    · exact reported.nmeaGenerate unmuted _
    · exact reported
  · exact refl s

theorem reportGpsMeasurement (g : NmeaGenerator P) (mGpsData : P.GpsData) :
    Discreet s ((LocEngMsg.reportGpsMeasurement mGpsData).proc g s) := by
  simp only [LocEngMsg.proc]
  split
  · rename_i unmuted
    split
    · exact (refl s).recordUnmuted unmuted _
    · exact refl s
  · exact refl s

end Discreet

/-- A status report makes no private call, whatever it does to the mute state. -/
theorem reportStatus_discreet (status : GpsStatusValue) (s : LocEngData P) :
    Discreet { s with mute_session_state := LocEngData.muteAfter status s.mute_session_state }
      (s.reportStatus status) := by
  simp only [LocEngData.reportStatus]
  refine Discreet.keepStatus ?_ status
  split
  · exact (Discreet.refl _).informGpsStatus status
  · exact .refl _

theorem ends_of_muteAfter {status : GpsStatusValue}
    (left : LocEngData.muteAfter status .inSession ≠ .inSession) :
    status = GPS_STATUS_SESSION_END ∨ status = GPS_STATUS_ENGINE_OFF := by
  by_contra stays
  simp [LocEngData.muteAfter, stays] at left

/-- A message that reports `status` keeps a muted session private, if it may end one
whenever `status` may. -/
theorem keepsPrivate_of_reportStatus {s t : LocEngData P} {msg : LocEngMsg P}
    {status : GpsStatusValue}
    (h : Discreet
      { s with mute_session_state := LocEngData.muteAfter status s.mute_session_state } t)
    (ends : status = GPS_STATUS_SESSION_END ∨ status = GPS_STATUS_ENGINE_OFF → msg.EndsSession) :
    KeepsPrivate s msg t := by
  constructor
  · have keeps : KeepsPrivate _ msg t := h.keepsPrivate
    exact keeps.calls
  · intro muted left
    rw [h.mute] at left
    exact ends (ends_of_muteAfter (muted ▸ left))

/-- Two messages break a muted session: one more mute request, which sets the state back to
waiting, and an NMEA report of the modem, which asks for no mute. -/
theorem keepsPrivate_iff_respects (g : NmeaGenerator P) (s : LocEngData P) (msg : LocEngMsg P) :
    KeepsPrivate s msg (msg.proc g s) ↔ Respects s msg := by
  cases msg with
  | muteOneSession =>
      constructor
      · intro keeps muted
        exact keeps.leaves muted LocMuteSession.noConfusion
      · intro respects
        refine ⟨fun c hc => ?_, fun muted => (respects muted).elim⟩
        exact absurd hc (by simp [newEvents, LocEngMsg.proc, LocEngData.muteOneSession])
  | reportNmea mNmea =>
      by_cases registered : s.nmea_cb
      · have sent : (LocEngMsg.reportNmea mNmea).proc g s = s.record (.nmeaCb mNmea) :=
          if_pos registered
        rw [sent]
        constructor
        · intro keeps muted
          have last : ⟨s.mute_session_state, .nmeaCb mNmea⟩ ∈
              newEvents s.log (s.record (.nmeaCb mNmea)).log := by
            simp [LocEngData.record, newEvents_concat]
          exact absurd muted (keeps.calls _ last trivial)
        · intro respects
          have unmuted : s.mute_session_state ≠ .inSession := by
            intro muted
            simp [respects muted] at registered
          exact ((Discreet.refl s).recordUnmuted unmuted _).keepsPrivate
      · have silent : (LocEngMsg.reportNmea mNmea).proc g s = s := if_neg registered
        rw [silent]
        exact iff_of_true (Discreet.refl s).keepsPrivate fun _ => by simpa using registered
  | reportStatus mStatus =>
      refine iff_of_true ?_ fun _ => trivial
      exact keepsPrivate_of_reportStatus
        (reportStatus_discreet mStatus s).updateAidingDataForDeletion id
  | engineDown =>
      refine iff_of_true ?_ fun _ => trivial
      exact keepsPrivate_of_reportStatus (reportStatus_discreet GPS_STATUS_ENGINE_OFF s)
        fun _ => trivial
  | reportPosition r =>
      exact iff_of_true (Discreet.reportPosition g r).keepsPrivate fun _ => trivial
  | reportSv r => exact iff_of_true (Discreet.reportSv g r).keepsPrivate fun _ => trivial
  | reportGpsMeasurement mGpsData =>
      exact iff_of_true (Discreet.reportGpsMeasurement g mGpsData).keepsPrivate fun _ => trivial
  | startFix ret =>
      exact iff_of_true ((Discreet.refl s).startHandler ret).keepsPrivate fun _ => trivial
  | stopFix => exact iff_of_true (Discreet.refl s).stopHandler.keepsPrivate fun _ => trivial
  | setPositionMode posMode =>
      exact iff_of_true ((Discreet.refl s).setPositionMode posMode).keepsPrivate fun _ => trivial
  | delAidData mType =>
      exact iff_of_true ((Discreet.refl s).delAidData mType).keepsPrivate fun _ => trivial
  | gpsMeasurementInit | gpsMeasurementClose =>
      refine iff_of_true (Discreet.keepsPrivate ⟨.refl _ _, rfl⟩) fun _ => trivial
  | engineUp => exact iff_of_true (Discreet.refl s).handleEngineUp.keepsPrivate fun _ => trivial

/-- Of the runs from any state, so of those after loc_eng_init, exactly those keep every
muted session private whose messages all respect it. -/
theorem muted_sessions_are_private_iff (g : NmeaGenerator P) {s t : LocEngData P}
    {msgs : List (LocEngMsg P)} (run : Run (step g) s msgs t) :
    EachStep (step g) KeepsPrivate s msgs ↔ Meets (step g) Respects s msgs := by
  refine run.eachStep_iff_meets fun s msg t taken => ?_
  obtain rfl : msg.proc g s = t := Option.some.inj taken
  exact keepsPrivate_iff_respects g s msg

section Runs

abbrev plain : Payloads := ⟨Unit, Unit, Unit, Unit, Unit⟩

def silentGenerator : NmeaGenerator plain where
  generatePos fields _ _ _ _ := ([], fields)
  generateSv fields _ _ := ([], fields)

/-- All callbacks of loc_eng_init registered, the NMEA sentences coming from the modem. -/
def start : LocEngData plain where
  location_cb := true
  status_cb := true
  sv_status_cb := true
  nmea_cb := true
  gps_measurement_cb := false
  intermediateFix := 0
  ACCURACY_THRES := 0
  engine_status := GPS_STATUS_NONE
  fix_session_status := GPS_STATUS_NONE
  aiding_data_for_deletion := 0
  mute_session_state := .none
  generateNmea := false
  nmea := ⟨0, 0, 0, 0⟩
  mFixCriteria := ⟨.msBased, 0, 1000, 50, 120000, "", ""⟩
  mNavigating := false
  log := []

theorem muted_session_stays_private :
    EachStep (step silentGenerator) KeepsPrivate start
      [.muteOneSession, .reportStatus GPS_STATUS_ENGINE_ON, .reportSv ⟨(), (), ()⟩,
        .reportStatus GPS_STATUS_ENGINE_OFF] := by
  refine (muted_sessions_are_private_iff silentGenerator
    (.cons rfl (.cons rfl (.cons rfl (.cons rfl (.nil _)))))).mpr ?_
  refine (meets_cons rfl).mpr ⟨fun muted => LocMuteSession.noConfusion muted, ?_⟩
  refine (meets_cons rfl).mpr ⟨fun _ => trivial, ?_⟩
  refine (meets_cons rfl).mpr ⟨fun _ => trivial, ?_⟩
  exact (meets_cons rfl).mpr ⟨fun _ => trivial, trivial⟩

/-- After a mute request and GPS_STATUS_ENGINE_ON, an NMEA report of the modem reaches
nmea_cb, and a second mute request leaves the muted session. -/
theorem muted_session_leaks :
    IsInit start ∧
      ¬ EachStep (step silentGenerator) KeepsPrivate start
        [.muteOneSession, .reportStatus GPS_STATUS_ENGINE_ON,
          .reportNmea "$GPRMC,,V,,,,,,,,,,N*53"] ∧
      ¬ EachStep (step silentGenerator) KeepsPrivate start
        [.muteOneSession, .reportStatus GPS_STATUS_ENGINE_ON, .muteOneSession] := by
  refine ⟨⟨rfl, rfl, rfl, rfl, rfl, rfl, rfl⟩, fun all => ?_, fun all => ?_⟩
  · have keeps := all [_, _] _ [] _ _ rfl (.cons rfl (.cons rfl (.nil _))) rfl
    exact keeps.calls ⟨.inSession, .nmeaCb "$GPRMC,,V,,,,,,,,,,N*53"⟩ (.head _) trivial rfl
  · have keeps := all [_, _] _ [] _ _ rfl (.cons rfl (.cons rfl (.nil _))) rfl
    exact keeps.leaves rfl LocMuteSession.noConfusion

end Runs

end Msm8974.LocEng
