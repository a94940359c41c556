import Msm8974.LocApi.LocEng

/-!
What the messages of loc_eng leave alone. The log is read through three histories: the fix
criteria of the startFix calls, the deleted aiding data and the delivered locations. Most
messages add to none of them and at most end the session; the others are described by what
they add.
-/

namespace Msm8974.LocEng
open Msm8974.Runs Msm8974.Traces

variable {P : Payloads}

def Call.fixCriteria : Call P → Option LocPosMode
  | .startFix fixCriteria _ => some fixCriteria
  | _ => none

def Call.deletedAidingData : Call P → Option (BitVec 16)
  | .deleteAidingData f => some f
  | _ => none

def Call.location : Call P → Option UlpLocation
  | .locationCb location _ => location
  | _ => none

/-- The call adds to none of the three histories. -/
structure Call.Minor (c : Call P) : Prop where
  fixCriteria : c.fixCriteria = none
  deletedAidingData : c.deletedAidingData = none
  location : c.location = none

namespace LocEngData

def startFixes (s : LocEngData P) : List LocPosMode := s.log.filterMap (·.call.fixCriteria)

def deletes (s : LocEngData P) : List (BitVec 16) := s.log.filterMap (·.call.deletedAidingData)

def locations (s : LocEngData P) : List UlpLocation := s.log.filterMap (·.call.location)

theorem startFixes_record (s : LocEngData P) (c : Call P) :
    (s.record c).startFixes = s.startFixes ++ c.fixCriteria.toList := by
  cases h : c.fixCriteria <;> simp [startFixes, record, h]

theorem deletes_record (s : LocEngData P) (c : Call P) :
    (s.record c).deletes = s.deletes ++ c.deletedAidingData.toList := by
  cases h : c.deletedAidingData <;> simp [deletes, record, h]

theorem locations_record (s : LocEngData P) (c : Call P) :
    (s.record c).locations = s.locations ++ c.location.toList := by
  cases h : c.location <;> simp [locations, record, h]

/-- The fix criteria as the end of a session leaves them. -/
def wipedCriteria (s : LocEngData P) : LocPosMode := { s.mFixCriteria with mode := .invalid }

theorem updateAidingDataForDeletion_cases (s : LocEngData P) :
    (s.engine_status ≠ GPS_STATUS_ENGINE_ON ∧ s.aiding_data_for_deletion ≠ 0 ∧
      s.updateAidingDataForDeletion =
        { s.record (.deleteAidingData s.aiding_data_for_deletion) with
          aiding_data_for_deletion := 0 }) ∨
    (¬ (s.engine_status ≠ GPS_STATUS_ENGINE_ON ∧ s.aiding_data_for_deletion ≠ 0) ∧
      s.updateAidingDataForDeletion = s) := by
  by_cases flushed : s.engine_status ≠ GPS_STATUS_ENGINE_ON ∧ s.aiding_data_for_deletion ≠ 0
  · exact .inl ⟨flushed.1, flushed.2, if_pos flushed⟩
  · exact .inr ⟨flushed, if_neg flushed⟩

end LocEngData

/-- From `s` to `t` nothing was added to the histories, the aiding data and the engine are as
they were, and the session was at most ended. -/
structure Quiet (s t : LocEngData P) : Prop where
  startFixes : t.startFixes = s.startFixes
  deletes : t.deletes = s.deletes
  locations : t.locations = s.locations
  engine_status : t.engine_status = s.engine_status
  aiding : t.aiding_data_for_deletion = s.aiding_data_for_deletion
  criteria : t.mFixCriteria = s.mFixCriteria ∨ t.mFixCriteria = s.wipedCriteria
  session : t.mNavigating = true → s.mNavigating = true

namespace Quiet
open LocEngData
variable {s t u : LocEngData P}

theorem refl (s : LocEngData P) : Quiet s s := ⟨rfl, rfl, rfl, rfl, rfl, .inl rfl, id⟩

theorem wiped (h : Quiet s t) : t.wipedCriteria = s.wipedCriteria := by
  cases h.criteria with
  | inl same => rw [wipedCriteria, wipedCriteria, same]
  | inr wiped => rw [wipedCriteria, wiped, wipedCriteria]

theorem recurrence (h : Quiet s t) : t.mFixCriteria.recurrence = s.mFixCriteria.recurrence := by
  have same := congrArg LocPosMode.recurrence h.wiped
  exact same

theorem record (h : Quiet s t) {c : Call P} (minor : c.Minor) : Quiet s (t.record c) where
  startFixes := by rw [startFixes_record, minor.fixCriteria, h.startFixes]; simp
  deletes := by rw [deletes_record, minor.deletedAidingData, h.deletes]; simp
  locations := by rw [locations_record, minor.location, h.locations]; simp
  engine_status := h.engine_status
  aiding := h.aiding
  criteria := h.criteria
  session := h.session

theorem endSession (h : Quiet s t) : Quiet s (t.setInSession false) := by
  have ended : Quiet s { t with mNavigating := false, mFixCriteria := t.wipedCriteria } :=
    ⟨h.startFixes, h.deletes, h.locations, h.engine_status, h.aiding, .inr h.wiped,
      fun navigating => by cases navigating⟩
  exact ended.record ⟨rfl, rfl, rfl⟩

theorem stopHandler (h : Quiet s t) : Quiet s t.stopHandler := by
  simp only [LocEngData.stopHandler]
  split
  · exact (h.record ⟨rfl, rfl, rfl⟩).endSession
  · exact h

theorem handleEngineUp (h : Quiet s t) : Quiet s t.handleEngineUp := by
  simp only [LocEngData.handleEngineUp]
  split
  · exact h.endSession
  · exact h

theorem informGpsStatus (h : Quiet s t) (status : GpsStatusValue) :
    Quiet s (t.informGpsStatus status) := by
  simp only [LocEngData.informGpsStatus]
  split
  · exact h.record ⟨rfl, rfl, rfl⟩
  · exact h

theorem nmeaSend (h : Quiet s t) (pNmea : String) : Quiet s (t.nmeaSend pNmea) := by
  simp only [LocEngData.nmeaSend]
  split
  · exact h.record ⟨rfl, rfl, rfl⟩
  · exact h

theorem nmeaGenerate (h : Quiet s t) (made : List String × NmeaFields) :
    Quiet s (t.nmeaGenerate made) := by
  have sends : ∀ (sentences : List String) {u : LocEngData P}, Quiet s u →
      Quiet s (sentences.foldl LocEngData.nmeaSend u) := by
    intro sentences
    induction sentences with
    | nil => intro u hu; exact hu
    | cons sentence _ ih => intro u hu; exact ih (hu.nmeaSend sentence)
  exact sends made.1 ⟨h.startFixes, h.deletes, h.locations, h.engine_status, h.aiding, h.criteria,
    h.session⟩

theorem finishSingleShot (h : Quiet s t) (r : LocEngReportPosition P) (reported : Bool) :
    Quiet s (r.finishSingleShot reported t) := by
  simp only [LocEngReportPosition.finishSingleShot]
  split
  · split
    · exact (h.record ⟨rfl, rfl, rfl⟩).endSession
    · exact h.endSession
  · exact h

theorem sendNmea (h : Quiet s t) (g : NmeaGenerator P) (r : LocEngReportPosition P)
    (reported : Bool) : Quiet s (r.sendNmea g reported t) := by
  simp only [LocEngReportPosition.sendNmea]
  split
  · exact h.nmeaGenerate _
  · exact h

theorem reportSv (g : NmeaGenerator P) (r : LocEngReportSv P) (s : LocEngData P) :
    Quiet s (r.proc g s) := by
  simp only [LocEngReportSv.proc]
  split
  · have reported : Quiet s (r.reportSvStatus s) := by
      simp only [LocEngReportSv.reportSvStatus]
      split
      · exact (refl s).record ⟨rfl, rfl, rfl⟩
      · exact refl s
    simp only [LocEngReportSv.sendNmea]
    split
    · exact reported.nmeaGenerate _
    · exact reported
  · exact refl s

end Quiet

/-- The messages that may start a session, set its criteria, report a location, or touch the
aiding data or the engine. -/
def LocEngMsg.IsMajor : LocEngMsg P → Prop
  | .reportStatus _ | .reportPosition _ | .startFix _ | .setPositionMode _ | .delAidData _
  | .engineDown => True
  | _ => False

theorem quiet_of_not_major (g : NmeaGenerator P) (s : LocEngData P) {msg : LocEngMsg P}
    (minor : ¬ msg.IsMajor) : Quiet s (msg.proc g s) := by
  cases msg with
  | reportStatus | reportPosition | startFix | setPositionMode | delAidData | engineDown =>
      exact absurd trivial minor
  | muteOneSession | gpsMeasurementInit | gpsMeasurementClose =>
      exact ⟨rfl, rfl, rfl, rfl, rfl, .inl rfl, id⟩
  | reportSv r => exact Quiet.reportSv g r s
  | reportGpsMeasurement mGpsData =>
      simp only [LocEngMsg.proc]
      split_ifs
      · exact (Quiet.refl s).record ⟨rfl, rfl, rfl⟩
      · exact .refl s
      · exact .refl s
  | reportNmea mNmea => exact (Quiet.refl s).nmeaSend mNmea
  | stopFix => exact (Quiet.refl s).stopHandler
  | engineUp => exact (Quiet.refl s).handleEngineUp

namespace LocEngData

def engineAfter (status engine_status : GpsStatusValue) : GpsStatusValue :=
  if status = GPS_STATUS_ENGINE_ON ∨ status = GPS_STATUS_ENGINE_OFF then status
  else engine_status

/-- A status report moves the engine and is quiet otherwise. -/
theorem reportStatus_quiet (status : GpsStatusValue) (s : LocEngData P) :
    Quiet { s with engine_status := engineAfter status s.engine_status }
      (s.reportStatus status) := by
  have kept : ∀ u : LocEngData P, Quiet s u →
      Quiet { s with engine_status := engineAfter status s.engine_status }
        (u.keepStatus status) := by
    intro u h
    simp only [keepStatus, engineAfter]
    split <;> split <;> first
      | exact ⟨h.startFixes, h.deletes, h.locations, rfl, h.aiding, h.criteria, h.session⟩
      | exact ⟨h.startFixes, h.deletes, h.locations, h.engine_status, h.aiding, h.criteria,
          h.session⟩
  have muted : Quiet s { s with mute_session_state := muteAfter status s.mute_session_state } :=
    ⟨rfl, rfl, rfl, rfl, rfl, .inl rfl, id⟩
  refine kept _ ?_
  split
  · exact muted.informGpsStatus status
  · exact muted

/-- A start outside a session asks for a fix with the criteria in force, and may begin one. -/
theorem startHandler_cases (ret : Int) (s : LocEngData P) :
    (s.mNavigating = true ∧ s.startHandler ret = s) ∨
    (s.mNavigating = false ∧
      (s.startHandler ret = s.record (.startFix s.mFixCriteria ret) ∨
        s.startHandler ret =
          (s.record (.startFix s.mFixCriteria ret)).setInSession true)) := by
  cases navigating : s.mNavigating with
  | true => exact .inl ⟨rfl, by simp [startHandler, isInSession, navigating]⟩
  | false =>
      refine .inr ⟨rfl, ?_⟩
      simp only [startHandler, isInSession, navigating, Bool.not_false, if_true]
      split
      · exact .inr rfl
      · exact .inl rfl

theorem startFixes_setInSession (b : Bool) (s : LocEngData P) :
    (s.setInSession b).startFixes = s.startFixes := by
  cases b with
  | false => exact (Quiet.refl s).endSession.startFixes
  | true =>
      have recorded := startFixes_record { s with mNavigating := true } (.setInSession true)
      exact recorded.trans (List.append_nil _)

end LocEngData

namespace LocEngReportPosition

/-- The report passes the checks before location_cb. -/
def LetThrough (r : LocEngReportPosition P) (s : LocEngData P) : Prop :=
  s.mute_session_state ≠ .inSession ∧ s.location_cb = true ∧ r.mStatus ≠ .failure ∧
    r.wanted s = true

instance (r : LocEngReportPosition P) (s : LocEngData P) : Decidable (r.LetThrough s) :=
  inferInstanceAs (Decidable (_ ∧ _))

/-- A report that is let through delivers its location; any other is quiet. -/
theorem reportLocation_cases (r : LocEngReportPosition P) {s : LocEngData P}
    (unmuted : s.mute_session_state ≠ .inSession) :
    (r.LetThrough s ∧ r.reportLocation s =
      (true, s.record (.locationCb (some r.mLocation) r.mLocationExt))) ∨
    (¬ r.LetThrough s ∧ Quiet s (r.reportLocation s).2) := by
  by_cases through : r.LetThrough s
  · refine .inl ⟨through, ?_⟩
    obtain ⟨-, registered, fix, wanted⟩ := through
    rw [reportLocation, if_pos registered, if_neg fix, if_pos wanted]
  · refine .inr ⟨through, ?_⟩
    simp only [reportLocation]
    split
    · split
      · exact (Quiet.refl s).record ⟨rfl, rfl, rfl⟩
      · split
        · rename_i registered fix wanted
          exact absurd ⟨unmuted, registered, fix, wanted⟩ through
        · exact .refl s
    · exact .refl s

theorem proc_of_muted (g : NmeaGenerator P) (r : LocEngReportPosition P) {s : LocEngData P}
    (muted : s.mute_session_state = .inSession) : r.proc g s = s :=
  if_neg (not_not.mpr muted)

theorem proc_of_unmuted (g : NmeaGenerator P) (r : LocEngReportPosition P) {s : LocEngData P}
    (unmuted : s.mute_session_state ≠ .inSession) :
    r.proc g s = r.sendNmea g (r.reportLocation s).1
      (r.finishSingleShot (r.reportLocation s).1 (r.reportLocation s).2) :=
  if_pos unmuted

theorem proc_quiet_of_not_letThrough (g : NmeaGenerator P) (r : LocEngReportPosition P)
    {s : LocEngData P} (kept : ¬ r.LetThrough s) : Quiet s (r.proc g s) := by
  by_cases muted : s.mute_session_state = .inSession
  · rw [r.proc_of_muted g muted]
    exact .refl s
  · rw [r.proc_of_unmuted g muted]
    obtain ⟨through, -⟩ | ⟨-, quiet⟩ := r.reportLocation_cases muted
    · exact absurd through kept
    · exact (quiet.finishSingleShot r _).sendNmea g r _

theorem proc_of_letThrough (g : NmeaGenerator P) (r : LocEngReportPosition P)
    {s : LocEngData P} (through : r.LetThrough s) :
    r.proc g s = r.sendNmea g true
      (r.finishSingleShot true (s.record (.locationCb (some r.mLocation) r.mLocationExt))) := by
  rw [r.proc_of_unmuted g through.1]
  obtain ⟨-, reported⟩ | ⟨kept, -⟩ := r.reportLocation_cases through.1
  · rw [reported]
  · exact absurd through kept

theorem proc_quiet_of_letThrough (g : NmeaGenerator P) (r : LocEngReportPosition P)
    {s : LocEngData P} (through : r.LetThrough s) :
    Quiet (s.record (.locationCb (some r.mLocation) r.mLocationExt)) (r.proc g s) := by
  rw [r.proc_of_letThrough g through]
  exact ((Quiet.refl _).finishSingleShot r true).sendNmea g r true

end LocEngReportPosition
end Msm8974.LocEng
