import Msm8974.LocApi.LocEngEffects
import Msm8974.LocApi.LocEngMute

/-!
The fix criteria across a modem restart. The restart ends the session before it queues the
new start, and ending a session invalidates the mode of the criteria that the new start is
requested with.
-/

namespace Msm8974.LocEng
open Msm8974.Runs Msm8974.Traces LocEngData

variable {P : Payloads}

/-- Since `s` a fix was started, and always with the criteria of `s`. -/
structure RestartedAsBefore (s t : LocEngData P) : Prop where
  started : newEvents s.startFixes t.startFixes ≠ []
  same : ∀ fixCriteria ∈ newEvents s.startFixes t.startFixes, fixCriteria = s.mFixCriteria

/-- Since `s` every fix was started with the wiped criteria of `s`, and a session that is on
was started since. -/
structure StartsWiped (s t : LocEngData P) (n : Nat) : Prop where
  criteria : t.mFixCriteria = s.wipedCriteria
  starts : t.startFixes = s.startFixes ++ List.replicate n s.wipedCriteria
  session : t.mNavigating = true → 0 < n

namespace StartsWiped
variable {s t u : LocEngData P} {n : Nat}

theorem of_frame (h : StartsWiped s t n) (startFixes : u.startFixes = t.startFixes)
    (criteria : u.mFixCriteria = t.mFixCriteria) (session : u.mNavigating = t.mNavigating) :
    StartsWiped s u n :=
  ⟨criteria.trans h.criteria, startFixes.trans h.starts, session ▸ h.session⟩

theorem quiet (h : StartsWiped s t n) (q : Quiet t u) : StartsWiped s u n where
  criteria := by
    cases q.criteria with
    | inl same => rw [same, h.criteria]
    | inr wiped => rw [wiped, wipedCriteria, h.criteria, wipedCriteria]
  starts := q.startFixes.trans h.starts
  session navigating := h.session (q.session navigating)

theorem reportPosition (h : StartsWiped s t n) (g : NmeaGenerator P)
    (r : LocEngReportPosition P) : StartsWiped s (r.proc g t) n := by
  by_cases through : r.LetThrough t
  · have reported : StartsWiped s (t.record (.locationCb (some r.mLocation) r.mLocationExt)) n :=
      h.of_frame (by rw [startFixes_record]; exact List.append_nil _) rfl rfl
    exact reported.quiet (r.proc_quiet_of_letThrough g through)
  · exact h.quiet (r.proc_quiet_of_not_letThrough g through)

theorem updateAidingDataForDeletion (h : StartsWiped s t n) :
    StartsWiped s t.updateAidingDataForDeletion n := by
  obtain ⟨-, -, flush⟩ | ⟨-, same⟩ := t.updateAidingDataForDeletion_cases
  · have recorded := t.startFixes_record (.deleteAidingData t.aiding_data_for_deletion)
    rw [flush]
    exact h.of_frame (recorded.trans (List.append_nil _)) rfl rfl
  · rwa [same]

theorem reportStatus (h : StartsWiped s t n) (status : GpsStatusValue) :
    StartsWiped s (t.reportStatus status) n := by
  have moved : StartsWiped s
      { t with engine_status := engineAfter status t.engine_status } n :=
    h.of_frame rfl rfl rfl
  exact moved.quiet (reportStatus_quiet status t)

theorem startHandler (h : StartsWiped s t n) (ret : Int) :
    ∃ k, 0 < k ∧ StartsWiped s (t.startHandler ret) k := by
  have asked : StartsWiped s (t.record (.startFix t.mFixCriteria ret)) (n + 1) := by
    refine ⟨h.criteria, ?_, fun _ => n.succ_pos⟩
    rw [startFixes_record, h.starts, List.replicate_succ', ← h.criteria, ← List.append_assoc]
    rfl
  obtain ⟨navigating, same⟩ | ⟨-, tried | started⟩ := startHandler_cases ret t
  · rw [same]
    exact ⟨n, h.session navigating, h⟩
  · rw [tried]
    exact ⟨n + 1, n.succ_pos, asked⟩
  · refine ⟨n + 1, n.succ_pos, ?_⟩
    rw [started]
    exact ⟨asked.criteria, (startFixes_setInSession _ _).trans asked.starts, fun _ => n.succ_pos⟩

theorem proc (h : StartsWiped s t n) (g : NmeaGenerator P) {msg : LocEngMsg P}
    (noMode : ∀ posMode, msg ≠ .setPositionMode posMode) :
    ∃ k, StartsWiped s (msg.proc g t) k := by
  by_cases minor : ¬ msg.IsMajor
  · exact ⟨n, h.quiet (quiet_of_not_major g t minor)⟩
  · cases msg with
    | setPositionMode posMode => exact absurd rfl (noMode posMode)
    | reportStatus mStatus => exact ⟨n, (h.reportStatus mStatus).updateAidingDataForDeletion⟩
    | reportPosition r => exact ⟨n, h.reportPosition g r⟩
    | startFix ret =>
        obtain ⟨k, -, started⟩ := h.startHandler ret
        exact ⟨k, started⟩
    | delAidData mType =>
        have asked : StartsWiped s { t with aiding_data_for_deletion := mType } n :=
          h.of_frame rfl rfl rfl
        exact ⟨n, asked.updateAidingDataForDeletion⟩
    | engineDown => exact ⟨n, h.reportStatus GPS_STATUS_ENGINE_OFF⟩
    | muteOneSession | reportSv | reportGpsMeasurement | reportNmea | stopFix
    | gpsMeasurementInit | gpsMeasurementClose | engineUp => exact absurd id minor

/-- The restart itself starts nothing. -/
theorem handleEngineUp (s : LocEngData P) (navigating : s.isInSession = true) :
    StartsWiped s s.handleEngineUp 0 := by
  have ended : s.handleEngineUp = s.setInSession false := if_pos navigating
  rw [ended]
  refine ⟨rfl, ?_, fun again => by cases again⟩
  have quiet := (Quiet.refl s).endSession
  rw [quiet.startFixes, List.replicate_zero, List.append_nil]

theorem run {g : NmeaGenerator P} {msgs : List (LocEngMsg P)} (path : Run (step g) t msgs u)
    (noMode : ∀ posMode, .setPositionMode posMode ∉ msgs) {n : Nat} (h : StartsWiped s t n) :
    ∃ k, StartsWiped s u k := by
  induction path generalizing n with
  | nil => exact ⟨n, h⟩
  | @cons t v u msg msgs taken _ ih =>
      obtain rfl : msg.proc g t = v := Option.some.inj taken
      obtain ⟨k, next⟩ := h.proc g fun posMode same => noMode posMode (same ▸ .head _)
      exact ih (fun posMode later => noMode posMode (.tail _ later)) next

end StartsWiped

/-- A restart in a session: whatever is processed before the start it queues, if not a new
position mode, the fix is requested with the criteria as they were exactly if their mode was
already invalid. -/
theorem restart_keeps_fix_criteria_iff (g : NmeaGenerator P) {s t : LocEngData P}
    (navigating : s.isInSession = true) {msgs : List (LocEngMsg P)}
    (noMode : ∀ posMode, .setPositionMode posMode ∉ msgs) {ret : Int}
    (run : Run (step g) s (.engineUp :: (msgs ++ [.startFix ret])) t) :
    RestartedAsBefore s t ↔ s.mFixCriteria.mode = .invalid := by
  obtain ⟨n, h, pos⟩ : ∃ n, StartsWiped s t n ∧ n ≠ 0 := by
    cases run with
    | cons up rest =>
        obtain rfl := Option.some.inj up
        obtain ⟨u, between, last⟩ := run_append_iff.mp rest
        obtain ⟨k, wiped⟩ := (StartsWiped.handleEngineUp s navigating).run between noMode
        obtain ⟨n, pos, started⟩ := wiped.startHandler ret
        cases last with
        | cons start done =>
            cases done
            obtain rfl := Option.some.inj start
            exact ⟨n, started, Nat.ne_of_gt pos⟩
  have starts : newEvents s.startFixes t.startFixes = List.replicate n s.wipedCriteria := by
    rw [h.starts, newEvents, List.drop_left]
  constructor
  · intro restarted
    have same := restarted.same s.wipedCriteria (by
      rw [starts]
      exact List.mem_replicate.mpr ⟨pos, rfl⟩)
    rw [← same, wipedCriteria]
  · intro invalid
    have kept : s.wipedCriteria = s.mFixCriteria := by rw [wipedCriteria, ← invalid]
    refine ⟨?_, fun fixCriteria started => ?_⟩
    · rw [starts, Ne, List.replicate_eq_nil_iff]
      exact pos
    · rw [starts] at started
      exact (List.eq_of_mem_replicate started).trans kept

section Runs

/-- The mode was lost in the restart before this one. -/
theorem second_restart_keeps_fix_criteria :
    ∃ s t, Run (step silentGenerator) start [.startFix 0, .engineUp, .startFix 0] s ∧
      Run (step silentGenerator) s [.engineUp, .startFix 0] t ∧ RestartedAsBefore s t := by
  refine ⟨_, _, .cons rfl (.cons rfl (.cons rfl (.nil _))), .cons rfl (.cons rfl (.nil _)), ?_⟩
  exact (restart_keeps_fix_criteria_iff silentGenerator rfl (fun _ => List.not_mem_nil)
    (.cons rfl (.cons rfl (.nil _)))).mpr rfl

/-- A session in MS-based mode is restarted with an invalid mode. -/
theorem restart_loses_position_mode :
    IsInit start ∧ ∃ s t, Run (step silentGenerator) start [.startFix 0] s ∧
      s.isInSession = true ∧ Run (step silentGenerator) s [.engineUp, .startFix 0] t ∧
      ¬ RestartedAsBefore s t := by
  refine ⟨⟨rfl, rfl, rfl, rfl, rfl, rfl, rfl⟩, _, _, .cons rfl (.nil _), rfl,
    .cons rfl (.cons rfl (.nil _)), fun restarted => ?_⟩
  have same := restarted.same _ (.head _)
  exact LocPositionMode.noConfusion (congrArg LocPosMode.mode same)

end Runs

end Msm8974.LocEng
