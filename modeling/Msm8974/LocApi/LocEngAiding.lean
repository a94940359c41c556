import Msm8974.Library.Monitors
import Msm8974.LocApi.LocEngEffects
import Msm8974.LocApi.LocEngMute

/-!
Which deletions of aiding data are forgotten. The pending mask is the last one requested, so
a flush deletes what was asked for since the flush before it exactly if the last request
covers the others.
-/

namespace Msm8974.LocEng
open Msm8974.Runs Msm8974.Traces LocEngData

variable {P : Payloads}

/-- The bitwise union of masks. -/
def union (masks : List (BitVec 16)) : BitVec 16 := masks.foldr (· ||| ·) 0

theorem or_or_eq_right_iff {a b f : BitVec 16} : a ||| b ||| f = f ↔ a ||| f = f ∧ b ||| f = f := by
  constructor
  · intro covered
    constructor
    · calc a ||| f = a ||| (a ||| b ||| f) := by rw [covered]
        _ = a ||| b ||| f := by rw [← BitVec.or_assoc, ← BitVec.or_assoc, BitVec.or_self]
        _ = f := covered
    · calc b ||| f = b ||| (b ||| a ||| f) := by rw [BitVec.or_comm b a, covered]
        _ = b ||| a ||| f := by rw [← BitVec.or_assoc, ← BitVec.or_assoc, BitVec.or_self]
        _ = f := by rw [BitVec.or_comm b a, covered]
  · intro ⟨first, second⟩
    rw [BitVec.or_assoc, second, first]

theorem union_or_eq_right_iff (masks : List (BitVec 16)) (f : BitVec 16) :
    union masks ||| f = f ↔ ∀ m ∈ masks, m ||| f = f := by
  induction masks with
  | nil => simp [union]
  | cons m masks ih =>
      have unfolded : union (m :: masks) = m ||| union masks := rfl
      rw [unfolded, or_or_eq_right_iff, ih, List.forall_mem_cons]

theorem union_concat (masks : List (BitVec 16)) (f : BitVec 16) :
    union (masks ++ [f]) = union masks ||| f := by
  induction masks with
  | nil => simp [union]
  | cons m masks ih =>
      have unfolded : union (m :: masks ++ [f]) = m ||| union (masks ++ [f]) := rfl
      rw [unfolded, ih, ← BitVec.or_assoc]
      rfl

/-- The last mask contains them all. -/
def Covered (masks : List (BitVec 16)) : Prop :=
  ∀ m ∈ masks, m ||| masks.getLastD 0 = masks.getLastD 0

instance (masks : List (BitVec 16)) : Decidable (Covered masks) :=
  List.decidableBAll _ _

theorem last_eq_union_iff (masks : List (BitVec 16)) :
    masks.getLastD 0 = union masks ↔ Covered masks := by
  induction masks using List.reverseRecOn with
  | nil => simp [Covered, union]
  | append_singleton masks f _ =>
      have last : (masks ++ [f]).getLastD 0 = f := by simp
      rw [Covered, last, union_concat, eq_comm, union_or_eq_right_iff, List.forall_mem_append,
        List.forall_mem_singleton, BitVec.or_self, and_iff_left rfl]

def LocEngMsg.requests : LocEngMsg P → List (BitVec 16)
  | .delAidData mType => [mType]
  | _ => []

/-- The messages whose processing tries to flush the pending mask. -/
def LocEngMsg.MayFlush : LocEngMsg P → Prop
  | .delAidData _ | .reportStatus _ => True
  | _ => False

/-- The masks requested since the last flush. -/
def noteRequests (s : LocEngData P) (msg : LocEngMsg P) (t : LocEngData P)
    (asked : List (BitVec 16)) : List (BitVec 16) :=
  if (newEvents s.deletes t.deletes).isEmpty then asked ++ msg.requests else []

/-- What the step deletes is the union of the masks requested since the last flush. -/
def FlushesUnion (p : LocEngData P × List (BitVec 16)) (msg : LocEngMsg P)
    (q : LocEngData P × List (BitVec 16)) : Prop :=
  ∀ f ∈ newEvents p.1.deletes q.1.deletes, f = union (p.2 ++ msg.requests)

/-- A message that finds the engine not on and something pending finds the last request to
cover the others. -/
def LastCovers (p : LocEngData P × List (BitVec 16)) (msg : LocEngMsg P) : Prop :=
  match msg with
  | .delAidData mType =>
      p.1.engine_status ≠ GPS_STATUS_ENGINE_ON → mType ≠ 0 → Covered (p.2 ++ [mType])
  | .reportStatus mStatus =>
      engineAfter mStatus p.1.engine_status ≠ GPS_STATUS_ENGINE_ON → p.2.getLastD 0 ≠ 0 →
        Covered p.2
  | _ => True

instance (p : LocEngData P × List (BitVec 16)) :
    (msg : LocEngMsg P) → Decidable (LastCovers p msg)
  | .delAidData _ => inferInstanceAs (Decidable (_ → _ → Covered _))
  | .reportStatus _ => inferInstanceAs (Decidable (_ → _ → Covered _))
  | .muteOneSession | .reportPosition _ | .reportSv _ | .reportGpsMeasurement _ | .reportNmea _
  | .startFix _ | .stopFix | .setPositionMode _ | .gpsMeasurementInit | .gpsMeasurementClose
  | .engineDown | .engineUp => isTrue trivial

/-- The pending mask is the last one requested. -/
def PendingIsLast (p : LocEngData P × List (BitVec 16)) : Prop :=
  p.1.aiding_data_for_deletion = p.2.getLastD 0

/-- What an attempt to flush does with the requests `asked`. -/
structure Flushed (asked : List (BitVec 16)) (s t : LocEngData P) : Prop where
  union_iff : (∀ f ∈ newEvents s.deletes t.deletes, f = union asked) ↔
    (s.engine_status ≠ GPS_STATUS_ENGINE_ON → asked.getLastD 0 ≠ 0 → Covered asked)
  pending : t.aiding_data_for_deletion =
    (if (newEvents s.deletes t.deletes).isEmpty then asked else []).getLastD 0

theorem flushed_updateAidingDataForDeletion {s : LocEngData P} {asked : List (BitVec 16)}
    (pending : s.aiding_data_for_deletion = asked.getLastD 0) :
    Flushed asked s s.updateAidingDataForDeletion := by
  obtain ⟨off, some, flush⟩ | ⟨kept, same⟩ := s.updateAidingDataForDeletion_cases
  · have deletes : s.updateAidingDataForDeletion.deletes =
        s.deletes ++ [s.aiding_data_for_deletion] := by
      rw [flush]
      exact s.deletes_record (.deleteAidingData s.aiding_data_for_deletion)
    have new : newEvents s.deletes s.updateAidingDataForDeletion.deletes =
        [asked.getLastD 0] := by
      rw [deletes, newEvents_concat, pending]
    constructor
    · rw [new, List.forall_mem_singleton, last_eq_union_iff]
      exact ⟨fun covered _ _ => covered, fun covers => covers off (pending ▸ some)⟩
    · rw [new, flush]
      rfl
  · have new : newEvents s.deletes s.updateAidingDataForDeletion.deletes = [] := by
      rw [same, newEvents, List.drop_length]
    constructor
    · rw [new]
      refine iff_of_true (fun f flushed => by cases flushed) fun off last => ?_
      exact absurd ⟨off, pending ▸ last⟩ kept
    · rw [new, same, pending]
      rfl

/-- Nothing is flushed and the pending mask is untouched. -/
structure AidingKept (s t : LocEngData P) : Prop where
  deletes : t.deletes = s.deletes
  pending : t.aiding_data_for_deletion = s.aiding_data_for_deletion

namespace AidingKept
variable {s t u : LocEngData P}

theorem trans (h : AidingKept s t) (h' : AidingKept t u) : AidingKept s u :=
  ⟨h'.deletes.trans h.deletes, h'.pending.trans h.pending⟩

theorem of_quiet (quiet : Quiet s t) : AidingKept s t := ⟨quiet.deletes, quiet.aiding⟩

theorem record (s : LocEngData P) {c : Call P} (other : c.deletedAidingData = none) :
    AidingKept s (s.record c) := by
  refine ⟨?_, rfl⟩
  rw [deletes_record, other]
  exact List.append_nil _

theorem proc (g : NmeaGenerator P) (s : LocEngData P) {msg : LocEngMsg P}
    (other : ¬ msg.MayFlush) : AidingKept s (msg.proc g s) := by
  cases msg with
  | delAidData | reportStatus => exact absurd trivial other
  | reportPosition r =>
      by_cases through : r.LetThrough s
      · exact (record s rfl).trans (of_quiet (r.proc_quiet_of_letThrough g through))
      · exact of_quiet (r.proc_quiet_of_not_letThrough g through)
  | startFix ret =>
      change AidingKept s (s.startHandler ret)
      have asked := record s (c := .startFix s.mFixCriteria ret) rfl
      obtain ⟨-, same⟩ | ⟨-, tried | started⟩ := startHandler_cases ret s
      · rw [same]
        exact ⟨rfl, rfl⟩
      · rw [tried]
        exact asked
      · rw [started]
        have begun := record { s.record (.startFix s.mFixCriteria ret) with mNavigating := true }
          (c := .setInSession true) rfl
        exact asked.trans ⟨begun.deletes, begun.pending⟩
  | setPositionMode posMode =>
      have moded := record { s with mFixCriteria := posMode.getD s.mFixCriteria }
        (c := .setPositionMode (posMode.getD s.mFixCriteria)) rfl
      exact ⟨moded.deletes, moded.pending⟩
  | engineDown =>
      have quiet := reportStatus_quiet GPS_STATUS_ENGINE_OFF s
      exact ⟨quiet.deletes, quiet.aiding⟩
  | muteOneSession | reportSv | reportGpsMeasurement | reportNmea | stopFix | gpsMeasurementInit
  | gpsMeasurementClose | engineUp => exact of_quiet (quiet_of_not_major g s id)

end AidingKept

theorem noteRequests_of_kept {s t : LocEngData P} (kept : AidingKept s t) (msg : LocEngMsg P)
    (asked : List (BitVec 16)) :
    newEvents s.deletes t.deletes = [] ∧ noteRequests s msg t asked = asked ++ msg.requests := by
  have none : newEvents s.deletes t.deletes = [] := by
    rw [kept.deletes, newEvents, List.drop_length]
  exact ⟨none, if_pos (by rw [none, List.isEmpty_nil])⟩

theorem flushed_of_other (g : NmeaGenerator P) {s : LocEngData P} {asked : List (BitVec 16)}
    (pending : PendingIsLast (s, asked)) {msg : LocEngMsg P} (other : ¬ msg.MayFlush)
    (none : msg.requests = []) (covers : LastCovers (s, asked) msg) :
    (FlushesUnion (s, asked) msg (msg.proc g s, noteRequests s msg (msg.proc g s) asked) ↔
      LastCovers (s, asked) msg) ∧
    PendingIsLast (msg.proc g s, noteRequests s msg (msg.proc g s) asked) := by
  have kept := AidingKept.proc g s other
  obtain ⟨silent, noted⟩ := noteRequests_of_kept kept msg asked
  rw [none, List.append_nil] at noted
  constructor
  · refine iff_of_true (fun f flushed => ?_) covers
    rw [silent] at flushed
    cases flushed
  · rw [noted]
    exact kept.pending.trans pending

/-- One message, with what was requested since the last flush noted beside it. -/
theorem proc_flushed (g : NmeaGenerator P) {s : LocEngData P} {asked : List (BitVec 16)}
    (pending : PendingIsLast (s, asked)) (msg : LocEngMsg P) :
    (FlushesUnion (s, asked) msg (msg.proc g s, noteRequests s msg (msg.proc g s) asked) ↔
      LastCovers (s, asked) msg) ∧
    PendingIsLast (msg.proc g s, noteRequests s msg (msg.proc g s) asked) := by
  cases msg with
  | delAidData mType =>
      have last : (asked ++ [mType]).getLastD 0 = mType := List.getLastD_concat
      have h := flushed_updateAidingDataForDeletion
        (s := { s with aiding_data_for_deletion := mType }) last.symm
      have flush := h.union_iff
      rw [last] at flush
      exact ⟨flush, h.pending⟩
  | reportStatus mStatus =>
      have quiet := reportStatus_quiet mStatus s
      have h := flushed_updateAidingDataForDeletion (quiet.aiding.trans pending)
      have started : (s.reportStatus mStatus).deletes = s.deletes := quiet.deletes
      have flush := h.union_iff
      have kept := h.pending
      rw [started] at flush kept
      rw [quiet.engine_status] at flush
      rw [← List.append_nil asked] at flush kept
      constructor
      · have covers : LastCovers (s, asked ++ []) (.reportStatus mStatus) ↔
            LastCovers (s, asked) (.reportStatus mStatus) := by rw [List.append_nil]
        exact flush.trans covers
      · exact kept
  | muteOneSession | reportPosition | reportSv | reportGpsMeasurement | reportNmea | startFix
  | stopFix | setPositionMode | gpsMeasurementInit | gpsMeasurementClose | engineDown
  | engineUp =>
      exact flushed_of_other g pending id rfl trivial

/-- Every flush of a run after loc_eng_init deletes the union of the masks requested since the
flush before it exactly if every flush finds the last of these masks to contain the others. -/
theorem deletes_are_unions_iff (g : NmeaGenerator P) {s : LocEngData P} (init : IsInit s)
    {msgs : List (LocEngMsg P)} {t : LocEngData P × List (BitVec 16)}
    (run : Run (monitored (step g) noteRequests) (s, []) msgs t) :
    EachStep (monitored (step g) noteRequests) FlushesUnion (s, []) msgs ↔
      Meets (monitored (step g) noteRequests) LastCovers (s, []) msgs := by
  have exact_step : ∀ p msg q, PendingIsLast p → monitored (step g) noteRequests p msg = some q →
      (FlushesUnion p msg q ↔ LastCovers p msg) ∧ PendingIsLast q := by
    intro ⟨s, asked⟩ msg q pending taken
    obtain rfl := Option.some.inj taken
    exact proc_flushed g pending msg
  refine run.eachStep_iff_meets_of_invariant (I := PendingIsLast) (fun p msg q pending taken => ?_)
    (fun p msg q pending _ taken => ?_) init.aiding_data_for_deletion
  · exact (exact_step p msg q pending taken).1
  · exact (exact_step p msg q pending taken).2

section Runs

/-- A second request that repeats what is still pending. -/
theorem repeated_request_is_deleted :
    EachStep (monitored (step silentGenerator) noteRequests) FlushesUnion (start, [])
      [.reportStatus GPS_STATUS_ENGINE_ON, .delAidData 1, .delAidData 3,
        .reportStatus GPS_STATUS_ENGINE_OFF] := by
  exact (deletes_are_unions_iff silentGenerator ⟨rfl, rfl, rfl, rfl, rfl, rfl, rfl⟩
    (.cons rfl (.cons rfl (.cons rfl (.cons rfl (.nil _)))))).mpr (by decide)

/-- Two requests while the engine is on: the first is never deleted. -/
theorem first_request_is_forgotten :
    IsInit start ∧
      ¬ EachStep (monitored (step silentGenerator) noteRequests) FlushesUnion (start, [])
        [.reportStatus GPS_STATUS_ENGINE_ON, .delAidData 1, .delAidData 2,
          .reportStatus GPS_STATUS_ENGINE_OFF] := by
  refine ⟨⟨rfl, rfl, rfl, rfl, rfl, rfl, rfl⟩, fun all => ?_⟩
  have flushed := all [_, _, _] _ [] _ _ rfl (.cons rfl (.cons rfl (.cons rfl (.nil _)))) rfl
  exact absurd (flushed 2 (.head _)) (by decide)

end Runs

end Msm8974.LocEng
