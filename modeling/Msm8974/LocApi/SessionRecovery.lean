import Msm8974.Library.Runs
import Msm8974.LocApi.LocEngEffects
import Msm8974.LocApi.LocEngMute

/-!
A session across restarts of the modem. Requests of the framework, reports of the modem and the two
engine events are messages, which the worker processes in their order. The LocEngStartFix with which
loc_eng_handle_engine_up resumes a session goes to the end of the queue. A modem that is up starts
the fix it is asked for or turns it down; one that is not may also answer so that loc_eng waits for
it to come back.
-/

namespace Msm8974.LocEng.LocEngReportPosition
variable {P : Payloads}

/-- The report ends a single shot. -/
def finishes (r : LocEngReportPosition P) (s : LocEngData P) : Bool :=
  s.mute_session_state ≠ .inSession && (r.reportLocation s).1 &&
    s.mFixCriteria.recurrence = GPS_POSITION_RECURRENCE_SINGLE

end Msm8974.LocEng.LocEngReportPosition

namespace Msm8974.Recovery
open LocEng LocEngData Runs
open Msm8974.Agps (LOC_API_ADAPTER_ERR_SUCCESS)
variable {P : Payloads}

inductive Queued (P : Payloads)
  /-- LocEngStartFix, `again` when loc_eng_handle_engine_up sends it -/
  | startFix (again : Bool)
  | other (msg : LocEngMsg P)

def Queued.isAgain : Queued P → Bool
  | .startFix again => again
  | .other _ => false

def Queued.isUp : Queued P → Bool
  | .other .engineUp => true
  | _ => false

/-- `tracking` is whether the modem works on a fix; `wanted` is whether the messages that were
processed ask for a session, restarts of the modem aside. -/
structure World (P : Payloads) where
  data : LocEngData P
  msgs : List (Queued P)
  alive : Bool
  tracking : Bool
  wanted : Bool

inductive Label (P : Payloads)
  /-- loc_eng_start -/
  | start
  | send (msg : LocEngMsg P)
  /-- loc_eng_gps_measurement_init and loc_eng_gps_measurement_close, which are not messages -/
  | measurement (registered : Bool)
  | engineDown
  | engineUp
  /-- The worker processes a message; `ret` is what the modem answers if it is asked for a fix. -/
  | proc (ret : Int)

/-- A message of the framework, a report of the modem, or an NI request that mutes a session. -/
def isSent : LocEngMsg P → Bool
  | .startFix _ | .gpsMeasurementInit | .gpsMeasurementClose | .engineDown | .engineUp => false
  | _ => true

/-- loc_eng_start_handler takes the modem to be away. -/
def isAway (ret : Int) : Bool :=
  ret = LOC_API_ADAPTER_ERR_ENGINE_DOWN ∨ ret = LOC_API_ADAPTER_ERR_PHONE_OFFLINE ∨
    ret = LOC_API_ADAPTER_ERR_INTERNAL

def answers (alive : Bool) (ret : Int) : Bool :=
  if alive then !isAway ret else ret ≠ LOC_API_ADAPTER_ERR_SUCCESS

/-- The start fails and is not tried again. -/
def turnedDown (s : LocEngData P) (ret : Int) : Bool :=
  !s.isInSession && !(ret = LOC_API_ADAPTER_ERR_SUCCESS || isAway ret)

/-- The message takes back the request for a session. -/
def takesBack (s : LocEngData P) : LocEngMsg P → Bool
  | .stopFix => true
  | .reportPosition r => r.finishes s
  | _ => false

/-- With the message the modem is told to stop, or it has finished its single shot. -/
def stopsModem (s : LocEngData P) : LocEngMsg P → Bool
  | .stopFix => s.isInSession
  | .reportPosition r => r.finishes s
  | _ => false

/-- What loc_eng_handle_engine_up sends. -/
def resumed (s : LocEngData P) : LocEngMsg P → List (Queued P)
  | .engineUp => if s.isInSession then [.startFix true] else []
  | _ => []

namespace World

def restartWaits (w : World P) : Bool := w.msgs.any Queued.isAgain

def upWaits (w : World P) : Bool := w.msgs.any Queued.isUp

def procStart (again : Bool) (ret : Int) (w : World P) : Option (World P) :=
  if w.data.isInSession ∨ answers w.alive ret then
    some { w with
      data := w.data.startHandler ret
      tracking := w.tracking || (!w.data.isInSession && ret = LOC_API_ADAPTER_ERR_SUCCESS)
      wanted := w.wanted || !again }
  else none

def procMsg (g : NmeaGenerator P) (w : World P) (msg : LocEngMsg P) : World P :=
  { w with
    data := msg.proc g w.data
    msgs := w.msgs ++ resumed w.data msg
    tracking := w.tracking && !stopsModem w.data msg
    wanted := w.wanted && !takesBack w.data msg }

def step (g : NmeaGenerator P) (w : World P) : Label P → Option (World P)
  | .start => some { w with msgs := w.msgs ++ [.startFix false] }
  | .send msg => if isSent msg then some { w with msgs := w.msgs ++ [.other msg] } else none
  | .measurement registered =>
      some { w with data := { w.data with gps_measurement_cb := registered } }
  | .engineDown =>
      if w.alive then
        some { w with msgs := w.msgs ++ [.other .engineDown], alive := false, tracking := false }
      else none
  | .engineUp =>
      if w.alive then none
      else some { w with msgs := w.msgs ++ [.other .engineUp], alive := true, tracking := false }
  | .proc ret =>
      match w.msgs with
      | [] => none
      | .startFix again :: msgs => procStart again ret { w with msgs }
      | .other msg :: msgs => some (procMsg g { w with msgs } msg)

structure IsInit (w : World P) : Prop where
  data : LocEng.IsInit w.data
  msgs : w.msgs = []
  tracking : w.tracking = false
  wanted : w.wanted = false

/-- A session that is wanted is on or about to be resumed, and the modem tracks for it as soon as it
is up and no message about that is on its way. -/
structure Recovers (w : World P) : Prop where
  session : w.wanted = (w.data.isInSession || w.restartWaits)
  modem : w.alive = true → w.upWaits = false → w.restartWaits = false → w.tracking = w.wanted

/-- No request is taken back while the session is about to be resumed, and a start that is turned
down has such a resumption behind it. -/
def Careful (w : World P) : Label P → Prop
  | .proc ret =>
      match w.msgs with
      | [] => True
      | .startFix _ :: msgs => turnedDown w.data ret = true → msgs.any Queued.isAgain = true
      | .other msg :: _ => takesBack w.data msg = true → w.restartWaits = false
  | _ => True

end World

section Session
variable {s : LocEngData P}

theorem setInSession_isInSession (b : Bool) (s : LocEngData P) :
    (s.setInSession b).isInSession = b := by
  cases b with
  | false => rfl
  | true => rfl

theorem startHandler_isInSession (ret : Int) (s : LocEngData P) :
    (s.startHandler ret).isInSession = !turnedDown s ret := by
  rw [startHandler, turnedDown]
  cases session : s.isInSession with
  | true => exact session
  | false =>
      rw [Bool.not_false, if_pos rfl, Bool.true_and, Bool.not_not]
      split
      · next takes =>
          rw [setInSession_isInSession, eq_comm, Bool.or_eq_true, isAway, decide_eq_true_eq,
            decide_eq_true_eq]
          exact takes
      · next refuses =>
          refine session.trans (Eq.symm (Bool.eq_false_iff.mpr fun takes => refuses ?_))
          rw [Bool.or_eq_true, isAway, decide_eq_true_eq, decide_eq_true_eq] at takes
          exact takes

theorem nmeaGenerate_isInSession (made : List String × NmeaFields) (s : LocEngData P) :
    (s.nmeaGenerate made).isInSession = s.isInSession := by
  have sends (sentences : List String) (u : LocEngData P) :
      (sentences.foldl nmeaSend u).isInSession = u.isInSession := by
    induction sentences generalizing u with
    | nil => rfl
    | cons sentence rest ih =>
        rw [List.foldl_cons, ih, nmeaSend]
        split
        · rfl
        · rfl
  exact sends made.1 _

theorem reportStatus_isInSession (status : GpsStatusValue) (s : LocEngData P) :
    (s.reportStatus status).isInSession = s.isInSession := by
  have informed (u : LocEngData P) : (u.informGpsStatus status).isInSession = u.isInSession := by
    rw [informGpsStatus]
    split
    · rfl
    · rfl
  have kept (u : LocEngData P) : (u.keepStatus status).isInSession = u.isInSession := by
    simp only [keepStatus]
    split <;> split <;> rfl
  rw [reportStatus, kept]
  split
  · exact informed _
  · rfl

theorem updateAidingDataForDeletion_isInSession (s : LocEngData P) :
    s.updateAidingDataForDeletion.isInSession = s.isInSession := by
  obtain ⟨-, -, flush⟩ | ⟨-, same⟩ := s.updateAidingDataForDeletion_cases
  · rw [flush]
    rfl
  · rw [same]

theorem reportPosition_isInSession (g : NmeaGenerator P) (r : LocEngReportPosition P)
    (s : LocEngData P) : (r.proc g s).isInSession = (s.isInSession && !r.finishes s) := by
  by_cases unmuted : s.mute_session_state ≠ .inSession
  · have located : (r.reportLocation s).2.isInSession = s.isInSession ∧
        (r.reportLocation s).2.mFixCriteria = s.mFixCriteria := by
      rw [LocEngReportPosition.reportLocation]
      split_ifs <;> exact ⟨rfl, rfl⟩
    have sent (reported : Bool) (u : LocEngData P) :
        (r.sendNmea g reported u).isInSession = u.isInSession := by
      rw [LocEngReportPosition.sendNmea]
      split
      · exact nmeaGenerate_isInSession _ u
      · rfl
    rw [r.proc_of_unmuted g unmuted, sent, LocEngReportPosition.finishSingleShot, located.2,
      LocEngReportPosition.finishes, decide_eq_true unmuted, Bool.true_and]
    split
    · next single =>
        rw [single.1, decide_eq_true single.2, Bool.and_true, Bool.not_true, Bool.and_false]
        exact setInSession_isInSession false _
    · next other =>
        have unfinished : ((r.reportLocation s).1 &&
            decide (s.mFixCriteria.recurrence = GPS_POSITION_RECURRENCE_SINGLE)) = false := by
          simpa using other
        rw [unfinished, Bool.not_false, Bool.and_true]
        exact located.1
  · rw [r.proc_of_muted g (not_not.mp unmuted), LocEngReportPosition.finishes,
      decide_eq_false unmuted, Bool.false_and, Bool.false_and, Bool.not_false, Bool.and_true]

/-- Only a request that is taken back and a modem that is back take the session off. -/
theorem proc_isInSession (g : NmeaGenerator P) (s : LocEngData P) {msg : LocEngMsg P}
    (other : ∀ ret, msg ≠ .startFix ret) : (msg.proc g s).isInSession =
      (s.isInSession && !takesBack s msg && !(Queued.other msg).isUp) := by
  cases msg with
  | startFix ret => exact absurd rfl (other ret)
  | reportPosition r =>
      rw [LocEngMsg.proc, reportPosition_isInSession, takesBack, Queued.isUp, Bool.not_false,
        Bool.and_true]
      · simp
  | stopFix =>
      simp only [LocEngMsg.proc, stopHandler, takesBack, Bool.not_true, Bool.and_false,
        Bool.false_and]
      split
      · exact setInSession_isInSession false _
      · next off => exact Bool.eq_false_iff.mpr off
  | engineUp =>
      simp only [LocEngMsg.proc, handleEngineUp, Queued.isUp, Bool.not_true, Bool.and_false]
      split
      · exact setInSession_isInSession false _
      · next off => exact Bool.eq_false_iff.mpr off
  | reportStatus status =>
      simp only [LocEngMsg.proc, takesBack, Queued.isUp, Bool.not_false, Bool.and_true]
      rw [updateAidingDataForDeletion_isInSession, reportStatus_isInSession]
  | engineDown =>
      simp only [LocEngMsg.proc, takesBack, Queued.isUp, Bool.not_false, Bool.and_true]
      exact reportStatus_isInSession _ s
  | delAidData f =>
      simp only [LocEngMsg.proc, takesBack, Queued.isUp, Bool.not_false, Bool.and_true]
      exact updateAidingDataForDeletion_isInSession _
  | reportSv r =>
      simp only [LocEngMsg.proc, takesBack, Queued.isUp, Bool.not_false, Bool.and_true]
      rw [LocEngReportSv.proc, LocEngReportSv.sendNmea, LocEngReportSv.reportSvStatus]
      split_ifs <;> first
        | exact nmeaGenerate_isInSession _ _
        | rfl
  | reportGpsMeasurement gpsData =>
      simp only [LocEngMsg.proc, takesBack, Queued.isUp, Bool.not_false, Bool.and_true]
      split_ifs <;> rfl
  | reportNmea nmea =>
      simp only [LocEngMsg.proc, takesBack, Queued.isUp, Bool.not_false, Bool.and_true]
      split_ifs <;> rfl
  | muteOneSession | setPositionMode _ | gpsMeasurementInit | gpsMeasurementClose =>
      simp only [LocEngMsg.proc, takesBack, Queued.isUp, Bool.not_false, Bool.and_true]
      rfl

end Session

namespace World
section Steps
variable {g : NmeaGenerator P} {w t : World P} {l : Label P}

/-- What holds whatever is taken back: a modem that tracks has a session or is about to, and one
that is up tracks for the session unless loc_eng has not heard that it was away. -/
structure Sound (w : World P) : Prop where
  queued : ∀ ret, .other (.startFix ret) ∉ w.msgs
  held : w.tracking = true → w.data.isInSession = true ∨ w.restartWaits = true
  served : w.alive = true → w.data.isInSession = true → w.tracking = true ∨ w.upWaits = true

theorem recovers_iff (sound : t.Sound) :
    t.Recovers ↔ t.wanted = (t.data.isInSession || t.restartWaits) := by
  refine ⟨Recovers.session, fun session => ⟨session, fun up heard settled => ?_⟩⟩
  rw [session, settled, Bool.or_false, Bool.eq_iff_iff]
  constructor
  · intro tracking
    exact (sound.held tracking).resolve_right (by simp [settled])
  · intro on
    exact (sound.served up on).resolve_right (by simp [heard])

/-- A message is sent, and the modem stays as it is or its tracking ends. -/
theorem sound_send (sound : w.Sound) {q : Queued P} (plain : ∀ ret, q ≠ .other (.startFix ret))
    (alive tracking : Bool) (modem : alive = w.alive ∧ tracking = w.tracking ∨
      tracking = false ∧ (alive = true → q.isUp = true)) :
    { w with msgs := w.msgs ++ [q], alive, tracking }.Sound where
  queued ret mem := by
    obtain old | new := List.mem_append.mp mem
    · exact sound.queued ret old
    · exact plain ret (List.mem_singleton.mp new).symm
  held tracks := by
    obtain ⟨-, same⟩ | ⟨off, -⟩ := modem
    · obtain on | waits := sound.held (same ▸ tracks)
      · exact .inl on
      · refine .inr ?_
        rw [restartWaits, List.any_append, Bool.or_eq_true]
        exact .inl waits
    · exact absurd tracks (by simp [off])
  served up on := by
    simp only [upWaits, List.any_append, List.any_cons, List.any_nil, Bool.or_false,
      Bool.or_eq_true]
    obtain ⟨same, same'⟩ | ⟨-, told⟩ := modem
    · obtain tracks | waits := sound.served (same ▸ up) on
      · exact .inl (same'.trans tracks)
      · exact .inr (.inl waits)
    · exact .inr (.inr (told up))

/-- A message other than a resumption leaves the session in agreement. -/
theorem agrees_send {q : Queued P} {alive tracking : Bool}
    (agrees : w.wanted = (w.data.isInSession || w.restartWaits)) (first : q.isAgain = false) :
    w.wanted = (w.data.isInSession ||
      restartWaits { w with msgs := w.msgs ++ [q], alive, tracking }) := by
  simp only [restartWaits, List.any_append, List.any_cons, List.any_nil, first, Bool.or_false]
  exact agrees

theorem stopsModem_eq (s : LocEngData P) (msg : LocEngMsg P) (on : s.isInSession = true) :
    stopsModem s msg = takesBack s msg := by
  cases msg with
  | stopFix => exact on
  | _ => rfl

theorem takesBack_of_isUp {s : LocEngData P} {msg : LocEngMsg P}
    (up : (Queued.other msg).isUp = true) : takesBack s msg = false := by
  cases msg with
  | engineUp => rfl
  | _ => cases up

theorem resumed_isAgain (s : LocEngData P) (msg : LocEngMsg P) :
    (resumed s msg).any Queued.isAgain = ((Queued.other msg).isUp && s.isInSession) := by
  cases msg with
  | engineUp =>
      simp only [resumed, Queued.isUp, Bool.true_and]
      cases s.isInSession with
      | true => rfl
      | false => rfl
  | _ => rfl

theorem resumed_eq_startFix {s : LocEngData P} {msg : LocEngMsg P} {q : Queued P}
    (mem : q ∈ resumed s msg) : q = .startFix true := by
  cases msg with
  | engineUp =>
      simp only [resumed] at mem
      split at mem
      · exact List.mem_singleton.mp mem
      · exact absurd mem List.not_mem_nil
  | _ => exact absurd mem List.not_mem_nil

theorem procStart_sound {again : Bool} {ret : Int} {msgs : List (Queued P)} (sound : w.Sound)
    (first : w.msgs = .startFix again :: msgs)
    (careful : turnedDown w.data ret = true → msgs.any Queued.isAgain = true)
    (h : procStart again ret { w with msgs } = some t) : t.Sound := by
  rw [procStart] at h
  split at h
  · next starts =>
      obtain rfl := Option.some.inj h
      refine ⟨fun ret' mem => ?_, fun _ => ?_, fun up on => ?_⟩
      · exact sound.queued ret' (first ▸ List.mem_cons_of_mem _ mem)
      · cases down : turnedDown w.data ret with
        | false => exact .inl (by simp [startHandler_isInSession, down])
        | true => exact .inr (careful down)
      · cases session : w.data.isInSession with
        | true =>
            obtain tracks | waits := sound.served up session
            · exact .inl (by simp [tracks])
            · rw [upWaits, first, List.any_cons] at waits
              exact .inr waits
        | false =>
            -- a modem that is up and does not turn the start down has begun to track
            have answered : answers w.alive ret = true :=
              starts.resolve_left (Bool.eq_false_iff.mp session)
            rw [answers, if_pos (show w.alive = true from up), Bool.not_eq_true'] at answered
            have stays : turnedDown w.data ret = false := by
              simpa only [startHandler_isInSession, Bool.not_eq_true'] using on
            rw [turnedDown, session, answered, Bool.or_false, Bool.not_false, Bool.true_and,
              Bool.not_eq_false'] at stays
            exact .inl (by simp [of_decide_eq_true stays])
  · cases h

/-- After a start the session still agrees exactly if it is on or another resumption waits. -/
theorem procStart_session {again : Bool} {ret : Int} {msgs : List (Queued P)}
    (first : w.msgs = .startFix again :: msgs) (recovers : w.Recovers)
    (h : procStart again ret { w with msgs } = some t) :
    t.wanted = (t.data.isInSession || t.restartWaits) ↔
      (turnedDown w.data ret = true → msgs.any Queued.isAgain = true) := by
  rw [procStart] at h
  split at h
  · obtain rfl := Option.some.inj h
    have wanted : (w.wanted || !again) = true := by
      have waits : w.restartWaits = (again || msgs.any Queued.isAgain) := by
        rw [restartWaits, first]
        rfl
      rw [recovers.session, waits, Bool.or_eq_true, Bool.not_eq_true']
      cases again with
      | true => exact .inl (Bool.or_true _)
      | false => exact .inr rfl
    simp only [wanted, startHandler_isInSession]
    cases turnedDown w.data ret with
    | true => exact ⟨fun same _ => same.symm, fun waits => (waits rfl).symm⟩
    | false => exact iff_of_true rfl fun down => by cases down
  · cases h

theorem procMsg_sound {msg : LocEngMsg P} {msgs : List (Queued P)} (sound : w.Sound)
    (first : w.msgs = .other msg :: msgs) : (procMsg g { w with msgs } msg).Sound := by
  have other (ret : Int) : msg ≠ .startFix ret := by
    rintro rfl
    exact sound.queued ret (first ▸ List.mem_cons_self)
  have after := proc_isInSession g w.data other
  refine ⟨fun ret mem => ?_, fun tracks => ?_, fun up on => ?_⟩
  · obtain old | new := List.mem_append.mp mem
    · exact sound.queued ret (first ▸ List.mem_cons_of_mem _ old)
    · cases resumed_eq_startFix new
  · obtain ⟨before, goes⟩ := Bool.and_eq_true_iff.mp tracks
    rw [Bool.not_eq_true'] at goes
    simp only [restartWaits, procMsg, List.any_append, resumed_isAgain, Bool.or_eq_true, after]
    obtain on | waits := sound.held before
    · rw [stopsModem_eq _ _ on] at goes
      cases isUp : (Queued.other msg).isUp with
      | true => exact .inr (.inr (by simp [on]))
      | false => exact .inl (by simp [on, goes])
    · rw [restartWaits, first, List.any_cons] at waits
      exact .inr (.inl waits)
  · simp only [procMsg, after, Bool.and_eq_true, Bool.not_eq_true'] at on
    obtain ⟨⟨before, kept⟩, notUp⟩ := on
    obtain tracks | waits := sound.served up before
    · refine .inl ?_
      simp only [procMsg, tracks, stopsModem_eq _ _ before, kept, Bool.not_false, Bool.and_true]
    · rw [upWaits, first, List.any_cons, notUp, Bool.false_or] at waits
      refine .inr ?_
      simp only [upWaits, procMsg, List.any_append, Bool.or_eq_true]
      exact .inl waits

/-- The session still agrees exactly if nothing is taken back while a restart waits. -/
theorem procMsg_session {msg : LocEngMsg P} {msgs : List (Queued P)} (sound : w.Sound)
    (first : w.msgs = .other msg :: msgs) (recovers : w.Recovers) :
    (procMsg g { w with msgs } msg).wanted =
        ((procMsg g { w with msgs } msg).data.isInSession ||
          (procMsg g { w with msgs } msg).restartWaits) ↔
      (takesBack w.data msg = true → w.restartWaits = false) := by
  have other (ret : Int) : msg ≠ .startFix ret := by
    rintro rfl
    exact sound.queued ret (first ▸ List.mem_cons_self)
  have waits : w.restartWaits = msgs.any Queued.isAgain := by rw [restartWaits, first]; rfl
  simp only [procMsg, restartWaits, List.any_append, resumed_isAgain,
    proc_isInSession g w.data other, recovers.session]
  rw [← restartWaits, waits]
  cases back : takesBack w.data msg with
  | true =>
      have notUp : (Queued.other msg).isUp = false := by
        cases up : (Queued.other msg).isUp with
        | false => rfl
        | true => rw [takesBack_of_isUp up] at back; cases back
      simp only [notUp, Bool.not_true, Bool.and_false, Bool.false_and, Bool.or_false,
        Bool.false_or]
      exact ⟨fun same _ => same.symm, fun settled => (settled trivial).symm⟩
  | false =>
      refine iff_of_true ?_ (fun taken => by cases taken)
      cases (Queued.other msg).isUp with
      | true =>
          simp only [Bool.not_true, Bool.and_false, Bool.false_or, Bool.true_and, Bool.not_false,
            Bool.and_true]
          exact Bool.or_comm _ _
      | false => simp

/-- What a step does: a message is sent, gps_measurement_cb is set, or the first message is
processed. -/
inductive Moves (g : NmeaGenerator P) (w : World P) : Label P → World P → Prop
  | sends {l : Label P} {q : Queued P} {alive tracking : Bool} (outside : w.Careful l)
      (plain : ∀ ret, q ≠ .other (.startFix ret)) (first : q.isAgain = false)
      (modem : alive = w.alive ∧ tracking = w.tracking ∨
        tracking = false ∧ (alive = true → q.isUp = true)) :
      Moves g w l { w with msgs := w.msgs ++ [q], alive, tracking }
  | measurement (registered : Bool) : Moves g w (.measurement registered)
      { w with data := { w.data with gps_measurement_cb := registered } }
  | starts {again : Bool} {ret : Int} {msgs : List (Queued P)} {t : World P}
      (queue : w.msgs = .startFix again :: msgs)
      (started : procStart again ret { w with msgs } = some t) : Moves g w (.proc ret) t
  | processes {ret : Int} {msg : LocEngMsg P} {msgs : List (Queued P)}
      (queue : w.msgs = .other msg :: msgs) :
      Moves g w (.proc ret) (procMsg g { w with msgs } msg)

theorem moves_of_step (h : step g w l = some t) : Moves g w l t := by
  cases l with
  | start =>
      obtain rfl := Option.some.inj h
      exact .sends trivial (by simp) rfl (.inl ⟨rfl, rfl⟩)
  | send msg =>
      rw [step] at h
      split at h
      · next sent =>
          obtain rfl := Option.some.inj h
          refine .sends trivial (fun ret same => ?_) rfl (.inl ⟨rfl, rfl⟩)
          cases same
          cases sent
      · cases h
  | measurement registered =>
      obtain rfl := Option.some.inj h
      exact .measurement registered
  | engineDown =>
      rw [step] at h
      split at h
      · obtain rfl := Option.some.inj h
        exact .sends trivial (by simp) rfl (.inr ⟨rfl, by simp⟩)
      · cases h
  | engineUp =>
      rw [step] at h
      split at h
      · cases h
      · obtain rfl := Option.some.inj h
        exact .sends trivial (by simp) rfl (.inr ⟨rfl, fun _ => rfl⟩)
  | proc ret =>
      rw [step] at h
      split at h
      · cases h
      · next queue => exact .starts queue h
      · next queue =>
          obtain rfl := Option.some.inj h
          exact .processes queue

theorem sound_step (sound : w.Sound) (careful : w.Careful l) (h : step g w l = some t) :
    t.Sound := by
  cases moves_of_step h with
  | sends _ plain _ modem => exact sound_send sound plain _ _ modem
  | measurement _ => exact ⟨sound.queued, sound.held, sound.served⟩
  | starts queue started =>
      rw [Careful, queue] at careful
      exact procStart_sound sound queue careful started
  | processes queue => exact procMsg_sound sound queue

/-- The session agrees after exactly the careful steps. -/
theorem agrees_step (sound : w.Sound) (recovers : w.Recovers) (h : step g w l = some t) :
    t.wanted = (t.data.isInSession || t.restartWaits) ↔ w.Careful l := by
  cases moves_of_step h with
  | sends outside _ first _ => exact iff_of_true (agrees_send recovers.session first) outside
  | measurement _ => exact iff_of_true recovers.session trivial
  | starts queue started =>
      rw [Careful, queue]
      exact procStart_session queue recovers started
  | processes queue =>
      rw [Careful, queue]
      exact procMsg_session sound queue recovers

theorem recovers_step (sound : w.Sound) (recovers : w.Recovers) (h : step g w l = some t) :
    t.Recovers ↔ w.Careful l := by
  have agrees := agrees_step sound recovers h
  constructor
  · exact fun after => agrees.mp after.session
  · exact fun careful => (recovers_iff (sound_step sound careful h)).mpr (agrees.mpr careful)

end Steps

section Runs
variable {g : NmeaGenerator P} {w t : World P} {ls : List (Label P)}

theorem sound_of_isInit (init : w.IsInit) : w.Sound where
  queued ret mem := by
    rw [init.msgs] at mem
    exact absurd mem List.not_mem_nil
  held tracks := by
    rw [init.tracking] at tracks
    cases tracks
  served _ on := by
    rw [isInSession, init.data.mNavigating] at on
    cases on

theorem recovers_of_isInit (init : w.IsInit) : w.Recovers := by
  refine (recovers_iff (sound_of_isInit init)).mpr ?_
  rw [restartWaits, init.msgs, isInSession, init.data.mNavigating, init.wanted]
  rfl

instance (w : World P) : (l : Label P) → Decidable (w.Careful l)
  | .start | .send _ | .measurement _ | .engineDown | .engineUp => isTrue trivial
  | .proc ret =>
      match h : w.msgs with
      | [] => isTrue (by rw [Careful, h]; trivial)
      | .startFix _ :: msgs =>
          decidable_of_iff (turnedDown w.data ret = true → msgs.any Queued.isAgain = true)
            (by rw [Careful, h])
      | .other msg :: _ =>
          decidable_of_iff (takesBack w.data msg = true → w.restartWaits = false)
            (by rw [Careful, h])

def ready : World plain := ⟨start, [], true, false, false⟩

/-- The modem restarts during a session, and the framework stops it after that. -/
def restartThenStop : List (Label plain) :=
  [.start, .proc 0, .engineDown, .engineUp, .proc 0, .proc 0, .proc 0, .send .stopFix, .proc 0]

/-- The modem is busy when the session is to be resumed. -/
example : ¬ Meets (step silentGenerator) Careful ready
    [.start, .proc 0, .engineDown, .engineUp, .proc 0, .proc 0, .proc 6] := by
  decide +kernel

/-- The stop comes before the restart is processed, finds no session, and the session goes on. -/
example : ¬ Meets (step silentGenerator) Careful ready
    [.start, .proc 0, .engineDown, .engineUp, .send .stopFix, .proc 0, .proc 0, .proc 0] := by
  decide +kernel

end Runs
end World
end Msm8974.Recovery
