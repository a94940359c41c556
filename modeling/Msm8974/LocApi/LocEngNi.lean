import Mathlib.Logic.Function.Basic
import Msm8974.Library.Runs
import Msm8974.Library.Traces
import Msm8974.LocApi.LocEng

/-!
loc_eng_ni.cpp: the two network-initiated sessions and the thread that every accepted
request leaves behind to wait for the user. Requests are numbered in the order they are
accepted; the number also names the payload the request came with and its thread. A
thread's wait on the condition variable gives up the lock, so the locked section of
ni_thread_proc is a start, a wake-up and what lies between.
-/

namespace Msm8974.LocEngNi
open Msm8974.LocEng (LocMuteSession)

abbrev GpsUserResponseType := Int

def GPS_NI_RESPONSE_ACCEPT : GpsUserResponseType := 1
def GPS_NI_RESPONSE_DENY : GpsUserResponseType := 2
def GPS_NI_RESPONSE_NORESP : GpsUserResponseType := 3
def GPS_NI_RESPONSE_IGNORE : GpsUserResponseType := 4

def GPS_NI_TYPE_EMERGENCY_SUPL : BitVec 32 := 4
def GPS_NI_PRIVACY_OVERRIDE : BitVec 32 := 4
def LOC_NI_NO_RESPONSE_TIME : Int := 20

structure GpsNiNotification where
  ni_type : BitVec 32
  notify_flags : BitVec 32
  timeout : Int
  deriving DecidableEq, Repr

inductive NiSlot
  | session | sessionEs
  deriving DecidableEq, Repr

structure LocEngNiSession where
  respTimeLeft : Int
  respRecvd : Bool
  rawRequest : Option Nat
  reqID : BitVec 32
  resp : GpsUserResponseType
  deriving DecidableEq, Repr

structure LocEngInformNiResponse where
  mResponse : GpsUserResponseType
  mPayload : Nat
  deriving DecidableEq, Repr

/-- Where ni_thread_proc stands. `waiting` is blocked in pthread_cond_timedwait; `woken`
and `timedOut` have left it and still have to take the lock again; `unlocked` has left the
locked section with the message it is going to send. -/
inductive NiThread
  | notCreated
  | created
  | waiting (expire_time : Int)
  | woken (expire_time : Int)
  | timedOut
  | unlocked (msg : Option LocEngInformNiResponse)
  | exited
  deriving DecidableEq, Repr

/-- The thread still has its locked section, or the rest of it, before it. -/
def NiThread.Unfinished : NiThread → Prop
  | .created | .waiting _ | .woken _ | .timedOut => True
  | .notCreated | .unlocked _ | .exited => False

instance : DecidablePred NiThread.Unfinished
  | .created | .waiting _ | .woken _ | .timedOut => instDecidableTrue
  | .notCreated | .unlocked _ | .exited => instDecidableFalse

/-- An accepted request. The deadline counts its time for an answer from its acceptance. -/
structure NiRequest where
  slot : NiSlot
  notification_id : BitVec 32
  deadline : Int
  thread : NiThread
  deriving DecidableEq, Repr

inductive NiEvent
  | notify (request : Nat) (notification_id : BitVec 32)
  | respond (notif_id : BitVec 32) (user_response : GpsUserResponseType)
  | timedOut (thread : Nat)
  | inform (thread : Nat) (msg : LocEngInformNiResponse)
  deriving DecidableEq, Repr

structure NiWorld where
  ni_notify_cb : Bool
  sessions : NiSlot → LocEngNiSession
  reqIDCounter : BitVec 32
  mute_session_state : LocMuteSession
  /-- gettimeofday, in microseconds -/
  now : Int
  requests : List NiRequest
  log : List NiEvent

namespace NiWorld

def record (e : NiEvent) (w : NiWorld) : NiWorld := { w with log := w.log ++ [e] }

def setSession (slot : NiSlot) (s : LocEngNiSession) (w : NiWorld) : NiWorld :=
  { w with sessions := Function.update w.sessions slot s }

def updateThreads (f : Nat → NiRequest → NiThread) (w : NiWorld) : NiWorld :=
  { w with requests := w.requests.mapIdx fun t req => { req with thread := f t req } }

def setThread (t : Nat) (p : NiThread) (w : NiWorld) : NiWorld :=
  w.updateThreads fun i req => if i = t then p else req.thread

/-- The session the request handler takes a notification of this type for. -/
def admits (ni_type : BitVec 32) (w : NiWorld) : Option NiSlot :=
  if ni_type = GPS_NI_TYPE_EMERGENCY_SUPL then
    if (w.sessions .sessionEs).rawRequest.isSome then none else some .sessionEs
  else
    if (w.sessions .session).rawRequest.isSome ∨ (w.sessions .sessionEs).rawRequest.isSome then none
    else some .session

def respTimeLeft (notif : GpsNiNotification) : Int :=
  5 + if notif.timeout ≠ 0 then notif.timeout else LOC_NI_NO_RESPONSE_TIME

def seconds (s : Int) : Int := s * 1000000

/-- The request handler once it has a session; `passThrough` says that the payload is not
NULL, `created` that pthread_create succeeds. -/
def accept (slot : NiSlot) (notif : GpsNiNotification) (passThrough created : Bool)
    (w : NiWorld) : NiWorld :=
  let n := w.requests.length
  let reqID := w.reqIDCounter + 1
  { w with
    sessions := Function.update w.sessions slot
      { w.sessions slot with
        rawRequest := if passThrough then some n else none
        reqID := reqID
        respTimeLeft := respTimeLeft notif }
    reqIDCounter := reqID
    mute_session_state :=
      if notif.notify_flags = GPS_NI_PRIVACY_OVERRIDE then .wait else w.mute_session_state
    requests := w.requests ++
      [{ slot := slot
         notification_id := reqID
         deadline := w.now + seconds (respTimeLeft notif)
         thread := if created then .created else .notCreated }]
    log := w.log ++ [.notify n reqID] }

def requestHandler (notif : GpsNiNotification) (passThrough created : Bool) (w : NiWorld) :
    NiWorld :=
  if w.ni_notify_cb then
    match w.admits notif.ni_type with
    | some slot => w.accept slot notif passThrough created
    | none => w
  else w

def wakeUp : NiThread → NiThread
  | .waiting expire_time => .woken expire_time
  | p => p

def waitsIn (slot : NiSlot) (req : NiRequest) : Bool :=
  req.slot = slot && match req.thread with
    | .waiting _ => true
    | _ => false

/-- Some thread that waits in the session is among `woken`, or none waits there. -/
def Wakes (slot : NiSlot) (woken : List Nat) (w : NiWorld) : Prop :=
  (∃ t ∈ woken, ∃ req ∈ w.requests[t]?, waitsIn slot req) ∨
    ∀ req ∈ w.requests, waitsIn slot req = false

instance (slot : NiSlot) (woken : List Nat) (w : NiWorld) : Decidable (Wakes slot woken w) :=
  inferInstanceAs (Decidable (_ ∨ _))

def wakeThreads (slot : NiSlot) (woken : List Nat) (w : NiWorld) : NiWorld :=
  w.updateThreads fun t req =>
    if req.slot = slot ∧ t ∈ woken then wakeUp req.thread else req.thread

/-- pthread_cond_signal: it unblocks at least one of the threads that wait, `woken` says
which. -/
def signal (slot : NiSlot) (woken : List Nat) (w : NiWorld) : Option NiWorld :=
  if Wakes slot woken w then some (w.wakeThreads slot woken) else none

/-- An answer put into a session under its lock. -/
def answer (slot : NiSlot) (user_response : GpsUserResponseType) (woken : List Nat)
    (w : NiWorld) : Option NiWorld :=
  (w.setSession slot { w.sessions slot with resp := user_response, respRecvd := true }).signal
    slot woken

/-- The session a user response is for. -/
def respondSession (notif_id : BitVec 32) (w : NiWorld) : Option NiSlot :=
  if notif_id = (w.sessions .sessionEs).reqID ∧ (w.sessions .sessionEs).rawRequest.isSome then
    some .sessionEs
  else if notif_id = (w.sessions .session).reqID ∧ (w.sessions .session).rawRequest.isSome then
    some .session
  else none

/-- An accepted SUPL ES request has the other one ignored. -/
def ignoreSession (slot : NiSlot) (user_response : GpsUserResponseType) (woken : List Nat)
    (w : NiWorld) : Option NiWorld :=
  if slot = .sessionEs ∧ user_response = GPS_NI_RESPONSE_ACCEPT ∧
      (w.sessions .session).rawRequest.isSome then
    w.answer .session GPS_NI_RESPONSE_IGNORE woken
  else some w

def respond (notif_id : BitVec 32) (user_response : GpsUserResponseType) (woken : List Nat)
    (w : NiWorld) : Option NiWorld :=
  let w := w.record (.respond notif_id user_response)
  if w.ni_notify_cb then
    match w.respondSession notif_id with
    | some slot => do
        let w ← w.ignoreSession slot user_response woken
        w.answer slot user_response woken
    | none => some w
  else some w

/-- loc_eng_ni_reset_on_engine_restart, for one session. -/
def reset (slot : NiSlot) (woken : List Nat) (w : NiWorld) : Option NiWorld :=
  if (w.sessions slot).rawRequest.isSome then
    (w.setSession slot { w.sessions slot with rawRequest := none, respRecvd := true }).signal
      slot woken
  else some w

def resetOnEngineRestart (woken : List Nat) (w : NiWorld) : Option NiWorld :=
  if w.ni_notify_cb then do
    let w ← w.reset .sessionEs woken
    w.reset .session woken
  else some w

/-- The locked section after the loop. -/
def leaveLoop (t : Nat) (slot : NiSlot) (w : NiWorld) : NiWorld :=
  let s := w.sessions slot
  let msg : Option LocEngInformNiResponse :=
    if s.resp ≠ GPS_NI_RESPONSE_IGNORE then s.rawRequest.map (⟨s.resp, ·⟩) else none
  (w.setSession slot { s with respRecvd := false, rawRequest := none }).setThread t (.unlocked msg)

/-- The head of the loop, with the lock held. -/
def loop (t : Nat) (slot : NiSlot) (expire_time : Int) (w : NiWorld) : NiWorld :=
  if !(w.sessions slot).respRecvd then w.setThread t (.waiting expire_time) else w.leaveLoop t slot

def expireWait (t : Nat) (slot : NiSlot) (w : NiWorld) : NiWorld :=
  (w.setSession slot { w.sessions slot with resp := GPS_NI_RESPONSE_NORESP }).leaveLoop t slot

def tail (t : Nat) (slot : NiSlot) (msg : Option LocEngInformNiResponse) (w : NiWorld) : NiWorld :=
  let w := (w.setSession slot { w.sessions slot with respTimeLeft := 0, reqID := 0 }).setThread t
    .exited
  match msg with
  | some msg => w.record (.inform t msg)
  | none => w

end NiWorld

/-- The atomic steps, and the passing of time. A `wake` is a thread that gets its lock back
after a wait, a `timeout` or a spurious wake-up ends the wait alone. -/
inductive Label
  | tick (elapsed : Nat)
  | request (notif : GpsNiNotification) (passThrough created : Bool)
  | respond (notif_id : BitVec 32) (user_response : GpsUserResponseType) (woken : List Nat)
  | restart (woken : List Nat)
  | start (t : Nat)
  | spurious (t : Nat)
  | timeout (t : Nat)
  | wake (t : Nat)
  | tail (t : Nat)
  deriving DecidableEq, Repr

/-- The thread that takes the step. -/
def Label.thread : Label → Option Nat
  | .start t | .spurious t | .timeout t | .wake t | .tail t => some t
  | _ => none

open NiWorld

/-- A step of thread `t`, from where it stands. -/
def threadStep (w : NiWorld) (t : Nat) (f : NiRequest → Option NiWorld) : Option NiWorld :=
  w.requests[t]?.bind f

def step (w : NiWorld) : Label → Option NiWorld
  | .tick elapsed => some { w with now := w.now + elapsed }
  | .request notif passThrough created => some (w.requestHandler notif passThrough created)
  | .respond notif_id user_response woken => w.respond notif_id user_response woken
  | .restart woken => w.resetOnEngineRestart woken
  | .start t => threadStep w t fun req =>
      match req.thread with
      | .created => some (w.loop t req.slot (w.now + seconds (w.sessions req.slot).respTimeLeft))
      | _ => none
  | .spurious t => threadStep w t fun req =>
      match req.thread with
      | .waiting expire_time => some (w.setThread t (.woken expire_time))
      | _ => none
  | .timeout t => threadStep w t fun req =>
      match req.thread with
      | .waiting expire_time =>
          if expire_time ≤ w.now then some ((w.setThread t .timedOut).record (.timedOut t))
          else none
      | _ => none
  | .wake t => threadStep w t fun req =>
      match req.thread with
      | .woken expire_time => some (w.loop t req.slot expire_time)
      | .timedOut => some (w.expireWait t req.slot)
      | _ => none
  | .tail t => threadStep w t fun req =>
      match req.thread with
      | .unlocked msg => some (w.tail t req.slot msg)
      | _ => none

/-- loc_eng_ni_init: both sessions empty, nothing asked or answered yet. -/
structure IsInit (w : NiWorld) : Prop where
  ni_notify_cb : w.ni_notify_cb = true
  sessions : ∀ slot, (w.sessions slot).respTimeLeft = 0 ∧ (w.sessions slot).respRecvd = false ∧
    (w.sessions slot).rawRequest = none ∧ (w.sessions slot).reqID = 0
  requests : w.requests = []
  log : w.log = []

variable {w u : NiWorld}

namespace NiWorld

@[simp] theorem setSession_self (slot : NiSlot) (s : LocEngNiSession) (w : NiWorld) :
    (w.setSession slot s).sessions slot = s := Function.update_self ..

theorem setSession_of_ne {slot other : NiSlot} (s : LocEngNiSession) (w : NiWorld)
    (h : other ≠ slot) : (w.setSession slot s).sessions other = w.sessions other :=
  Function.update_of_ne h ..

@[simp] theorem wakeThreads_sessions (slot : NiSlot) (woken : List Nat) (w : NiWorld) :
    (w.wakeThreads slot woken).sessions = w.sessions := rfl

theorem updateThreads_getElem? (f : Nat → NiRequest → NiThread) (w : NiWorld) (t : Nat) :
    (w.updateThreads f).requests[t]? =
      w.requests[t]?.map fun req => { req with thread := f t req } :=
  List.getElem?_mapIdx

theorem of_updateThreads {f : Nat → NiRequest → NiThread} {t : Nat} {req : NiRequest}
    (h : (w.updateThreads f).requests[t]? = some req) :
    ∃ old, w.requests[t]? = some old ∧ req = { old with thread := f t old } := by
  rw [updateThreads_getElem?] at h
  obtain ⟨old, found, rfl⟩ := Option.map_eq_some_iff.mp h
  exact ⟨old, found, rfl⟩

section Accept
variable {slot : NiSlot} {notif : GpsNiNotification} {passThrough created : Bool}

/-- The request that `accept` adds. -/
def accepted (slot : NiSlot) (notif : GpsNiNotification) (created : Bool) (w : NiWorld) :
    NiRequest where
  slot := slot
  notification_id := w.reqIDCounter + 1
  deadline := w.now + seconds (respTimeLeft notif)
  thread := if created then .created else .notCreated

theorem accept_new : (w.accept slot notif passThrough created).requests[w.requests.length]? =
    some (w.accepted slot notif created) := by
  simp [accept, accepted]

theorem accept_getElem? {t : Nat} {req : NiRequest} (h : w.requests[t]? = some req) :
    (w.accept slot notif passThrough created).requests[t]? = some req := by
  have bound : t < w.requests.length := (List.getElem?_eq_some_iff.mp h).1
  simpa [accept, List.getElem?_append_left bound] using h

theorem of_accept {t : Nat} {req : NiRequest}
    (h : (w.accept slot notif passThrough created).requests[t]? = some req) :
    w.requests[t]? = some req ∨ (t = w.requests.length ∧ req = w.accepted slot notif created) := by
  rcases Nat.lt_trichotomy t w.requests.length with old | rfl | beyond
  · left
    simpa [accept, List.getElem?_append_left old] using h
  · right
    rw [accept_new] at h
    exact ⟨rfl, (Option.some.inj h).symm⟩
  · have bound := (List.getElem?_eq_some_iff.mp h).1
    simp [accept] at bound
    omega

theorem accept_rawRequest {n : Nat}
    (h : ((w.accept slot notif passThrough created).sessions slot).rawRequest = some n) :
    passThrough = true ∧ n = w.requests.length := by
  simp only [accept, Function.update_self] at h
  cases passThrough with
  | true => exact ⟨rfl, (Option.some.inj h).symm⟩
  | false => cases h

theorem accept_sessions_of_ne {other : NiSlot} (h : other ≠ slot) :
    (w.accept slot notif passThrough created).sessions other = w.sessions other :=
  Function.update_of_ne h ..

end Accept

theorem signal_eq {slot : NiSlot} {woken : List Nat} (h : w.signal slot woken = some u) :
    u = w.wakeThreads slot woken := by
  simp only [signal] at h
  split at h
  · exact (Option.some.inj h).symm
  · cases h

theorem rawRequest_of_admits {ni_type : BitVec 32} {slot : NiSlot}
    (h : w.admits ni_type = some slot) : (w.sessions slot).rawRequest = none := by
  simp only [admits] at h
  split at h
  · split at h
    · cases h
    · rename_i free
      obtain rfl := Option.some.inj h
      simpa using free
  · split at h
    · cases h
    · rename_i free
      obtain rfl := Option.some.inj h
      simp only [not_or, Option.not_isSome_iff_eq_none] at free
      exact free.1

theorem requestHandler_cases (notif : GpsNiNotification) (passThrough created : Bool)
    (w : NiWorld) :
    w.requestHandler notif passThrough created = w ∨
      ∃ slot, w.admits notif.ni_type = some slot ∧
        w.requestHandler notif passThrough created = w.accept slot notif passThrough created := by
  simp only [requestHandler]
  split
  · split
    · rename_i slot admitted
      exact .inr ⟨slot, admitted, rfl⟩
    · exact .inl rfl
  · exact .inl rfl

theorem ignoreSession_cases {slot : NiSlot} {r : GpsUserResponseType} {woken : List Nat}
    (h : w.ignoreSession slot r woken = some u) :
    u = w ∨ (slot = .sessionEs ∧ r = GPS_NI_RESPONSE_ACCEPT ∧
      w.answer .session GPS_NI_RESPONSE_IGNORE woken = some u) := by
  simp only [ignoreSession] at h
  split at h
  · rename_i es
    exact .inr ⟨es.1, es.2.1, h⟩
  · exact .inl (Option.some.inj h).symm

theorem reset_cases {slot : NiSlot} {woken : List Nat} (h : w.reset slot woken = some u) :
    u = w ∨ (w.setSession slot { w.sessions slot with
      rawRequest := none
      respRecvd := true }).signal slot woken = some u := by
  simp only [reset] at h
  split at h
  · exact .inr h
  · exact .inl (Option.some.inj h).symm

theorem restart_cases {woken : List Nat} (h : w.resetOnEngineRestart woken = some u) :
    u = w ∨ ∃ v, w.reset .sessionEs woken = some v ∧ v.reset .session woken = some u := by
  simp only [resetOnEngineRestart] at h
  split at h
  · exact .inr (Option.bind_eq_some_iff.mp h)
  · exact .inl (Option.some.inj h).symm

theorem loop_cases (t : Nat) (slot : NiSlot) (expire_time : Int) (w : NiWorld) :
    ((w.sessions slot).respRecvd = false ∧
      w.loop t slot expire_time = w.setThread t (.waiting expire_time)) ∨
    ((w.sessions slot).respRecvd = true ∧ w.loop t slot expire_time = w.leaveLoop t slot) := by
  simp only [loop]
  split
  · rename_i waits
    exact .inl ⟨by simpa using waits, rfl⟩
  · rename_i received
    exact .inr ⟨by simpa using received, rfl⟩

theorem respond_cases {notif_id : BitVec 32} {r : GpsUserResponseType} {woken : List Nat}
    (h : w.respond notif_id r woken = some u) :
    u = w.record (.respond notif_id r) ∨ ∃ slot v, w.respondSession notif_id = some slot ∧
      (w.record (.respond notif_id r)).ignoreSession slot r woken = some v ∧
      v.answer slot r woken = some u := by
  simp only [respond] at h
  split at h
  · split at h
    · rename_i slot matched
      obtain ⟨v, ignored, answered⟩ := Option.bind_eq_some_iff.mp h
      exact .inr ⟨slot, v, matched, ignored, answered⟩
    · exact .inl (Option.some.inj h).symm
  · exact .inl (Option.some.inj h).symm

theorem respond_matched {notif_id : BitVec 32} {r : GpsUserResponseType} {woken : List Nat}
    {slot : NiSlot} (registered : w.ni_notify_cb = true)
    (matched : w.respondSession notif_id = some slot)
    (h : w.respond notif_id r woken = some u) :
    ∃ v, (w.record (.respond notif_id r)).ignoreSession slot r woken = some v ∧
      v.answer slot r woken = some u := by
  have session : (w.record (.respond notif_id r)).respondSession notif_id = some slot := matched
  have callback : (w.record (.respond notif_id r)).ni_notify_cb = true := registered
  simp only [respond, callback, session, if_true] at h
  exact Option.bind_eq_some_iff.mp h

theorem answer_eq {slot : NiSlot} {r : GpsUserResponseType} {woken : List Nat}
    (h : w.answer slot r woken = some u) :
    u = (w.setSession slot { w.sessions slot with resp := r, respRecvd := true }).wakeThreads slot
      woken :=
  signal_eq h

/-- Ignoring the other session leaves the answered one as it is. -/
theorem ignoreSession_frame {slot : NiSlot} {r : GpsUserResponseType} {woken : List Nat}
    (h : w.ignoreSession slot r woken = some u) :
    u.sessions slot = w.sessions slot ∧ u.log = w.log := by
  rcases ignoreSession_cases h with rfl | ⟨rfl, -, ignored⟩
  · exact ⟨rfl, rfl⟩
  · have other : NiSlot.sessionEs ≠ NiSlot.session := by decide
    rw [answer_eq ignored]
    refine ⟨?_, rfl⟩
    rw [wakeThreads_sessions, setSession_of_ne _ w other]

theorem signal_other {slot : NiSlot} {woken : List Nat} {n : Nat} {req : NiRequest}
    (hs : w.signal slot woken = some u) (found : w.requests[n]? = some req)
    (other : req.slot ≠ slot) : u.requests[n]? = some req := by
  rw [signal_eq hs, wakeThreads, updateThreads_getElem?, found]
  simp [other]

theorem ignoreSession_own {n : Nat} {req : NiRequest} {r : GpsUserResponseType}
    {woken : List Nat} (h : w.ignoreSession req.slot r woken = some u)
    (found : w.requests[n]? = some req) : u.requests[n]? = some req := by
  rcases ignoreSession_cases h with rfl | ⟨es, -, ignored⟩
  · exact found
  · refine signal_other (w := w.setSession .session _) ignored found ?_
    rw [es]
    decide

theorem expireWait_eq (t : Nat) (slot : NiSlot) (w : NiWorld) :
    w.expireWait t slot =
      (w.setSession slot { w.sessions slot with
        resp := GPS_NI_RESPONSE_NORESP
        respRecvd := false
        rawRequest := none }).setThread t
          (.unlocked ((w.sessions slot).rawRequest.map (⟨GPS_NI_RESPONSE_NORESP, ·⟩))) := by
  have kept : GPS_NI_RESPONSE_NORESP ≠ GPS_NI_RESPONSE_IGNORE := by decide
  simp [expireWait, leaveLoop, setSession, kept]

theorem setThread_self {t : Nat} {req : NiRequest} (h : w.requests[t]? = some req) (p : NiThread) :
    (w.setThread t p).requests[t]? = some { req with thread := p } := by
  simp [setThread, updateThreads_getElem?, h]

theorem setThread_of_ne {t n : Nat} {req : NiRequest} (other : t ≠ n)
    (h : w.requests[n]? = some req) (p : NiThread) :
    (w.setThread t p).requests[n]? = some req := by
  simp [setThread, updateThreads_getElem?, h, other.symm]

theorem loop_sessions_of_ne {t : Nat} {slot other : NiSlot} (h : other ≠ slot)
    (expire_time : Int) (w : NiWorld) :
    (w.loop t slot expire_time).sessions other = w.sessions other := by
  rcases loop_cases t slot expire_time w with ⟨-, waits⟩ | ⟨-, leaves⟩
  · rw [waits]
    rfl
  · rw [leaves]
    exact setSession_of_ne _ w h

theorem loop_of_ne {t n : Nat} {req : NiRequest} (other : t ≠ n) (h : w.requests[n]? = some req)
    (slot : NiSlot) (expire_time : Int) :
    (w.loop t slot expire_time).requests[n]? = some req := by
  rcases loop_cases t slot expire_time w with ⟨-, waits⟩ | ⟨-, leaves⟩
  · exact waits ▸ setThread_of_ne other h _
  · exact leaves ▸ setThread_of_ne other h _

/-- A thread that finds an answer takes it along with the payload. -/
theorem loop_answered {t n : Nat} {slot : NiSlot} {req : NiRequest}
    (found : w.requests[t]? = some req) (held : (w.sessions slot).rawRequest = some n)
    (received : (w.sessions slot).respRecvd = true)
    (sendable : (w.sessions slot).resp ≠ GPS_NI_RESPONSE_IGNORE) (expire_time : Int) :
    (w.loop t slot expire_time).requests[t]? =
      some { req with thread := .unlocked (some ⟨(w.sessions slot).resp, n⟩) } := by
  have taken : w.loop t slot expire_time = w.leaveLoop t slot := by simp [loop, received]
  rw [taken]
  simpa [leaveLoop, held, sendable] using
    setThread_self (w := w.setSession slot _) found (.unlocked (some ⟨(w.sessions slot).resp, n⟩))

theorem tail_of_ne {t n : Nat} {req : NiRequest} (other : t ≠ n) (h : w.requests[n]? = some req)
    (slot : NiSlot) (msg : Option LocEngInformNiResponse) :
    (w.tail t slot msg).requests[n]? = some req := by
  cases msg <;> exact setThread_of_ne other h _

theorem tail_self {t : Nat} {req : NiRequest} (h : w.requests[t]? = some req)
    (slot : NiSlot) (msg : Option LocEngInformNiResponse) :
    (w.tail t slot msg).requests[t]? = some { req with thread := .exited } := by
  cases msg <;> exact setThread_self h _

theorem tail_sessions (t : Nat) (slot : NiSlot) (msg : Option LocEngInformNiResponse)
    (w : NiWorld) :
    (w.tail t slot msg).sessions =
      (w.setSession slot { w.sessions slot with respTimeLeft := 0, reqID := 0 }).sessions := by
  cases msg <;> rfl

theorem loop_log (t : Nat) (slot : NiSlot) (expire_time : Int) (w : NiWorld) :
    (w.loop t slot expire_time).log = w.log := by
  rcases loop_cases t slot expire_time w with ⟨-, waits⟩ | ⟨-, leaves⟩
  · exact waits ▸ rfl
  · exact leaves ▸ rfl

theorem signal_still {slot : NiSlot} {woken : List Nat} {n : Nat} {req : NiRequest}
    (hs : w.signal slot woken = some u) (found : w.requests[n]? = some req)
    (still : wakeUp req.thread = req.thread) : u.requests[n]? = some req := by
  rw [signal_eq hs, wakeThreads, updateThreads_getElem?, found]
  simp [still]

theorem wakeUp_unfinished {p : NiThread} : (wakeUp p).Unfinished ↔ p.Unfinished := by
  cases p <;> rfl

theorem wakeUp_eq_timedOut {p : NiThread} : wakeUp p = .timedOut ↔ p = .timedOut := by
  cases p <;> simp [wakeUp]

theorem wakeUp_eq_unlocked {p : NiThread} {msg : Option LocEngInformNiResponse} :
    wakeUp p = .unlocked msg ↔ p = .unlocked msg := by
  cases p <;> simp [wakeUp]

end NiWorld

/-- What thread `t` of request `req` does in a step, by where it stands. -/
inductive ThreadMove (w : NiWorld) (t : Nat) (req : NiRequest) : Label → NiWorld → Prop
  | start (created : req.thread = .created) : ThreadMove w t req (.start t)
      (w.loop t req.slot (w.now + seconds (w.sessions req.slot).respTimeLeft))
  | spurious {e : Int} (waits : req.thread = .waiting e) : ThreadMove w t req (.spurious t)
      (w.setThread t (.woken e))
  | timeout {e : Int} (waits : req.thread = .waiting e) (due : e ≤ w.now) :
      ThreadMove w t req (.timeout t) ((w.setThread t .timedOut).record (.timedOut t))
  | wake {e : Int} (woken : req.thread = .woken e) : ThreadMove w t req (.wake t)
      (w.loop t req.slot e)
  | expire (due : req.thread = .timedOut) : ThreadMove w t req (.wake t) (w.expireWait t req.slot)
  | tail {msg : Option LocEngInformNiResponse} (sends : req.thread = .unlocked msg) :
      ThreadMove w t req (.tail t) (w.tail t req.slot msg)

theorem threadMove_of_step {l : Label} {t : Nat} (taken : step w l = some u)
    (own : l.thread = some t) : ∃ req, w.requests[t]? = some req ∧ ThreadMove w t req l u := by
  cases l with
  | start t' =>
      cases own
      obtain ⟨req, found, h⟩ := Option.bind_eq_some_iff.mp taken
      cases p : req.thread with
      | created =>
          simp only [p, Option.some.injEq] at h
          exact ⟨req, found, h ▸ .start p⟩
      | _ => simp [p] at h
  | spurious t' =>
      cases own
      obtain ⟨req, found, h⟩ := Option.bind_eq_some_iff.mp taken
      cases p : req.thread with
      | waiting e =>
          simp only [p, Option.some.injEq] at h
          exact ⟨req, found, h ▸ .spurious p⟩
      | _ => simp [p] at h
  | timeout t' =>
      cases own
      obtain ⟨req, found, h⟩ := Option.bind_eq_some_iff.mp taken
      cases p : req.thread with
      | waiting e =>
          simp only [p, Option.ite_none_right_eq_some, Option.some.injEq] at h
          exact ⟨req, found, h.2 ▸ .timeout p h.1⟩
      | _ => simp [p] at h
  | wake t' =>
      cases own
      obtain ⟨req, found, h⟩ := Option.bind_eq_some_iff.mp taken
      cases p : req.thread with
      | woken e =>
          simp only [p, Option.some.injEq] at h
          exact ⟨req, found, h ▸ .wake p⟩
      | timedOut =>
          simp only [p, Option.some.injEq] at h
          exact ⟨req, found, h ▸ .expire p⟩
      | _ => simp [p] at h
  | tail t' =>
      cases own
      obtain ⟨req, found, h⟩ := Option.bind_eq_some_iff.mp taken
      cases p : req.thread with
      | unlocked msg =>
          simp only [p, Option.some.injEq] at h
          exact ⟨req, found, h ▸ .tail p⟩
      | _ => simp [p] at h
  | _ => cases own

theorem threadMove_of_found {l : Label} {t : Nat} {req : NiRequest} (taken : step w l = some u)
    (own : l.thread = some t) (found : w.requests[t]? = some req) : ThreadMove w t req l u := by
  obtain ⟨other, found', move⟩ := threadMove_of_step taken own
  obtain rfl := Option.some.inj (found.symm.trans found')
  exact move

end Msm8974.LocEngNi
