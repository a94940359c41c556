import Mathlib.Data.List.Nodup
import Msm8974.LocApi.NiAttribution

/-!
Who owns the raw payload of an NI request. The request handler is given it and either frees it
or leaves it in a session; the thread that takes it from there frees it or wraps it into the
message it sends, and the message frees it once the modem has its answer. A restart frees
what the sessions hold.
-/

namespace Msm8974.NiPayload
open scoped List
open Msm8974.Runs Msm8974.Traces Msm8974.LocEngNi Msm8974.LocEngNi.NiWorld

inductive PayloadEvent (P : Type)
  | received (passThrough : P)
  | answered (response : GpsUserResponseType) (passThrough : P)
  | freed (passThrough : P)
  deriving DecidableEq, Repr

/-- The module with the payloads of the requests it accepted, the responses that wait in the
adapter's queue, and what happened to the payloads. -/
structure World (P : Type) where
  ni : NiWorld
  payloads : List P
  msgs : List LocEngInformNiResponse
  log : List (PayloadEvent P)

/-- The payload an ignored request has its thread free. -/
def leaveLoopFrees (slot : NiSlot) (w : NiWorld) : List Nat :=
  let s := w.sessions slot
  if s.resp ≠ GPS_NI_RESPONSE_IGNORE then [] else s.rawRequest.toList

def loopFrees (slot : NiSlot) (w : NiWorld) : List Nat :=
  if !(w.sessions slot).respRecvd then [] else leaveLoopFrees slot w

def expireWaitFrees (slot : NiSlot) (w : NiWorld) : List Nat :=
  leaveLoopFrees slot (w.setSession slot { w.sessions slot with resp := GPS_NI_RESPONSE_NORESP })

def resetFrees (slot : NiSlot) (w : NiWorld) : List Nat :=
  (w.sessions slot).rawRequest.toList

def resetOnEngineRestartFrees (w : NiWorld) : List Nat :=
  if w.ni_notify_cb then resetFrees .sessionEs w ++ resetFrees .session w else []

/-- What a step of the module frees, a request apart. -/
def frees (w : NiWorld) : LocEngNi.Label → List Nat
  | .restart _ => resetOnEngineRestartFrees w
  | .start t => (w.requests[t]?.map fun req => loopFrees req.slot w).getD []
  | .wake t => (w.requests[t]?.map fun req =>
      match req.thread with
      | .timedOut => expireWaitFrees req.slot w
      | _ => loopFrees req.slot w).getD []
  | .tick _ | .request _ _ _ | .respond _ _ _ | .spurious _ | .timeout _ | .tail _ => []

/-- adapter->sendMsg at the end of a thread. -/
def sends (w : NiWorld) : LocEngNi.Label → List LocEngInformNiResponse
  | .tail t => (w.requests[t]?.map fun req =>
      match req.thread with
      | .unlocked msg => msg.toList
      | _ => []).getD []
  | _ => []

namespace World
variable {P : Type}

def record (es : List (PayloadEvent P)) (w : World P) : World P := { w with log := w.log ++ es }

/-- The payloads of these requests. -/
def payloadsOf (w : World P) (ns : List Nat) : List P := ns.filterMap (w.payloads[·]?)

def accept (slot : NiSlot) (notif : GpsNiNotification) (passThrough : P) (created : Bool)
    (w : World P) : World P :=
  { w with
    ni := w.ni.accept slot notif true created
    payloads := w.payloads ++ [passThrough] }

def requestHandler (notif : GpsNiNotification) (passThrough : P) (created : Bool) (w : World P) :
    World P :=
  let w := w.record [.received passThrough]
  if w.ni.ni_notify_cb then
    match w.ni.admits notif.ni_type with
    | some slot => w.accept slot notif passThrough created
    | none => w.record [.freed passThrough]
  else w

/-- MsgTask::run: proc answers the modem, the destructor frees. -/
def deliver (msg : LocEngInformNiResponse) (w : World P) : World P :=
  w.record ((w.payloadsOf [msg.mPayload]).flatMap fun p => [.answered msg.mResponse p, .freed p])

end World

/-- A request comes with its payload, which is not NULL. -/
inductive Label (P : Type)
  | request (notif : GpsNiNotification) (passThrough : P) (created : Bool)
  | ni (l : LocEngNi.Label)
  | deliver
  deriving DecidableEq

variable {P : Type}

def step (w : World P) : Label P → Option (World P)
  | .request notif passThrough created => some (w.requestHandler notif passThrough created)
  | .ni (.request _ _ _) => none
  | .ni l => do
      let ni ← LocEngNi.step w.ni l
      some { w with
        ni := ni
        msgs := w.msgs ++ sends w.ni l
        log := w.log ++ (w.payloadsOf (frees w.ni l)).map .freed }
  | .deliver =>
      match w.msgs with
      | msg :: msgs => some { w.deliver msg with msgs := msgs }
      | [] => none

structure IsInit (w : World P) : Prop where
  ni : LocEngNi.IsInit w.ni
  payloads : w.payloads = []
  msgs : w.msgs = []
  log : w.log = []

def holdsOf : NiThread → List Nat
  | .unlocked (some msg) => [msg.mPayload]
  | _ => []

def inSessions (w : NiWorld) : List Nat :=
  (w.sessions .sessionEs).rawRequest.toList ++ (w.sessions .session).rawRequest.toList

def inThreads (w : NiWorld) : List Nat := w.requests.flatMap fun req => holdsOf req.thread

/-- The requests whose payloads the sessions and the threads hold, once for each of them that
holds it. -/
def holds (w : NiWorld) : List Nat := inSessions w ++ inThreads w

namespace World

def holders (w : World P) : List Nat := holds w.ni ++ w.msgs.map (·.mPayload)

/-- The payloads held, once for each session slot, thread or queued message that holds it. -/
def held (w : World P) : List P := w.payloadsOf w.holders

end World

def received (log : List (PayloadEvent P)) : List P :=
  log.filterMap fun
    | .received p => some p
    | _ => none

def freed (log : List (PayloadEvent P)) : List P :=
  log.filterMap fun
    | .freed p => some p
    | _ => none

def answered (log : List (PayloadEvent P)) : List P :=
  log.filterMap fun
    | .answered _ p => some p
    | _ => none

def PayloadEvent.payload : PayloadEvent P → P
  | .received p | .answered _ p | .freed p => p

/-- The payload of the event has not been freed yet. -/
def Live (log : List (PayloadEvent P)) (e : PayloadEvent P) : Prop := .freed e.payload ∉ log

/-- The step from `w` to `u` leaves each payload where it is, or hands it on with `gone`. -/
structure HandsOver (gone : List Nat) (w u : NiWorld) : Prop where
  registered : u.ni_notify_cb = w.ni_notify_cb
  requests : u.requests.length = w.requests.length
  holds : ∀ n, (holds w).count n = gone.count n + (holds u).count n

theorem count_flatten_set {ls : List (List Nat)} {t : Nat} {old : List Nat}
    (found : ls[t]? = some old) (new : List Nat) (n : Nat) :
    ls.flatten.count n + new.count n = old.count n + (ls.set t new).flatten.count n := by
  induction ls generalizing t with
  | nil => cases found
  | cons first rest ih =>
      cases t with
      | zero =>
          obtain rfl := Option.some.inj found
          simp only [List.set_cons_zero, List.flatten_cons, List.count_append]
          omega
      | succ t =>
          have kept := ih (t := t) found
          simp only [List.set_cons_succ, List.flatten_cons, List.count_append]
          omega

theorem count_setThread {w : NiWorld} {t : Nat} {req : NiRequest}
    (found : w.requests[t]? = some req) (p : NiThread) (n : Nat) :
    (holds w).count n + (holdsOf p).count n =
      (holdsOf req.thread).count n + (holds (w.setThread t p)).count n := by
  have threads : inThreads (w.setThread t p) =
      ((w.requests.map fun req => holdsOf req.thread).set t (holdsOf p)).flatten := by
    refine congrArg List.flatten (List.ext_getElem? fun i => ?_)
    by_cases own : t = i
    · subst own
      simp [setThread_self found, (List.getElem?_eq_some_iff.mp found).1]
    · simp [NiWorld.setThread, updateThreads_getElem?, own, Ne.symm own]
  have sessions : inSessions (w.setThread t p) = inSessions w := rfl
  have here : (w.requests.map fun req => holdsOf req.thread)[t]? = some (holdsOf req.thread) := by
    simp [found]
  have exchanged := count_flatten_set here (holdsOf p) n
  have before : inThreads w = (w.requests.map fun req => holdsOf req.thread).flatten := rfl
  simp only [holds, List.count_append, sessions, threads, before]
  omega

namespace HandsOver
variable {w v u : NiWorld}

theorem refl (w : NiWorld) : HandsOver [] w w := ⟨rfl, rfl, fun _ => by simp⟩

theorem trans {first second : List Nat} (h : HandsOver first w v) (h' : HandsOver second v u) :
    HandsOver (first ++ second) w u := by
  refine ⟨h'.registered.trans h.registered, h'.requests.trans h.requests, fun n => ?_⟩
  rw [h.holds n, h'.holds n, List.count_append, Nat.add_assoc]

theorem record (e : NiEvent) (w : NiWorld) : HandsOver [] w (w.record e) :=
  ⟨rfl, rfl, fun _ => by simp [NiPayload.holds, inSessions, inThreads, NiWorld.record]⟩

/-- What the session no longer has is handed on. -/
theorem setSession (slot : NiSlot) (s : LocEngNiSession) (w : NiWorld) {gone : List Nat}
    (held : (w.sessions slot).rawRequest.toList = gone ++ s.rawRequest.toList) :
    HandsOver gone w (w.setSession slot s) := by
  refine ⟨rfl, rfl, fun n => ?_⟩
  have here := congrArg (List.count n) held
  have threads : inThreads (w.setSession slot s) = inThreads w := rfl
  cases slot with
  | session =>
      have apart : NiSlot.sessionEs ≠ .session := by decide
      have other := setSession_of_ne s w apart
      simp only [NiPayload.holds, inSessions, List.count_append, setSession_self, other,
        threads] at here ⊢
      omega
  | sessionEs =>
      have apart : NiSlot.session ≠ .sessionEs := by decide
      have other := setSession_of_ne s w apart
      simp only [NiPayload.holds, inSessions, List.count_append, setSession_self, other,
        threads] at here ⊢
      omega

theorem updateThreads {f : Nat → NiRequest → NiThread}
    (same : ∀ t req, holdsOf (f t req) = holdsOf req.thread) :
    HandsOver [] w (w.updateThreads f) := by
  have threads : inThreads (w.updateThreads f) = inThreads w := by
    refine congrArg List.flatten (List.ext_getElem? fun t => ?_)
    simp only [List.getElem?_map, updateThreads_getElem?, Option.map_map]
    exact congrArg (Option.map · _) (funext fun req => same t req)
  refine ⟨rfl, by simp [NiWorld.updateThreads], fun n => ?_⟩
  rw [NiPayload.holds, NiPayload.holds, threads]
  exact (Nat.zero_add _).symm

/-- What the thread no longer has is handed on. -/
theorem setThread {t : Nat} {req : NiRequest} (found : w.requests[t]? = some req) {p : NiThread}
    {gone : List Nat} (held : holdsOf req.thread = gone ++ holdsOf p) :
    HandsOver gone w (w.setThread t p) := by
  refine ⟨rfl, by simp [NiWorld.setThread, NiWorld.updateThreads], fun n => ?_⟩
  have here := congrArg (List.count n) held
  have exchanged := count_setThread found p n
  rw [List.count_append] at here
  omega

theorem wakeUp (p : NiThread) : holdsOf (NiWorld.wakeUp p) = holdsOf p := by
  cases p <;> rfl

theorem signal {slot : NiSlot} {woken : List Nat} (h : w.signal slot woken = some u) :
    HandsOver [] w u := by
  rw [signal_eq h]
  refine updateThreads fun t req => ?_
  split
  · exact wakeUp req.thread
  · rfl

theorem answer {slot : NiSlot} {r : GpsUserResponseType} {woken : List Nat}
    (h : w.answer slot r woken = some u) : HandsOver [] w u :=
  have answered : HandsOver [] w (w.setSession slot
    { w.sessions slot with resp := r, respRecvd := true }) := setSession slot _ w rfl
  answered.trans (signal h)

theorem respond {notif_id : BitVec 32} {r : GpsUserResponseType} {woken : List Nat}
    (h : w.respond notif_id r woken = some u) : HandsOver [] w u := by
  rcases respond_cases h with rfl | ⟨slot, v, -, ignored, answered⟩
  · exact record _ w
  · have ignoring : HandsOver [] (w.record (.respond notif_id r)) v := by
      rcases ignoreSession_cases ignored with rfl | ⟨-, -, ignores⟩
      · exact refl _
      · exact answer ignores
    exact ((record _ w).trans ignoring).trans (answer answered)

theorem reset {slot : NiSlot} {woken : List Nat} (h : w.reset slot woken = some u) :
    HandsOver (resetFrees slot w) w u := by
  simp only [NiWorld.reset] at h
  split at h
  · have emptied : HandsOver (resetFrees slot w) w (w.setSession slot
      { w.sessions slot with rawRequest := none, respRecvd := true }) :=
      setSession slot _ w (by simp [resetFrees])
    simpa using emptied.trans (signal h)
  · rename_i empty
    obtain rfl := Option.some.inj h
    have nothing : resetFrees slot w = [] := by simpa [resetFrees] using empty
    exact nothing ▸ refl w

theorem resetOnEngineRestart {woken : List Nat} (h : w.resetOnEngineRestart woken = some u) :
    HandsOver (resetOnEngineRestartFrees w) w u := by
  simp only [NiWorld.resetOnEngineRestart] at h
  rw [resetOnEngineRestartFrees]
  split at h
  · rename_i registered
    obtain ⟨v, es, ni⟩ := Option.bind_eq_some_iff.mp h
    have other : NiSlot.session ≠ .sessionEs := by decide
    have kept : resetFrees .session v = resetFrees .session w := by
      rcases reset_cases es with rfl | signalled
      · rfl
      · rw [signal_eq signalled, resetFrees, wakeThreads_sessions, setSession_of_ne _ w other]
        rfl
    rw [if_pos registered, ← kept]
    exact (reset es).trans (reset ni)
  · rename_i unregistered
    obtain rfl := Option.some.inj h
    rw [if_neg unregistered]
    exact refl w

theorem setThread_quiet {t : Nat} {req : NiRequest} (found : w.requests[t]? = some req)
    {p : NiThread} (running : holdsOf req.thread = []) (still : holdsOf p = []) :
    HandsOver [] w (w.setThread t p) :=
  setThread found (by rw [running, still]; rfl)

/-- A thread past its loop has the payload of its session, unless it freed it. -/
theorem leaveLoop {t : Nat} {req : NiRequest} (found : w.requests[t]? = some req)
    (running : holdsOf req.thread = []) (slot : NiSlot) :
    HandsOver (leaveLoopFrees slot w) w (w.leaveLoop t slot) := by
  let s := w.sessions slot
  let v := w.setSession slot { s with respRecvd := false, rawRequest := none }
  let msg : Option LocEngInformNiResponse :=
    if s.resp ≠ GPS_NI_RESPONSE_IGNORE then s.rawRequest.map (⟨s.resp, ·⟩) else none
  have leaves : w.leaveLoop t slot = v.setThread t (.unlocked msg) := rfl
  have emptied : HandsOver s.rawRequest.toList w v := setSession slot _ w (by simp [s])
  have shared : s.rawRequest.toList = leaveLoopFrees slot w ++ holdsOf (.unlocked msg) := by
    by_cases sendable : s.resp ≠ GPS_NI_RESPONSE_IGNORE
    · cases held : s.rawRequest <;> simp_all [leaveLoopFrees, s, msg, holdsOf]
    · simp_all [leaveLoopFrees, s, msg, holdsOf]
  rw [leaves]
  refine ⟨rfl, by simp [NiWorld.setThread, NiWorld.updateThreads, v, NiWorld.setSession],
    fun n => ?_⟩
  have left := emptied.holds n
  have takes := count_setThread (w := v) found (.unlocked msg) n
  rw [shared, List.count_append] at left
  rw [running, List.count_nil] at takes
  omega

theorem loop {t : Nat} {req : NiRequest} (found : w.requests[t]? = some req)
    (running : holdsOf req.thread = []) (slot : NiSlot) (expire_time : Int) :
    HandsOver (loopFrees slot w) w (w.loop t slot expire_time) := by
  rcases loop_cases t slot expire_time w with ⟨none, waits⟩ | ⟨received, leaves⟩
  · rw [waits, loopFrees, none]
    exact setThread_quiet found running rfl
  · rw [leaves, loopFrees, received]
    exact leaveLoop found running slot

theorem expireWait {t : Nat} {req : NiRequest} (found : w.requests[t]? = some req)
    (running : holdsOf req.thread = []) (slot : NiSlot) :
    HandsOver (expireWaitFrees slot w) w (w.expireWait t slot) := by
  let v := w.setSession slot { w.sessions slot with resp := GPS_NI_RESPONSE_NORESP }
  have noResponse : HandsOver [] w v := setSession slot _ w rfl
  exact noResponse.trans (leaveLoop (w := v) found running slot)

theorem tail {t : Nat} {req : NiRequest} {msg : Option LocEngInformNiResponse}
    (found : w.requests[t]? = some req) (sends : req.thread = .unlocked msg) (slot : NiSlot) :
    HandsOver (msg.toList.map (·.mPayload)) w (w.tail t slot msg) := by
  let v := w.setSession slot { w.sessions slot with respTimeLeft := 0, reqID := 0 }
  have cleared : HandsOver [] w v := setSession slot _ w rfl
  have exits : HandsOver (msg.toList.map (·.mPayload)) v (v.setThread t .exited) := by
    refine setThread (w := v) found ?_
    rw [sends]
    cases msg <;> rfl
  cases msg with
  | none => exact cleared.trans exits
  | some msg => exact (cleared.trans exits).trans (record _ _)

theorem threadMove {l : LocEngNi.Label} {t : Nat} {req : NiRequest}
    (found : w.requests[t]? = some req) (move : ThreadMove w t req l u) :
    HandsOver (frees w l ++ (sends w l).map (·.mPayload)) w u := by
  cases move with
  | start created =>
      have running : holdsOf req.thread = [] := created ▸ rfl
      simpa [frees, sends, found] using loop found running req.slot _
  | spurious waits => exact setThread_quiet found (waits ▸ rfl) rfl
  | timeout waits _ => exact (setThread_quiet found (waits ▸ rfl) rfl).trans (record _ _)
  | @wake e woken =>
      have running : holdsOf req.thread = [] := woken ▸ rfl
      simpa [frees, sends, found, woken] using loop found running req.slot e
  | expire due =>
      have running : holdsOf req.thread = [] := due ▸ rfl
      simpa [frees, sends, found, due] using expireWait found running req.slot
  | tail unlocked => simpa [frees, sends, found, unlocked] using tail found unlocked req.slot

/-- What a step of the module takes from sessions and threads it frees or sends. -/
theorem step {l : LocEngNi.Label} (accepts : ∀ notif passThrough created,
    l ≠ .request notif passThrough created) (taken : LocEngNi.step w l = some u) :
    HandsOver (frees w l ++ (sends w l).map (·.mPayload)) w u := by
  cases l with
  | tick elapsed =>
      obtain rfl := Option.some.inj taken
      exact ⟨rfl, rfl, fun n => (Nat.zero_add _).symm⟩
  | request notif passThrough created => exact absurd rfl (accepts _ _ _)
  | respond notif_id r woken => exact respond taken
  | restart woken => simpa [frees, sends] using resetOnEngineRestart taken
  | start t | spurious t | timeout t | wake t | tail t =>
      obtain ⟨req, found, move⟩ := threadMove_of_step taken rfl
      exact threadMove found move

end HandsOver

theorem count_holds_accept {w : NiWorld} {slot : NiSlot}
    (free : (w.sessions slot).rawRequest = none) (notif : GpsNiNotification) (created : Bool)
    (n : Nat) :
    (holds (w.accept slot notif true created)).count n =
      [w.requests.length].count n + (holds w).count n := by
  have threads : inThreads (w.accept slot notif true created) = inThreads w := by
    cases created <;> simp [inThreads, NiWorld.accept, holdsOf]
  rw [holds, holds, threads, inSessions, inSessions]
  cases slot with
  | session =>
      have apart : NiSlot.sessionEs ≠ .session := by decide
      rw [accept_sessions_of_ne apart]
      simp only [NiWorld.accept, Function.update_self, free, List.count_append, if_true,
        Option.toList_some, Option.toList_none, List.count_nil]
      omega
  | sessionEs =>
      have apart : NiSlot.session ≠ .sessionEs := by decide
      rw [accept_sessions_of_ne apart]
      simp only [NiWorld.accept, Function.update_self, free, List.count_append, if_true,
        Option.toList_some, Option.toList_none, List.count_nil]
      omega

section Log
variable {log : List (PayloadEvent P)} {p : P}

theorem mem_freed : p ∈ freed log ↔ .freed p ∈ log := by
  simp only [freed, List.mem_filterMap]
  constructor
  · rintro ⟨e, mem, kind⟩
    cases e with
    | freed q => exact Option.some.inj kind ▸ mem
    | _ => cases kind
  · exact fun mem => ⟨_, mem, rfl⟩

theorem received_append (log es : List (PayloadEvent P)) :
    received (log ++ es) = received log ++ received es := List.filterMap_append ..

theorem freed_append (log es : List (PayloadEvent P)) :
    freed (log ++ es) = freed log ++ freed es := List.filterMap_append ..

theorem answered_append (log es : List (PayloadEvent P)) :
    answered (log ++ es) = answered log ++ answered es := List.filterMap_append ..

theorem received_map_freed (ps : List P) : received (ps.map .freed) = [] := by
  simp [received]

theorem freed_map_freed (ps : List P) : freed (ps.map .freed) = ps := by
  simp [freed, List.filterMap_map]

theorem answered_map_freed (ps : List P) : answered (ps.map .freed) = [] := by
  simp [answered]

theorem live_freed (live : AtEach Live log) {ps : List P} (once : (freed log ++ ps).Nodup) :
    AtEach Live (log ++ ps.map .freed) := by
  induction ps generalizing log with
  | nil => simpa using live
  | cons p ps ih =>
      have first : AtEach Live (log ++ [.freed p]) := by
        refine atEach_concat.mpr ⟨live, fun again => ?_⟩
        exact (List.nodup_append.mp once).2.2 p (mem_freed.mpr again) p List.mem_cons_self rfl
      have rest := ih first (by simpa [freed_append, freed] using once)
      simpa using rest

end Log

theorem of_module {w u : World P} {l : LocEngNi.Label} (taken : step w (.ni l) = some u) :
    (∀ notif passThrough created, l ≠ .request notif passThrough created) ∧
      ∃ ni, LocEngNi.step w.ni l = some ni ∧ u = { w with
        ni := ni
        msgs := w.msgs ++ sends w.ni l
        log := w.log ++ (w.payloadsOf (frees w.ni l)).map .freed } := by
  cases l with
  | request notif passThrough created => cases taken
  | _ =>
      simp only [step, Option.bind_eq_bind, Option.bind_eq_some_iff] at taken
      obtain ⟨ni, moved, same⟩ := taken
      exact ⟨fun _ _ _ => nofun, ni, moved, (Option.some.inj same).symm⟩

/-- A payload received has been freed or is held, and nothing happens to one that was freed. -/
structure Conserved (w : World P) : Prop where
  registered : w.ni.ni_notify_cb = true
  requests : w.payloads.length = w.ni.requests.length
  known : ∀ n ∈ w.holders, n < w.payloads.length
  accounted : (received w.log).Perm (freed w.log ++ w.held)
  answered : (answered w.log).Sublist (freed w.log)
  live : (received w.log).Nodup → AtEach Live w.log

namespace Conserved
variable {w u : World P}

theorem init (h : IsInit w) : Conserved w := by
  have nothing : w.holders = [] := by
    simp [World.holders, holds, inSessions, inThreads, h.ni.requests, h.msgs,
      (h.ni.sessions .sessionEs).2.2.1, (h.ni.sessions .session).2.2.1]
  refine ⟨h.ni.ni_notify_cb, by simp [h.payloads, h.ni.requests], by simp [nothing], ?_, ?_, ?_⟩
  · simp [h.log, World.held, World.payloadsOf, nothing, received, freed]
  · simp [h.log, NiPayload.answered]
  · intro _
    rw [h.log]
    exact atEach_nil _

/-- A step in which these requests' payloads are freed, and nothing else happens to any. -/
theorem release (h : Conserved w) (ns : List Nat) {es : List (PayloadEvent P)}
    (registered : u.ni.ni_notify_cb = w.ni.ni_notify_cb)
    (requests : u.ni.requests.length = w.ni.requests.length) (payloads : u.payloads = w.payloads)
    (holders : ∀ n, w.holders.count n = ns.count n + u.holders.count n)
    (log : u.log = w.log ++ es) (frees : freed es = w.payloadsOf ns) (none : received es = [])
    (answers : (NiPayload.answered es).Sublist (freed es))
    (live : AtEach Live w.log → (freed w.log ++ freed es).Nodup → AtEach Live (w.log ++ es)) :
    Conserved u := by
  have handed : w.holders.Perm (ns ++ u.holders) :=
    List.perm_iff_count.mpr fun n => by rw [List.count_append, holders n]
  have held : w.held.Perm (freed es ++ u.held) := by
    have split := handed.filterMap (w.payloads[·]?)
    rw [List.filterMap_append] at split
    simp only [frees, World.held, World.payloadsOf, payloads]
    exact split
  have accounted : (received u.log).Perm (freed u.log ++ u.held) := by
    rw [log, received_append, none, List.append_nil, freed_append, List.append_assoc]
    exact h.accounted.trans (held.append_left _)
  refine ⟨registered.trans h.registered, ?_, ?_, accounted, ?_, ?_⟩
  · rw [payloads, requests, h.requests]
  · intro n mem
    rw [payloads]
    exact h.known n (handed.mem_iff.mpr (List.mem_append_right _ mem))
  · rw [log, answered_append, freed_append]
    exact h.answered.append answers
  · intro distinct
    have freedOnce := (List.nodup_append.mp (accounted.nodup_iff.mp distinct)).1
    rw [log, received_append, none, List.append_nil] at distinct
    rw [log, freed_append] at freedOnce
    rw [log]
    exact live (h.live distinct) freedOnce

theorem deliver (h : Conserved w) {msg : LocEngInformNiResponse}
    {msgs : List LocEngInformNiResponse} (queued : w.msgs = msg :: msgs) :
    Conserved { w.deliver msg with msgs := msgs } := by
  have here : msg.mPayload ∈ w.holders :=
    List.mem_append_right _ (List.mem_map.mpr ⟨msg, by rw [queued]; exact List.mem_cons_self, rfl⟩)
  obtain ⟨p, found⟩ : ∃ p, w.payloads[msg.mPayload]? = some p :=
    ⟨_, List.getElem?_eq_getElem (h.known _ here)⟩
  have payload : w.payloadsOf [msg.mPayload] = [p] := by simp [World.payloadsOf, found]
  have log : (w.deliver msg).log = w.log ++ [.answered msg.mResponse p, .freed p] := by
    simp [World.deliver, World.record, payload]
  refine h.release [msg.mPayload] rfl rfl rfl ?_ log ?_ rfl ?_ ?_
  · intro n
    simp only [World.holders, queued, World.deliver, World.record, List.map_cons, List.count_append,
      List.count_cons, List.count_nil]
    omega
  · rw [payload]
    rfl
  · exact List.Sublist.refl [p]
  · intro live once
    have fresh : .freed p ∉ w.log := fun again =>
      (List.nodup_append.mp once).2.2 p (mem_freed.mpr again) p List.mem_cons_self rfl
    have answers : AtEach Live (w.log ++ [.answered msg.mResponse p]) :=
      atEach_concat.mpr ⟨live, fresh⟩
    have frees : AtEach Live (w.log ++ [.answered msg.mResponse p] ++ [.freed p]) :=
      atEach_concat.mpr ⟨answers, by simpa [Live, PayloadEvent.payload] using fresh⟩
    simpa using frees

theorem ofModule (h : Conserved w) {l : LocEngNi.Label}
    (accepts : ∀ notif passThrough created, l ≠ .request notif passThrough created) {ni : NiWorld}
    (taken : LocEngNi.step w.ni l = some ni) :
    Conserved { w with
      ni := ni
      msgs := w.msgs ++ sends w.ni l
      log := w.log ++ (w.payloadsOf (frees w.ni l)).map .freed } := by
  have handsOver := HandsOver.step accepts taken
  refine h.release (frees w.ni l) handsOver.registered handsOver.requests rfl ?_ rfl
    (freed_map_freed _) (received_map_freed _) ?_ ?_
  · intro n
    have step := handsOver.holds n
    simp only [World.holders, List.map_append, List.count_append] at step ⊢
    omega
  · rw [answered_map_freed]
    exact List.nil_sublist _
  · intro live once
    exact live_freed live (by simpa [freed_map_freed] using once)

/-- A payload that is distinct from the earlier ones has not been freed. -/
theorem receive (h : Conserved w) {p : P} (distinct : (received w.log ++ [p]).Nodup) :
    AtEach Live (w.log ++ [.received p]) := by
  obtain ⟨earlier, -, apart⟩ := List.nodup_append.mp distinct
  refine atEach_concat.mpr ⟨h.live earlier, fun again => ?_⟩
  have mem : p ∈ received w.log :=
    h.accounted.mem_iff.mpr (List.mem_append_left _ (mem_freed.mpr again))
  exact apart p mem p List.mem_cons_self rfl

theorem intake (h : Conserved w) (p : P) :
    (received w.log ++ [p]).Perm (freed w.log ++ p :: w.held) :=
  calc received w.log ++ [p]
    _ ~ p :: received w.log := List.perm_append_singleton ..
    _ ~ p :: (freed w.log ++ w.held) := h.accounted.cons _
    _ ~ freed w.log ++ p :: w.held := List.perm_middle.symm

theorem accept (h : Conserved w) {notif : GpsNiNotification} {slot : NiSlot}
    (admitted : w.ni.admits notif.ni_type = some slot) (passThrough : P) (created : Bool) :
    Conserved ((w.record [.received passThrough]).accept slot notif passThrough created) := by
  have grows := count_holds_accept (rawRequest_of_admits admitted) notif created
  generalize accepted :
    (w.record [.received passThrough]).accept slot notif passThrough created = u
  have ni : u.ni = w.ni.accept slot notif true created := by rw [← accepted]; rfl
  have payloads : u.payloads = w.payloads ++ [passThrough] := by rw [← accepted]; rfl
  have msgs : u.msgs = w.msgs := by rw [← accepted]; rfl
  have log : u.log = w.log ++ [.received passThrough] := by rw [← accepted]; rfl
  have holders : u.holders.Perm (w.ni.requests.length :: w.holders) := by
    refine List.perm_iff_count.mpr fun n => ?_
    have here := grows n
    simp only [World.holders, ni, msgs, List.count_append, List.count_cons,
      List.count_nil] at here ⊢
    omega
  have old : u.payloadsOf w.holders = w.held := by
    refine List.filterMap_congr fun n mem => ?_
    rw [payloads]
    exact List.getElem?_append_left (h.known n mem)
  have new : u.payloads[w.ni.requests.length]? = some passThrough := by
    simp [payloads, ← h.requests]
  have held : u.held.Perm (passThrough :: w.held) := by
    have mapped := holders.filterMap (u.payloads[·]?)
    rw [List.filterMap_cons_some new] at mapped
    exact old ▸ mapped
  have frees : freed u.log = freed w.log := by simp [log, freed]
  refine ⟨ni ▸ h.registered, ?_, ?_, ?_, ?_, ?_⟩
  · simp [ni, payloads, NiWorld.accept, h.requests]
  · intro n mem
    rw [payloads, List.length_append, List.length_singleton]
    cases List.mem_cons.mp (holders.mem_iff.mp mem) with
    | inl last =>
        have same := h.requests
        omega
    | inr earlier => exact Nat.lt_succ_of_lt (h.known n earlier)
  · rw [log, received_append, ← log, frees]
    exact (h.intake passThrough).trans (held.symm.append_left _)
  · rw [log, answered_append, ← log, frees]
    simpa [NiPayload.answered] using h.answered
  · intro distinct
    rw [log, received_append] at distinct
    exact log ▸ h.receive distinct

theorem reject (h : Conserved w) (passThrough : P) :
    Conserved ((w.record [.received passThrough]).record [.freed passThrough]) := by
  generalize rejected : (w.record [.received passThrough]).record [.freed passThrough] = u
  have ni : u.ni = w.ni := by rw [← rejected]; rfl
  have payloads : u.payloads = w.payloads := by rw [← rejected]; rfl
  have msgs : u.msgs = w.msgs := by rw [← rejected]; rfl
  have log : u.log = w.log ++ [.received passThrough] ++ [.freed passThrough] := by
    rw [← rejected]
    rfl
  have holders : u.holders = w.holders := by rw [World.holders, ni, msgs]; rfl
  have held : u.held = w.held := by rw [World.held, holders, World.payloadsOf, payloads]; rfl
  have receives : received u.log = received w.log ++ [passThrough] := by simp [log, received]
  have frees : freed u.log = freed w.log ++ [passThrough] := by simp [log, freed]
  refine ⟨ni ▸ h.registered, ?_, ?_, ?_, ?_, ?_⟩
  · rw [payloads, ni, h.requests]
  · rw [holders, payloads]
    exact h.known
  · rw [receives, frees, held, List.append_assoc]
    exact h.intake passThrough
  · have answers : NiPayload.answered u.log = NiPayload.answered w.log := by
      simp [log, NiPayload.answered]
    rw [answers, frees]
    exact h.answered.trans (List.sublist_append_left ..)
  · intro distinct
    rw [receives] at distinct
    have apart := (h.intake passThrough).nodup_iff.mp distinct
    have last : [passThrough] <+ passThrough :: w.held := (List.nil_sublist w.held).cons_cons _
    have once := apart.sublist (last.append_left (freed w.log))
    have earlier : freed (w.log ++ [.received passThrough]) = freed w.log := by simp [freed]
    rw [log]
    exact live_freed (h.receive distinct) (earlier ▸ once)

theorem requestHandler (h : Conserved w) (notif : GpsNiNotification) (passThrough : P)
    (created : Bool) : Conserved (w.requestHandler notif passThrough created) := by
  have registered : (w.record [.received passThrough]).ni.ni_notify_cb = true := h.registered
  simp only [World.requestHandler, registered, if_true]
  split
  · rename_i slot admitted
    exact h.accept admitted passThrough created
  · exact h.reject passThrough

theorem step (h : Conserved w) {l : Label P} (taken : step w l = some u) : Conserved u := by
  cases l with
  | request notif passThrough created =>
      obtain rfl := Option.some.inj taken
      exact h.requestHandler notif passThrough created
  | ni l =>
      obtain ⟨accepts, ni, moved, rfl⟩ := of_module taken
      exact h.ofModule accepts moved
  | deliver =>
      simp only [NiPayload.step] at taken
      split at taken
      · rename_i msg msgs queued
        obtain rfl := Option.some.inj taken
        exact h.deliver queued
      · cases taken

end Conserved

/-- The payload was answered at most once, and it has been freed once or is held by one session
slot, thread or message. -/
structure AccountedFor [DecidableEq P] (p : P) (w : World P) : Prop where
  answered : (answered w.log).count p ≤ 1
  freedOrHeld : ((freed w.log).count p = 1 ∧ w.held.count p = 0) ∨
    ((freed w.log).count p = 0 ∧ w.held.count p = 1)

theorem payloads_are_accounted_for [DecidableEq P] {w₀ w : World P} {ls : List (Label P)}
    (initial : IsInit w₀) (run : Run step w₀ ls w) (distinct : (received w.log).Nodup) :
    (∀ p ∈ received w.log, AccountedFor p w) ∧ AtEach Live w.log := by
  have conserved : Conserved w := by
    refine run.invariant (I := Conserved) ?_ (.init initial)
    exact fun _ _ _ h taken => h.step taken
  refine ⟨fun p mem => ?_, conserved.live distinct⟩
  have one : (received w.log).count p = 1 := List.nodup_iff_count_eq_one.mp distinct p mem
  have split := conserved.accounted.count_eq p
  have answers := conserved.answered.count_le p
  rw [List.count_append] at split
  constructor <;> omega

def initial : World Nat := ⟨LocEngNi.initial, [], [], []⟩

/-- The first payload is answered, the second rejected and the third still held. -/
def answeredLabels : List (Label Nat) :=
  [.request plainRequest 7 true, .request plainRequest 8 true, .ni (.start 0),
    .ni (.respond 1 GPS_NI_RESPONSE_ACCEPT [0]), .ni (.wake 0), .ni (.tail 0), .deliver,
    .request plainRequest 9 true]

theorem answered_payload_is_accounted_for : ∃ w, Run step initial answeredLabels w ∧
    received w.log = [7, 8, 9] ∧ (∀ p ∈ received w.log, AccountedFor p w) ∧ AtEach Live w.log := by
  have run := run_iff_foldlM.mpr (rfl : answeredLabels.foldlM step initial = some _)
  have kept := payloads_are_accounted_for ⟨initial_isInit, rfl, rfl, rfl⟩ run (by decide)
  exact ⟨_, run, rfl, kept⟩

end Msm8974.NiPayload
