import Msm8974.LocApi.NiTiming

/-!
What becomes of a user response: from the call on it is held in the session, then carried
by the thread of its request, then sent, and nothing but that thread moves it along.
-/

namespace Msm8974.LocEngNi
open Msm8974.Runs Msm8974.Traces NiWorld

variable {w u : NiWorld} {n : Nat} {req : NiRequest}

theorem answer_still {slot : NiSlot} {r : GpsUserResponseType} {woken : List Nat}
    (h : w.answer slot r woken = some u) (found : w.requests[n]? = some req)
    (still : wakeUp req.thread = req.thread) : u.requests[n]? = some req :=
  signal_still (w := w.setSession slot _) h found still

theorem ignoreSession_still {slot : NiSlot} {r : GpsUserResponseType} {woken : List Nat}
    (h : w.ignoreSession slot r woken = some u) (found : w.requests[n]? = some req)
    (still : wakeUp req.thread = req.thread) : u.requests[n]? = some req := by
  rcases ignoreSession_cases h with rfl | ⟨-, -, ignored⟩
  · exact found
  · exact answer_still ignored found still

theorem reset_still {slot : NiSlot} {woken : List Nat} (h : w.reset slot woken = some u)
    (found : w.requests[n]? = some req) (still : wakeUp req.thread = req.thread) :
    u.requests[n]? = some req := by
  rcases reset_cases h with rfl | signalled
  · exact found
  · exact signal_still (w := w.setSession slot _) signalled found still

theorem ThreadMove.still {l : Label} {t : Nat} {own : NiRequest} (move : ThreadMove w t own l u)
    (ne : t ≠ n) (found : w.requests[n]? = some req) : u.requests[n]? = some req := by
  cases move with
  | start _ | wake _ => exact loop_of_ne ne found own.slot _
  | spurious _ | timeout _ _ => exact setThread_of_ne ne found _
  | expire _ =>
      rw [expireWait_eq]
      exact setThread_of_ne ne found _
  | tail _ => exact tail_of_ne ne found own.slot _

/-- A thread that does not wait on the condition variable is moved by its own steps only. -/
theorem step_still {l : Label} (taken : step w l = some u) (found : w.requests[n]? = some req)
    (still : wakeUp req.thread = req.thread) (other : l.thread ≠ some n) :
    u.requests[n]? = some req := by
  cases l with
  | tick elapsed =>
      obtain rfl := Option.some.inj taken
      exact found
  | request notif passThrough created =>
      obtain rfl := Option.some.inj taken
      rcases requestHandler_cases notif passThrough created w with same | ⟨slot, -, accepted⟩
      · rw [same]
        exact found
      · rw [accepted]
        exact accept_getElem? found
  | respond notif_id r woken =>
      rcases respond_cases taken with rfl | ⟨slot, v, -, ignored, answered⟩
      · exact found
      · exact answer_still answered (ignoreSession_still ignored found still) still
  | restart woken =>
      rcases restart_cases taken with rfl | ⟨v, es, ni⟩
      · exact found
      · exact reset_still ni (reset_still es found still) still
  | start t | spurious t | timeout t | wake t | tail t =>
      obtain ⟨own, -, move⟩ := threadMove_of_step taken rfl
      exact move.still (fun same => other (congrArg some same)) found

/-- Only the tail of a thread sends, and it sends what the thread carries. -/
def Sends (w : NiWorld) (l : Label) : NiEvent → Prop
  | .inform t m => l = .tail t ∧ ∃ req, w.requests[t]? = some req ∧ req.thread = .unlocked (some m)
  | _ => True

theorem answer_log {slot : NiSlot} {r : GpsUserResponseType} {woken : List Nat}
    (h : w.answer slot r woken = some u) : u.log = w.log := by
  rw [answer_eq h]
  rfl

theorem reset_log {slot : NiSlot} {woken : List Nat} (h : w.reset slot woken = some u) :
    u.log = w.log := by
  rcases reset_cases h with rfl | signalled
  · rfl
  · rw [signal_eq signalled]
    rfl

theorem ThreadMove.log {l : Label} {t : Nat} (found : w.requests[t]? = some req)
    (move : ThreadMove w t req l u) : Extends (Sends w l) w.log u.log := by
  cases move with
  | start _ | wake _ =>
      rw [loop_log]
      exact .refl _ _
  | spurious _ | expire _ => exact .refl _ _
  | timeout _ _ => exact (Extends.refl _ _).concat trivial
  | @tail msg sends =>
      cases msg with
      | none => exact .refl _ _
      | some m => exact (Extends.refl _ _).concat ⟨rfl, req, found, sends⟩

theorem step_log {l : Label} (taken : step w l = some u) : Extends (Sends w l) w.log u.log := by
  have unchanged : u.log = w.log → Extends (Sends w l) w.log u.log := by
    intro same
    rw [same]
    exact .refl _ _
  cases l with
  | tick elapsed =>
      obtain rfl := Option.some.inj taken
      exact unchanged rfl
  | request notif passThrough created =>
      obtain rfl := Option.some.inj taken
      rcases requestHandler_cases notif passThrough created w with same | ⟨slot, -, accepted⟩
      · exact unchanged (congrArg NiWorld.log same)
      · rw [accepted]
        exact (Extends.refl _ _).concat trivial
  | respond notif_id r woken =>
      have called : Extends (Sends w (.respond notif_id r woken)) w.log
          (w.log ++ [.respond notif_id r]) := (Extends.refl _ _).concat trivial
      rcases respond_cases taken with rfl | ⟨slot, v, -, ignored, answered⟩
      · exact called
      · rw [answer_log answered, (ignoreSession_frame ignored).2]
        exact called
  | restart woken =>
      rcases restart_cases taken with rfl | ⟨v, es, ni⟩
      · exact unchanged rfl
      · exact unchanged ((reset_log ni).trans (reset_log es))
  | start t | spurious t | timeout t | wake t | tail t =>
      obtain ⟨own, found, move⟩ := threadMove_of_step taken rfl
      exact move.log found

theorem not_exited_of_step {l : Label} (taken : step w l = some u) (own : l.thread = some n)
    (found : w.requests[n]? = some req) : req.thread ≠ .exited := by
  intro exited
  cases threadMove_of_found taken own found with
  | start stands | spurious stands | timeout stands _ | wake stands | expire stands
  | tail stands => exact NiThread.noConfusion (exited.symm.trans stands)

/-- Whatever was sent was sent by the thread of its payload, which is gone. -/
def Sent (w : NiWorld) : Prop :=
  ∀ {t : Nat} {m : LocEngInformNiResponse}, .inform t m ∈ w.log →
    m.mPayload = t ∧ ∃ req, w.requests[t]? = some req ∧ req.thread = .exited

theorem Sent.init (h : IsInit w) : Sent w := by
  intro t m informed
  simp [h.log] at informed

theorem Sent.step (h : Sent w) (coherent : Coherent w) {l : Label} (taken : step w l = some u) :
    Sent u := by
  intro t m informed
  obtain ⟨new, grown, kind⟩ := step_log taken
  rw [grown] at informed
  cases List.mem_append.mp informed with
  | inl old =>
      obtain ⟨own, req, found, exited⟩ := h old
      refine ⟨own, req, step_still taken found (by rw [exited]; rfl) fun moves => ?_, exited⟩
      exact not_exited_of_step taken moves found exited
  | inr fresh =>
      obtain ⟨rfl, req, found, sends⟩ := kind _ fresh
      cases threadMove_of_found taken rfl found
      exact ⟨coherent.message found sends, _, tail_self found _ _, rfl⟩

/-- No engine restart, no second response under the id of request `n`, and no accepted SUPL
ES request that has its payload ignored. -/
def Calm (n : Nat) (id : BitVec 32) (w : NiWorld) : Label → Prop
  | .restart _ => False
  | .respond notif_id r _ => notif_id ≠ id ∧
      (w.respondSession notif_id = some .sessionEs → r = GPS_NI_RESPONSE_ACCEPT →
        (w.sessions .session).rawRequest ≠ some n)
  | _ => True

/-- The session holds payload `n` with the answer `r`. -/
def Holds (slot : NiSlot) (n : Nat) (r : GpsUserResponseType) (w : NiWorld) : Prop :=
  (w.sessions slot).rawRequest = some n ∧ (w.sessions slot).respRecvd = true ∧
    (w.sessions slot).resp = r

theorem Holds.congr {slot : NiSlot} {r : GpsUserResponseType} (h : Holds slot n r w)
    (same : u.sessions slot = w.sessions slot) : Holds slot n r u := by
  unfold Holds
  rw [same]
  exact h

/-- Another session is answered, and payload `n` is not the one that is ignored for it. -/
theorem Holds.respond {slot : NiSlot} {r r' : GpsUserResponseType} (h : Holds slot n r w)
    {notif_id : BitVec 32} {woken : List Nat}
    (other : w.respondSession notif_id ≠ some slot)
    (notIgnored : w.respondSession notif_id = some .sessionEs → r' = GPS_NI_RESPONSE_ACCEPT →
      (w.sessions .session).rawRequest ≠ some n)
    (taken : w.respond notif_id r' woken = some u) : Holds slot n r u := by
  have called : Holds slot n r (w.record (.respond notif_id r')) := h
  rcases respond_cases taken with rfl | ⟨slot', v, matched, ignored, answered⟩
  · exact called
  · have ne : slot ≠ slot' := by
      rintro rfl
      exact other matched
    have ignoring : Holds slot n r v := by
      rcases ignoreSession_cases ignored with rfl | ⟨rfl, accepts, -⟩
      · exact called
      · cases slot with
        | session => exact absurd h.1 (notIgnored matched accepts)
        | sessionEs => exact absurd rfl ne
    refine ignoring.congr ?_
    rw [answer_eq answered, wakeThreads_sessions, setSession_of_ne _ _ ne]

theorem Holds.threadMove {slot : NiSlot} {r : GpsUserResponseType} (h : Holds slot n r w)
    (coherent : Coherent w) {l : Label} {t : Nat} {own : NiRequest}
    (found : w.requests[t]? = some own) (ne : t ≠ n) (move : ThreadMove w t own l u) :
    Holds slot n r u := by
  -- a thread that is not through with a session that holds `n` is the thread of `n`
  have elsewhere : own.thread.Unfinished → slot ≠ own.slot := by
    rintro running rfl
    exact ne (coherent.alone h.1 found rfl running)
  cases move with
  | start created => exact h.congr (loop_sessions_of_ne (elsewhere (created ▸ trivial)) _ w)
  | spurious _ | timeout _ _ => exact h
  | wake woken => exact h.congr (loop_sessions_of_ne (elsewhere (woken ▸ trivial)) _ w)
  | expire due =>
      rw [expireWait_eq]
      exact h.congr (setSession_of_ne _ w (elsewhere (due ▸ trivial)))
  | tail _ =>
      by_cases same : slot = own.slot
      · subst same
        unfold Holds
        rw [tail_sessions, setSession_self]
        exact h
      · refine h.congr ?_
        rw [tail_sessions, setSession_of_ne _ w same]

/-- Whoever takes a step, an answered payload stays in its session until its own thread
comes for it. -/
theorem Holds.step {slot : NiSlot} {r : GpsUserResponseType} (h : Holds slot n r w)
    (coherent : Coherent w) {l : Label} (orderly : Orderly w l)
    (found : w.requests[n]? = some req) (calm : Calm n req.notification_id w l)
    (other : l.thread ≠ some n) (taken : step w l = some u) : Holds slot n r u := by
  cases l with
  | tick elapsed =>
      obtain rfl := Option.some.inj taken
      exact h
  | request notif passThrough created =>
      obtain rfl := Option.some.inj taken
      rcases requestHandler_cases notif passThrough created w with
        same | ⟨slot', admitted, accepted⟩
      · rw [same]
        exact h
      · rw [accepted]
        refine h.congr (accept_sessions_of_ne ?_)
        rintro rfl
        exact absurd h.1 (by simp [rawRequest_of_admits admitted])
  | respond notif_id r' woken =>
      refine h.respond ?_ calm.2 taken
      intro matched
      exact calm.1 (orderly slot matched n h.1 req found).symm
  | restart woken => exact calm.elim
  | start t | spurious t | timeout t | wake t | tail t =>
      obtain ⟨own, found', move⟩ := threadMove_of_step taken rfl
      exact h.threadMove coherent found' (fun same => other (congrArg some same)) move

/-- The thread is there for the lock, or was never made. -/
def NiThread.AwaitsLock : NiThread → Prop
  | .notCreated | .created | .woken _ => True
  | _ => False

theorem NiThread.AwaitsLock.still {p : NiThread} (h : p.AwaitsLock) : wakeUp p = p := by
  cases p with
  | waiting _ => exact h.elim
  | _ => rfl

/-- Where the answer `r` for payload `n`, asked for under `id`, can be. -/
inductive OnItsWay (n : Nat) (id : BitVec 32) (r : GpsUserResponseType) (w : NiWorld) : Prop
  | held (req : NiRequest) (found : w.requests[n]? = some req) (own : req.notification_id = id)
      (holds : Holds req.slot n r w) (awaits : req.thread.AwaitsLock)
  | unlocked (req : NiRequest) (found : w.requests[n]? = some req)
      (sends : req.thread = .unlocked (some ⟨r, n⟩))
  | sent (req : NiRequest) (found : w.requests[n]? = some req) (exited : req.thread = .exited)
      (informed : .inform n ⟨r, n⟩ ∈ w.log)
      (only : ∀ t m, .inform t m ∈ w.log → m.mPayload = n → m.mResponse = r)

namespace OnItsWay
variable {id : BitVec 32} {r : GpsUserResponseType}

/-- The thread of `n` takes the answer with it once it has the lock. -/
theorem take {e : Int} (found : w.requests[n]? = some req) (holds : Holds req.slot n r w)
    (sendable : r ≠ GPS_NI_RESPONSE_IGNORE) : OnItsWay n id r (w.loop n req.slot e) := by
  obtain ⟨held, received, rfl⟩ := holds
  exact .unlocked _ (loop_answered found held received sendable e) rfl

theorem step_held {l : Label} (coherent : Coherent w) (orderly : Orderly w l)
    (found : w.requests[n]? = some req) (holds : Holds req.slot n r w)
    (awaits : req.thread.AwaitsLock) (calm : Calm n req.notification_id w l)
    (sendable : r ≠ GPS_NI_RESPONSE_IGNORE) (taken : step w l = some u) :
    OnItsWay n req.notification_id r u := by
  by_cases moves : l.thread = some n
  · cases threadMove_of_found taken moves found with
    | start _ | wake _ => exact take found holds sendable
    | spurious stands | timeout stands _ | expire stands | tail stands =>
        rw [stands] at awaits
        exact awaits.elim
  · have kept := step_still taken found awaits.still moves
    exact .held req kept rfl (holds.step coherent orderly found calm moves taken) awaits

theorem step_unlocked {l : Label} (sent : Sent w) (found : w.requests[n]? = some req)
    (sends : req.thread = .unlocked (some ⟨r, n⟩)) (taken : step w l = some u) :
    OnItsWay n id r u := by
  by_cases moves : l.thread = some n
  · cases threadMove_of_found taken moves found with
    | tail sends' =>
        obtain rfl := NiThread.unlocked.inj (sends'.symm.trans sends)
        refine .sent _ (tail_self found _ _) rfl (List.mem_append_right _ (.head _)) ?_
        intro t m informed own
        cases List.mem_append.mp informed with
        | inl old =>
            -- a message for `n` in the log would mean that its thread is gone already
            obtain ⟨rfl, gone, found', exited⟩ := sent old
            rw [own, found] at found'
            obtain rfl := Option.some.inj found'
            exact NiThread.noConfusion (sends.symm.trans exited)
        | inr new =>
            obtain ⟨-, rfl⟩ := NiEvent.inform.inj (List.mem_singleton.mp new)
            rfl
    | start stands | spurious stands | timeout stands _ | wake stands | expire stands =>
        exact NiThread.noConfusion (sends.symm.trans stands)
  · exact .unlocked req (step_still taken found (by rw [sends]; rfl) moves) sends

theorem step_sent {l : Label} (coherent : Coherent w) (found : w.requests[n]? = some req)
    (exited : req.thread = .exited) (informed : .inform n ⟨r, n⟩ ∈ w.log)
    (only : ∀ t m, .inform t m ∈ w.log → m.mPayload = n → m.mResponse = r)
    (taken : step w l = some u) : OnItsWay n id r u := by
  have moves : l.thread ≠ some n := fun own => not_exited_of_step taken own found exited
  obtain ⟨new, grown, kind⟩ := step_log taken
  refine .sent req (step_still taken found (by rw [exited]; rfl) moves) exited ?_ ?_
  · exact grown ▸ List.mem_append_left _ informed
  · intro t m informed' own
    rw [grown] at informed'
    cases List.mem_append.mp informed' with
    | inl old => exact only t m old own
    | inr fresh =>
        obtain ⟨rfl, other, found', sends⟩ := kind _ fresh
        obtain rfl : n = t := own.symm.trans (coherent.message found' sends)
        exact absurd rfl moves

theorem step {l : Label} (h : OnItsWay n id r w) (coherent : Coherent w) (sent : Sent w)
    (orderly : Orderly w l) (calm : Calm n id w l) (sendable : r ≠ GPS_NI_RESPONSE_IGNORE)
    (taken : step w l = some u) : OnItsWay n id r u := by
  cases h with
  | held req found own holds awaits =>
      subst own
      exact step_held coherent orderly found holds awaits calm sendable taken
  | unlocked req found sends => exact step_unlocked sent found sends taken
  | sent req found exited informed only => exact step_sent coherent found exited informed only taken

end OnItsWay

/-- The response to an unanswered payload finds its session: the other session is not
mistaken for it. -/
theorem respondSession_of_unanswered (coherent : Coherent w) (punctual : Punctual w)
    (found : w.requests[n]? = some req) (held : (w.sessions req.slot).rawRequest = some n)
    (unanswered : (w.sessions req.slot).respRecvd = false)
    (own : OwnResponse req.notification_id w) :
    w.respondSession req.notification_id = some req.slot := by
  have known := punctual.known held found unanswered
  cases slot : req.slot with
  | sessionEs =>
      rw [slot] at held known
      simp [respondSession, known, held]
  | session =>
      rw [slot] at held known
      by_cases es : req.notification_id = (w.sessions .sessionEs).reqID ∧
          (w.sessions .sessionEs).rawRequest.isSome
      · exfalso
        have matched : w.respondSession req.notification_id = some .sessionEs := if_pos es
        obtain ⟨m, held'⟩ := Option.isSome_iff_exists.mp es.2
        obtain ⟨other, found', -⟩ := coherent.holder held'
        have same := own .sessionEs matched m held' other found'
        exact punctual.distinct ⟨n, held, req, found, rfl⟩ ⟨m, held', other, found', same⟩
      · simp [respondSession, es, known, held]

/-- The thread that waits for the session's payload is the one a signal there wakes. -/
theorem signal_wakes (coherent : Coherent w) (found : w.requests[n]? = some req)
    (held : (w.sessions req.slot).rawRequest = some n) {e : Int}
    (waits : req.thread = .waiting e) {woken : List Nat}
    (hs : w.signal req.slot woken = some u) :
    u.requests[n]? = some { req with thread := .woken e } := by
  have wakes : Wakes req.slot woken w := by
    by_contra none
    simp [signal, none] at hs
  have mem : n ∈ woken := by
    rcases wakes with ⟨t, mem, other, found', waits'⟩ | none
    · simp only [waitsIn, Bool.and_eq_true, decide_eq_true_eq] at waits'
      have running : other.thread.Unfinished := by
        cases p : other.thread <;> simp_all [NiThread.Unfinished]
      exact coherent.alone held found' waits'.1 running ▸ mem
    · have asleep := none req (List.mem_of_getElem? found)
      simp [waitsIn, waits] at asleep
  rw [signal_eq hs, wakeThreads, updateThreads_getElem?, found]
  simp [mem, waits, wakeUp]

theorem OnItsWay.of_respond (coherent : Coherent w) (punctual : Punctual w)
    (found : w.requests[n]? = some req) (held : (w.sessions req.slot).rawRequest = some n)
    (unanswered : (w.sessions req.slot).respRecvd = false) (inTime : w.now < req.deadline)
    (own : OwnResponse req.notification_id w) {r : GpsUserResponseType} {woken : List Nat}
    (taken : w.respond req.notification_id r woken = some u) :
    OnItsWay n req.notification_id r u := by
  have matched := respondSession_of_unanswered coherent punctual found held unanswered own
  obtain ⟨v, ignored, answered⟩ := respond_matched punctual.registered matched taken
  have session : v.sessions req.slot = w.sessions req.slot := (ignoreSession_frame ignored).1
  have found' : v.requests[n]? = some req := ignoreSession_own ignored found
  have answering := ((coherent.record _).ignoreSession ignored).setSession req.slot
    { v.sessions req.slot with resp := r, respRecvd := true } id
  have held' : ((v.setSession req.slot
      { v.sessions req.slot with resp := r, respRecvd := true }).sessions req.slot).rawRequest =
        some n := by
    rw [setSession_self]
    exact session ▸ held
  have holds : Holds req.slot n r u := by
    unfold Holds
    rw [answer_eq answered, wakeThreads_sessions, setSession_self]
    exact ⟨session ▸ held, rfl, rfl⟩
  have patient := punctual.patient held found unanswered
  cases p : req.thread with
  | waiting e => exact .held _ (signal_wakes answering found' held' p answered) rfl holds trivial
  | timedOut =>
      rw [p] at patient
      exact absurd inTime (Int.not_lt.mpr patient)
  | unlocked _ | exited =>
      rw [p] at patient
      exact patient.elim
  | notCreated | created | woken _ =>
      have awaits : req.thread.AwaitsLock := p ▸ trivial
      exact .held req (answer_still answered found' awaits.still) rfl holds awaits

/-- Every response that was sent for payload `n` is `r`, its thread does not end without
sending it, and until then the thread can go on. -/
structure Delivered (n : Nat) (r : GpsUserResponseType) (w : NiWorld) : Prop where
  only : ∀ t m, .inform t m ∈ w.log → m.mPayload = n → m.mResponse = r
  arrives : ∀ req ∈ w.requests[n]?, req.thread = .exited → .inform n ⟨r, n⟩ ∈ w.log
  goesOn : ∀ req ∈ w.requests[n]?, req.thread ≠ .notCreated → req.thread ≠ .exited →
    ∃ l, l.thread = some n ∧ (step w l).isSome

theorem delivered_of_onItsWay {id : BitVec 32} {r : GpsUserResponseType}
    (h : OnItsWay n id r w) (sent : Sent w) : Delivered n r w := by
  have live : ∀ {req p}, w.requests[n]? = some req → req.thread = p → p ≠ .exited →
      ∀ t m, .inform t m ∈ w.log → m.mPayload = n → m.mResponse = r := by
    rintro req p found stands running t m informed own
    obtain ⟨rfl, gone, found', exited⟩ := sent informed
    rw [own, found] at found'
    obtain rfl := Option.some.inj found'
    exact absurd (stands.symm.trans exited) running
  cases h with
  | held req found own holds awaits =>
      have running : req.thread ≠ .exited := by
        intro exited
        rw [exited] at awaits
        exact awaits
      refine ⟨live found rfl running, ?_, ?_⟩
      · intro req' found' exited
        obtain rfl := Option.some.inj (found.symm.trans found')
        exact absurd exited running
      · intro req' found' made _
        obtain rfl := Option.some.inj (found.symm.trans found')
        cases p : req.thread with
        | created => exact ⟨.start n, rfl, by simp [step, threadStep, found, p]⟩
        | woken e => exact ⟨.wake n, rfl, by simp [step, threadStep, found, p]⟩
        | notCreated => exact absurd p made
        | _ =>
            rw [p] at awaits
            exact awaits.elim
  | unlocked req found sends =>
      refine ⟨live found sends nofun, ?_, ?_⟩
      · intro req' found' exited
        obtain rfl := Option.some.inj (found.symm.trans found')
        exact NiThread.noConfusion (sends.symm.trans exited)
      · intro req' found' _ _
        exact ⟨.tail n, rfl, by simp [step, threadStep, found, sends]⟩
  | sent req found exited informed only =>
      refine ⟨only, fun _ _ _ => informed, ?_⟩
      intro req' found' _ running
      obtain rfl := Option.some.inj (found.symm.trans found')
      exact absurd exited running

/-- A run from `s₀` to `t` in which the user answers request `n` with `r`: while its payload
is unanswered and before its deadline, and once. -/
structure AnsweredOnce (s₀ : NiWorld) (n : Nat) (r : GpsUserResponseType) (t : NiWorld) where
  before : List Label
  s : NiWorld
  req : NiRequest
  woken : List Nat
  s' : NiWorld
  after : List Label
  reached : Run step s₀ before s
  notified : s.requests[n]? = some req
  held : (s.sessions req.slot).rawRequest = some n
  unanswered : (s.sessions req.slot).respRecvd = false
  inTime : s.now < req.deadline
  sendable : r ≠ GPS_NI_RESPONSE_IGNORE
  responded : step s (.respond req.notification_id r woken) = some s'
  rest : Run step s' after t
  calm : Meets step (Calm n req.notification_id) s' after

def AnsweredOnce.labels {s₀ t : NiWorld} {r : GpsUserResponseType} (a : AnsweredOnce s₀ n r t) :
    List Label :=
  a.before ++ .respond a.req.notification_id r a.woken :: a.after

theorem settled {s₀ : NiWorld} {ls : List Label} (initial : IsInit s₀) (run : Run step s₀ ls w)
    (orderly : Meets step Orderly s₀ ls) : Coherent w ∧ Punctual w ∧ Sent w := by
  refine run.invariant_of_meets (I := fun w => Coherent w ∧ Punctual w ∧ Sent w) ?_ orderly
    ⟨.init initial, .init initial, Sent.init initial⟩
  intro w l u ⟨coherent, punctual, sent⟩ orderly taken
  exact ⟨coherent.step_orderly orderly taken, punctual.step coherent orderly taken,
    sent.step coherent taken⟩

/-- In an orderly run from loc_eng_ni_init the response to a payload is the one the user
gave, whatever else happens before, meanwhile and after. -/
theorem user_responses_are_delivered {s₀ t : NiWorld} {r : GpsUserResponseType}
    (initial : IsInit s₀) (a : AnsweredOnce s₀ n r t) (orderly : Meets step Orderly s₀ a.labels) :
    Delivered n r t := by
  obtain ⟨first, rest⟩ := a.reached.meets_append.mp orderly
  obtain ⟨own, rest⟩ := (meets_cons a.responded).mp rest
  obtain ⟨coherent, punctual, sent⟩ := settled initial a.reached first
  have onItsWay := OnItsWay.of_respond coherent punctual a.notified a.held a.unanswered a.inTime
    own a.responded
  have final := a.rest.invariant_of_meets
    (I := fun w => Coherent w ∧ Sent w ∧ OnItsWay n a.req.notification_id r w) ?_
    (meets_and rest a.calm)
    ⟨coherent.respond a.responded, sent.step coherent a.responded, onItsWay⟩
  · exact delivered_of_onItsWay final.2.2 final.2.1
  · intro w l u ⟨coherent, sent, onItsWay⟩ ⟨orderly, calm⟩ taken
    exact ⟨coherent.step_orderly orderly taken, sent.step coherent taken,
      onItsWay.step coherent sent orderly calm a.sendable taken⟩

section Runs

@[irreducible] def reach (ls : List Label) : NiWorld := (ls.foldlM step initial).getD initial

theorem run_reach (ls ks : List Label) (enabled : ((ls ++ ks).foldlM step initial).isSome) :
    Run step (reach ls) ks (reach (ls ++ ks)) := by
  obtain ⟨t, whole⟩ := Option.isSome_iff_exists.mp enabled
  rw [List.foldlM_append] at whole
  obtain ⟨s, first, second⟩ := Option.bind_eq_some_iff.mp whole
  have here : reach ls = s := by rw [reach, first]; rfl
  have there : reach (ls ++ ks) = t := by
    rw [reach, List.foldlM_append, first]
    exact congrArg (Option.getD · initial) second
  rw [here, there]
  exact run_iff_foldlM.mpr second

theorem run_initial (ls : List Label) (enabled : (ls.foldlM step initial).isSome) :
    Run step initial ls (reach ls) := by
  have start : reach [] = initial := by rw [reach]; rfl
  exact start ▸ run_reach [] ls enabled

theorem step_reach (ls : List Label) (l : Label)
    (enabled : ((ls ++ [l]).foldlM step initial).isSome) :
    step (reach ls) l = some (reach (ls ++ [l])) := by
  cases run_reach ls [l] enabled with
  | cons taken last =>
      cases last
      exact taken

instance (n : Nat) (id : BitVec 32) (w : NiWorld) : (l : Label) → Decidable (Calm n id w l)
  | .restart _ => instDecidableFalse
  | .respond _ _ _ => inferInstanceAs (Decidable (_ ≠ _ ∧ (_ = _ → _ = _ → _ ≠ _)))
  | .tick _ | .request _ _ _ | .start _ | .spurious _ | .timeout _ | .wake _ | .tail _ =>
      instDecidableTrue

def acceptedLabels : List Label := [.request plainRequest true true, .start 0]

def acceptedOnce : AnsweredOnce initial 0 GPS_NI_RESPONSE_ACCEPT
    (reach (acceptedLabels ++ [.respond 1 GPS_NI_RESPONSE_ACCEPT [0]] ++ [.wake 0, .tail 0])) where
  before := acceptedLabels
  s := reach acceptedLabels
  req := ⟨.session, 1, 25000000, .waiting 25000000⟩
  woken := [0]
  s' := reach (acceptedLabels ++ [.respond 1 GPS_NI_RESPONSE_ACCEPT [0]])
  after := [.wake 0, .tail 0]
  reached := run_initial _ (by decide +kernel)
  notified := by decide +kernel
  held := by decide +kernel
  unanswered := by decide +kernel
  inTime := by decide +kernel
  sendable := by decide
  responded := step_reach acceptedLabels (.respond 1 GPS_NI_RESPONSE_ACCEPT [0])
    (by decide +kernel)
  rest := run_reach (acceptedLabels ++ [.respond 1 GPS_NI_RESPONSE_ACCEPT [0]]) _
    (by decide +kernel)
  calm := by decide +kernel

theorem accepted_request_is_delivered :
    Delivered 0 GPS_NI_RESPONSE_ACCEPT
      (reach (acceptedLabels ++ [.respond 1 GPS_NI_RESPONSE_ACCEPT [0]] ++ [.wake 0, .tail 0])) :=
  user_responses_are_delivered initial_isInit acceptedOnce (by decide +kernel)

/-- The thread of the first request is past its locked section when the second request comes,
and wipes its id and time before the user answers. -/
def wipedLabels : List Label :=
  [.request plainRequest true true, .start 0, .respond 1 GPS_NI_RESPONSE_DENY [0], .wake 0,
    .request plainRequest true true, .tail 0]

def answeredAfterWipe : AnsweredOnce initial 1 GPS_NI_RESPONSE_ACCEPT
    (reach (wipedLabels ++ [.respond 2 GPS_NI_RESPONSE_ACCEPT []] ++
      [.start 1, .timeout 1, .wake 1, .tail 1])) where
  before := wipedLabels
  s := reach wipedLabels
  req := ⟨.session, 2, 25000000, .created⟩
  woken := []
  s' := reach (wipedLabels ++ [.respond 2 GPS_NI_RESPONSE_ACCEPT []])
  after := [.start 1, .timeout 1, .wake 1, .tail 1]
  reached := run_initial _ (by decide +kernel)
  notified := by decide +kernel
  held := by decide +kernel
  unanswered := by decide +kernel
  inTime := by decide +kernel
  sendable := by decide
  responded := step_reach wipedLabels (.respond 2 GPS_NI_RESPONSE_ACCEPT [])
    (by decide +kernel)
  rest := run_reach (wipedLabels ++ [.respond 2 GPS_NI_RESPONSE_ACCEPT []]) _ (by decide +kernel)
  calm := by decide +kernel

/-- The user accepts the second request in time, and GPS_NI_RESPONSE_NORESP is sent for it. -/
theorem user_response_is_lost :
    IsInit initial ∧ ∃ t, Nonempty (AnsweredOnce initial 1 GPS_NI_RESPONSE_ACCEPT t) ∧
      ¬ Delivered 1 GPS_NI_RESPONSE_ACCEPT t := by
  refine ⟨initial_isInit, _, ⟨answeredAfterWipe⟩, fun delivered => ?_⟩
  have noResponse := delivered.only 1 ⟨GPS_NI_RESPONSE_NORESP, 1⟩ (by decide +kernel) rfl
  exact absurd noResponse (by decide)

end Runs
end Msm8974.LocEngNi
