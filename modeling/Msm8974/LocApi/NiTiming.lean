import Msm8974.LocApi.NiAttribution

/-!
A payload that no answer has come for yet is still known under its own notification id,
and its thread does not give up before the deadline of its request. The tail of an earlier
thread, which wipes both the id and the time left, is what an orderly run keeps away.
-/

namespace Msm8974.LocEngNi
open Msm8974.Runs NiWorld

variable {w u : NiWorld}

/-- The payload in the session has the id `id`. -/
def HasId (slot : NiSlot) (id : BitVec 32) (w : NiWorld) : Prop :=
  ∃ n ∈ (w.sessions slot).rawRequest, ∃ req ∈ w.requests[n]?, req.notification_id = id

instance (slot : NiSlot) (id : BitVec 32) (w : NiWorld) : Decidable (HasId slot id w) :=
  inferInstanceAs (Decidable (∃ n ∈ (w.sessions slot).rawRequest, ∃ req ∈ w.requests[n]?,
    req.notification_id = id))

/-- A request goes into a clean session under an id that no payload has, a response reaches
only a payload of its id, and a thread clears a session that holds no unanswered payload. -/
def Orderly (w : NiWorld) : Label → Prop
  | .request notif _ _ => ∀ slot ∈ w.admits notif.ni_type,
      Clean slot w ∧ ¬ HasId .session (w.reqIDCounter + 1) w ∧
        ¬ HasId .sessionEs (w.reqIDCounter + 1) w
  | .respond notif_id _ _ => OwnResponse notif_id w
  | .tail t => ∀ req ∈ w.requests[t]?,
      (w.sessions req.slot).rawRequest = none ∨ (w.sessions req.slot).respRecvd = true
  | _ => True

instance (w : NiWorld) : (l : Label) → Decidable (Orderly w l)
  | .request _ _ _ => inferInstanceAs (Decidable (∀ slot ∈ w.admits _, Clean slot w ∧ _ ∧ _))
  | .respond _ _ _ => inferInstanceAs (Decidable (OwnResponse _ w))
  | .tail t => inferInstanceAs (Decidable (∀ req ∈ w.requests[t]?, _ = none ∨ _ = true))
  | .tick _ | .restart _ | .start _ | .spurious _ | .timeout _ | .wake _ => instDecidableTrue

/-- The thread has not left the locked section and does not give up before `deadline`, where
a wait that starts now would end at `fresh`. -/
def NiThread.Patient (deadline fresh now : Int) : NiThread → Prop
  | .notCreated => True
  | .created => deadline ≤ fresh
  | .waiting expire_time | .woken expire_time => deadline ≤ expire_time
  | .timedOut => deadline ≤ now
  | .unlocked _ | .exited => False

theorem wakeUp_patient {p : NiThread} {deadline fresh now : Int} :
    (wakeUp p).Patient deadline fresh now ↔ p.Patient deadline fresh now := by
  cases p <;> rfl

theorem NiThread.Patient.tick {p : NiThread} {deadline fresh now : Int}
    (h : p.Patient deadline fresh now) (elapsed : Nat) :
    p.Patient deadline (fresh + elapsed) (now + elapsed) := by
  cases p with
  | created | timedOut =>
      simp only [Patient] at h ⊢
      omega
  | _ => exact h

structure Punctual (w : NiWorld) : Prop where
  registered : w.ni_notify_cb = true
  known : ∀ {slot : NiSlot} {n : Nat} {req : NiRequest},
    (w.sessions slot).rawRequest = some n → w.requests[n]? = some req →
    (w.sessions slot).respRecvd = false → (w.sessions slot).reqID = req.notification_id
  patient : ∀ {slot : NiSlot} {n : Nat} {req : NiRequest},
    (w.sessions slot).rawRequest = some n → w.requests[n]? = some req →
    (w.sessions slot).respRecvd = false →
    req.thread.Patient req.deadline (w.now + seconds (w.sessions slot).respTimeLeft) w.now
  distinct : ∀ {id : BitVec 32}, HasId .session id w → ¬ HasId .sessionEs id w

namespace Punctual

theorem init (h : IsInit w) : Punctual w := by
  constructor
  · exact h.ni_notify_cb
  · intro slot n req held
    simp [(h.sessions slot).2.2.1] at held
  · intro slot n req held
    simp [(h.sessions slot).2.2.1] at held
  · rintro id ⟨n, held, -⟩
    simp [(h.sessions .session).2.2.1] at held

theorem record (h : Punctual w) (e : NiEvent) : Punctual (w.record e) :=
  ⟨h.registered, h.known, h.patient, h.distinct⟩

/-- A session that is emptied, or whose payload is answered now. -/
theorem setSession (h : Punctual w) (slot : NiSlot) (s : LocEngNiSession)
    (answered : ∀ {n}, s.rawRequest = some n →
      s.respRecvd = true ∧ (w.sessions slot).rawRequest = some n) :
    Punctual (w.setSession slot s) := by
  have hasId : ∀ {other id}, HasId other id (w.setSession slot s) → HasId other id w := by
    rintro other id ⟨n, held, req, found, same⟩
    refine ⟨n, ?_, req, found, same⟩
    by_cases here : other = slot
    · subst here
      rw [setSession_self] at held
      exact (answered held).2
    · rwa [setSession_of_ne s w here] at held
  refine ⟨h.registered, ?_, ?_, fun ni es => h.distinct (hasId ni) (hasId es)⟩
  · intro other n req held found waits
    by_cases here : other = slot
    · subst here
      rw [setSession_self] at held waits
      simp [(answered held).1] at waits
    · rw [setSession_of_ne s w here] at held waits ⊢
      exact h.known held found waits
  · intro other n req held found waits
    by_cases here : other = slot
    · subst here
      rw [setSession_self] at held waits
      simp [(answered held).1] at waits
    · rw [setSession_of_ne s w here] at held waits ⊢
      exact h.patient held found waits

theorem updateThreads (h : Punctual w) (coherent : Coherent w) {f : Nat → NiRequest → NiThread}
    (patient : ∀ {n req}, w.requests[n]? = some req →
      (w.sessions req.slot).rawRequest = some n → (w.sessions req.slot).respRecvd = false →
      let fresh := w.now + seconds (w.sessions req.slot).respTimeLeft
      req.thread.Patient req.deadline fresh w.now → (f n req).Patient req.deadline fresh w.now) :
    Punctual (w.updateThreads f) := by
  have hasId : ∀ {other id}, HasId other id (w.updateThreads f) → HasId other id w := by
    rintro other id ⟨n, held, req, found, same⟩
    obtain ⟨old, before, rfl⟩ := of_updateThreads found
    exact ⟨n, held, old, before, same⟩
  refine ⟨h.registered, ?_, ?_, fun ni es => h.distinct (hasId ni) (hasId es)⟩
  · intro slot n req held found waits
    obtain ⟨old, before, rfl⟩ := of_updateThreads found
    have known := h.known held before waits
    exact known
  · intro slot n req held found waits
    obtain ⟨old, before, rfl⟩ := of_updateThreads found
    obtain ⟨req, found', rfl⟩ := coherent.holder held
    obtain rfl := Option.some.inj (found'.symm.trans before)
    exact patient before held waits (h.patient held before waits)

/-- A thread that moves on under the lock of its session. -/
theorem setThread (h : Punctual w) (coherent : Coherent w) {t : Nat} {req : NiRequest}
    {p : NiThread} (found : w.requests[t]? = some req)
    (patient : (w.sessions req.slot).rawRequest = some t →
      (w.sessions req.slot).respRecvd = false →
      let fresh := w.now + seconds (w.sessions req.slot).respTimeLeft
      req.thread.Patient req.deadline fresh w.now → p.Patient req.deadline fresh w.now) :
    Punctual (w.setThread t p) := by
  refine h.updateThreads coherent ?_
  intro n other before held waits fresh old
  split
  · subst n
    obtain rfl := Option.some.inj (found.symm.trans before)
    exact patient held waits old
  · exact old

theorem signal (h : Punctual w) (coherent : Coherent w) {slot : NiSlot} {woken : List Nat}
    (hs : w.signal slot woken = some u) : Punctual u := by
  rw [signal_eq hs]
  refine h.updateThreads coherent ?_
  intro n req _ _ _ fresh old
  split
  · exact wakeUp_patient.mpr old
  · exact old

theorem answer (h : Punctual w) (coherent : Coherent w) {slot : NiSlot} {r : GpsUserResponseType}
    {woken : List Nat} (ha : w.answer slot r woken = some u) : Punctual u :=
  (h.setSession slot { w.sessions slot with resp := r, respRecvd := true }
    fun held => ⟨rfl, held⟩).signal (coherent.setSession _ _ id) ha

theorem reset (h : Punctual w) (coherent : Coherent w) {slot : NiSlot} {woken : List Nat}
    (hr : w.reset slot woken = some u) : Punctual u := by
  rcases reset_cases hr with rfl | signalled
  · exact h
  · have emptied := h.setSession slot
      { w.sessions slot with rawRequest := none, respRecvd := true } fun held => by cases held
    have coherent' := coherent.setSession slot
      { w.sessions slot with rawRequest := none, respRecvd := true } fun held => by cases held
    exact emptied.signal coherent' signalled

theorem resetOnEngineRestart (h : Punctual w) (coherent : Coherent w) {woken : List Nat}
    (hr : w.resetOnEngineRestart woken = some u) : Punctual u := by
  rcases restart_cases hr with rfl | ⟨v, es, ni⟩
  · exact h
  · exact (h.reset coherent es).reset (coherent.reset es) ni

theorem respond (h : Punctual w) (coherent : Coherent w) {notif_id : BitVec 32}
    {r : GpsUserResponseType} {woken : List Nat} (hr : w.respond notif_id r woken = some u) :
    Punctual u := by
  have called := h.record (.respond notif_id r)
  have coherent' := coherent.record (.respond notif_id r)
  rcases respond_cases hr with rfl | ⟨slot, v, -, ignored, answered⟩
  · exact called
  · refine answer ?_ (coherent'.ignoreSession ignored) answered
    rcases ignoreSession_cases ignored with rfl | ⟨-, -, ignores⟩
    · exact called
    · exact called.answer coherent' ignores

/-- The thread that leaves the loop takes its payload along. -/
theorem unlocked (h : Punctual w) (coherent : Coherent w) {t : Nat} {req : NiRequest}
    (found : w.requests[t]? = some req) (s : LocEngNiSession) (emptied : s.rawRequest = none)
    (msg : Option LocEngInformNiResponse) :
    Punctual ((w.setSession req.slot s).setThread t (.unlocked msg)) := by
  have none_held : ∀ {n}, s.rawRequest ≠ some n := by simp [emptied]
  refine (h.setSession req.slot s fun held => absurd held none_held).setThread
    (coherent.setSession req.slot s fun held => absurd held none_held) found ?_
  intro held
  rw [setSession_self] at held
  exact absurd held none_held

theorem loop (h : Punctual w) (coherent : Coherent w) {t : Nat} {req : NiRequest}
    (found : w.requests[t]? = some req) {expire_time : Int}
    (late : (w.sessions req.slot).rawRequest = some t → (w.sessions req.slot).respRecvd = false →
      req.thread.Patient req.deadline (w.now + seconds (w.sessions req.slot).respTimeLeft) w.now →
      req.deadline ≤ expire_time) :
    Punctual (w.loop t req.slot expire_time) := by
  rcases loop_cases t req.slot expire_time w with ⟨-, waits⟩ | ⟨-, leaves⟩
  · rw [waits]
    exact h.setThread coherent found late
  · rw [leaves]
    exact h.unlocked coherent found _ rfl _

theorem tail (h : Punctual w) (coherent : Coherent w) {t : Nat} {req : NiRequest}
    (found : w.requests[t]? = some req) {msg : Option LocEngInformNiResponse}
    (sends : req.thread = .unlocked msg)
    (orderly : (w.sessions req.slot).rawRequest = none ∨ (w.sessions req.slot).respRecvd = true) :
    Punctual (w.tail t req.slot msg) := by
  have cleared := h.setSession req.slot
    { w.sessions req.slot with respTimeLeft := 0, reqID := 0 } fun held => by
      refine ⟨orderly.resolve_left fun empty => ?_, held⟩
      exact absurd (held.symm.trans empty) nofun
  have coherent' := coherent.setSession req.slot
    { w.sessions req.slot with respTimeLeft := 0, reqID := 0 } id
  have exits := cleared.setThread (p := .exited) coherent' found fun _ _ old => by
    rw [sends] at old
    exact old
  simp only [NiWorld.tail]
  split
  · exact exits.record _
  · exact exits

theorem accept (h : Punctual w) (coherent : Coherent w) {slot : NiSlot}
    {notif : GpsNiNotification} {created : Bool}
    (fresh : ¬ HasId .session (w.reqIDCounter + 1) w ∧ ¬ HasId .sessionEs (w.reqIDCounter + 1) w)
    (passThrough : Bool) : Punctual (w.accept slot notif passThrough created) := by
  have hasId : ∀ {other id}, HasId other id (w.accept slot notif passThrough created) →
      (other = slot ∧ id = w.reqIDCounter + 1) ∨ HasId other id w := by
    rintro other id ⟨n, held, req, found, same⟩
    rcases coherent.of_accept held found with ⟨rfl, rfl⟩ | ⟨-, held, found⟩
    · exact .inl ⟨rfl, same.symm⟩
    · exact .inr ⟨n, held, req, found, same⟩
  refine ⟨h.registered, ?_, ?_, ?_⟩
  · intro other n req held found waits
    rcases coherent.of_accept held found with ⟨rfl, rfl⟩ | ⟨here, held, found⟩
    · simp [NiWorld.accept, NiWorld.accepted]
    · rw [accept_sessions_of_ne here] at waits ⊢
      exact h.known held found waits
  · intro other n req held found waits
    rcases coherent.of_accept held found with ⟨rfl, rfl⟩ | ⟨here, held, found⟩
    · cases created with
      | true => simp [NiWorld.accept, NiWorld.accepted, NiThread.Patient]
      | false => trivial
    · rw [accept_sessions_of_ne here] at waits ⊢
      exact h.patient held found waits
  · intro id ni es
    rcases hasId ni with ⟨rfl, rfl⟩ | oldNi
    · rcases hasId es with ⟨here, -⟩ | oldEs
      · cases here
      · exact fresh.2 oldEs
    · rcases hasId es with ⟨rfl, rfl⟩ | oldEs
      · exact fresh.1 oldNi
      · exact h.distinct oldNi oldEs

theorem threadMove (h : Punctual w) (coherent : Coherent w) {l : Label} {t : Nat}
    {req : NiRequest} (orderly : Orderly w l) (found : w.requests[t]? = some req)
    (move : ThreadMove w t req l u) : Punctual u := by
  cases move with
  | start created =>
      refine h.loop coherent found fun _ _ patient => ?_
      rwa [created] at patient
  | spurious waits =>
      refine h.setThread coherent found fun _ _ patient => ?_
      rwa [waits] at patient
  | timeout waits due =>
      refine (h.setThread coherent found fun _ _ patient => ?_).record _
      rw [waits] at patient
      exact Int.le_trans patient due
  | wake woken =>
      refine h.loop coherent found fun _ _ patient => ?_
      rwa [woken] at patient
  | expire _ =>
      rw [expireWait_eq]
      exact h.unlocked coherent found _ rfl _
  | tail sends => exact h.tail coherent found sends (orderly req found)

theorem step (h : Punctual w) (coherent : Coherent w) {l : Label} (orderly : Orderly w l)
    (taken : step w l = some u) : Punctual u := by
  cases l with
  | tick elapsed =>
      obtain rfl := Option.some.inj taken
      refine ⟨h.registered, h.known, ?_, h.distinct⟩
      intro slot n req held found waits
      have later := (h.patient held found waits).tick elapsed
      rwa [Int.add_right_comm] at later
  | request notif passThrough created =>
      obtain rfl := Option.some.inj taken
      rcases requestHandler_cases notif passThrough created w with same | ⟨slot, admitted, taken⟩
      · rw [same]
        exact h
      · rw [taken]
        exact h.accept coherent (orderly slot admitted).2 passThrough
  | respond notif_id r woken => exact h.respond coherent taken
  | restart woken => exact h.resetOnEngineRestart coherent taken
  | start t | spurious t | timeout t | wake t | tail t =>
      obtain ⟨req, found, move⟩ := threadMove_of_step taken rfl
      exact h.threadMove coherent orderly found move

end Punctual

theorem Coherent.step_orderly (h : Coherent w) {l : Label} (orderly : Orderly w l)
    (taken : LocEngNi.step w l = some u) : Coherent u := by
  refine h.step ?_ taken
  rintro notif passThrough created rfl slot admitted
  exact (orderly slot admitted).1

end Msm8974.LocEngNi
