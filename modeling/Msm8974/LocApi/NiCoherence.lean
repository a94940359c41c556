import Msm8974.LocApi.LocEngNi

/-!
A session is coherent when its payload belongs to the only thread that still has its
locked section to finish there. Every step keeps that, save for a request that is taken
into a session with a thread or an answer left over.
-/

namespace Msm8974.LocEngNi
open NiWorld

variable {w u : NiWorld}

/-- A payload is held in the session its request was taken into, its thread is the only one
there that has not left the locked section, and a thread sends its own payload. -/
structure Coherent (w : NiWorld) : Prop where
  holder : ∀ {slot : NiSlot} {n : Nat}, (w.sessions slot).rawRequest = some n →
    ∃ req, w.requests[n]? = some req ∧ req.slot = slot
  alone : ∀ {slot : NiSlot} {n t : Nat} {req : NiRequest},
    (w.sessions slot).rawRequest = some n → w.requests[t]? = some req → req.slot = slot →
    req.thread.Unfinished → t = n
  message : ∀ {t : Nat} {req : NiRequest} {m : LocEngInformNiResponse},
    w.requests[t]? = some req → req.thread = .unlocked (some m) → m.mPayload = t

/-- The session can take a request: no answer is left in it and no thread of it is still
before its locked section or in it. -/
def Clean (slot : NiSlot) (w : NiWorld) : Prop :=
  (w.sessions slot).respRecvd = false ∧
    ∀ req ∈ w.requests, req.slot = slot → ¬ req.thread.Unfinished

instance (slot : NiSlot) (w : NiWorld) : Decidable (Clean slot w) :=
  inferInstanceAs (Decidable (_ ∧ _))

namespace Coherent

theorem init (h : IsInit w) : Coherent w := by
  constructor
  · intro slot n held
    simp [(h.sessions slot).2.2.1] at held
  · intro slot n t req held
    simp [(h.sessions slot).2.2.1] at held
  · intro t req m found
    simp [h.requests] at found

theorem setSession (h : Coherent w) (slot : NiSlot) (s : LocEngNiSession)
    (keeps : ∀ {n}, s.rawRequest = some n → (w.sessions slot).rawRequest = some n) :
    Coherent (w.setSession slot s) := by
  have held : ∀ {other n}, ((w.setSession slot s).sessions other).rawRequest = some n →
      (w.sessions other).rawRequest = some n := by
    intro other n
    by_cases same : other = slot
    · subst same
      rw [setSession_self]
      exact keeps
    · rw [setSession_of_ne s w same]
      exact id
  constructor
  · intro other n h'
    exact h.holder (held h')
  · intro other n t req h'
    exact h.alone (held h')
  · exact h.message

theorem updateThreads (h : Coherent w) {f : Nat → NiRequest → NiThread}
    (unfinished : ∀ {t req}, w.requests[t]? = some req → (f t req).Unfinished →
      req.thread.Unfinished)
    (message : ∀ {t req m}, w.requests[t]? = some req → f t req = .unlocked (some m) →
      req.thread = .unlocked (some m) ∨ m.mPayload = t) :
    Coherent (w.updateThreads f) := by
  constructor
  · intro slot n held
    obtain ⟨req, found, same⟩ := h.holder held
    exact ⟨{ req with thread := f n req }, by rw [updateThreads_getElem?, found]; rfl, same⟩
  · intro slot n t req held found same running
    obtain ⟨old, before, rfl⟩ := of_updateThreads found
    exact h.alone held before same (unfinished before running)
  · intro t req m found sends
    obtain ⟨old, before, rfl⟩ := of_updateThreads found
    cases message before sends with
    | inl sent => exact h.message before sent
    | inr own => exact own

theorem setThread (h : Coherent w) {t : Nat} {req : NiRequest} {p : NiThread}
    (found : w.requests[t]? = some req) (unfinished : p.Unfinished → req.thread.Unfinished)
    (message : ∀ {m}, p = .unlocked (some m) → m.mPayload = t) : Coherent (w.setThread t p) := by
  refine h.updateThreads ?_ ?_
  · intro i other found' running
    split at running
    · subst i
      obtain rfl := Option.some.inj (found.symm.trans found')
      exact unfinished running
    · exact running
  · intro i other m found' sends
    split at sends
    · subst i
      exact .inr (message sends)
    · exact .inl sends

theorem signal (h : Coherent w) {slot : NiSlot} {woken : List Nat}
    (hs : w.signal slot woken = some u) : Coherent u := by
  rw [signal_eq hs]
  refine h.updateThreads ?_ ?_
  · intro t req _ running
    split at running
    · exact wakeUp_unfinished.mp running
    · exact running
  · intro t req m _ sends
    split at sends
    · exact .inl (wakeUp_eq_unlocked.mp sends)
    · exact .inl sends

theorem answer (h : Coherent w) {slot : NiSlot} {r : GpsUserResponseType} {woken : List Nat}
    (ha : w.answer slot r woken = some u) : Coherent u :=
  (h.setSession slot { w.sessions slot with resp := r, respRecvd := true } id).signal ha

theorem ignoreSession (h : Coherent w) {slot : NiSlot} {r : GpsUserResponseType}
    {woken : List Nat} (hi : w.ignoreSession slot r woken = some u) : Coherent u := by
  rcases ignoreSession_cases hi with rfl | ⟨-, -, ignored⟩
  · exact h
  · exact h.answer ignored

theorem reset (h : Coherent w) {slot : NiSlot} {woken : List Nat}
    (hr : w.reset slot woken = some u) : Coherent u := by
  rcases reset_cases hr with rfl | signalled
  · exact h
  · have emptied := h.setSession slot
      { w.sessions slot with rawRequest := none, respRecvd := true } fun held => by cases held
    exact emptied.signal signalled

theorem record (h : Coherent w) (e : NiEvent) : Coherent (w.record e) :=
  ⟨h.holder, h.alone, h.message⟩

theorem leaveLoop (h : Coherent w) {t : Nat} {req : NiRequest} (found : w.requests[t]? = some req)
    (running : req.thread.Unfinished) : Coherent (w.leaveLoop t req.slot) := by
  have emptied := h.setSession req.slot
    { w.sessions req.slot with respRecvd := false, rawRequest := none } nofun
  refine emptied.setThread found (fun _ => running) ?_
  intro m sends
  split at sends
  · obtain ⟨n, held, rfl⟩ := Option.map_eq_some_iff.mp (NiThread.unlocked.inj sends)
    exact (h.alone held found rfl running).symm
  · cases sends

theorem expireWait (h : Coherent w) {t : Nat} {req : NiRequest}
    (found : w.requests[t]? = some req) (running : req.thread.Unfinished) :
    Coherent (w.expireWait t req.slot) :=
  leaveLoop (h.setSession req.slot
    { w.sessions req.slot with resp := GPS_NI_RESPONSE_NORESP } id) found running

theorem loop (h : Coherent w) {t : Nat} {req : NiRequest} (found : w.requests[t]? = some req)
    (running : req.thread.Unfinished) (expire_time : Int) :
    Coherent (w.loop t req.slot expire_time) := by
  rcases loop_cases t req.slot expire_time w with ⟨-, waits⟩ | ⟨-, leaves⟩
  · rw [waits]
    exact h.setThread found (fun _ => running) fun sends => NiThread.noConfusion sends
  · rw [leaves]
    exact h.leaveLoop found running

theorem tail (h : Coherent w) {t : Nat} {req : NiRequest} (found : w.requests[t]? = some req)
    (msg : Option LocEngInformNiResponse) : Coherent (w.tail t req.slot msg) := by
  have cleared : Coherent ((w.setSession req.slot
      { w.sessions req.slot with respTimeLeft := 0, reqID := 0 }).setThread t .exited) :=
    (h.setSession req.slot { w.sessions req.slot with respTimeLeft := 0, reqID := 0 } id).setThread
      found False.elim fun sends => NiThread.noConfusion sends
  simp only [NiWorld.tail]
  split
  · exact cleared.record _
  · exact cleared

theorem accept (h : Coherent w) {slot : NiSlot} (clean : Clean slot w)
    (notif : GpsNiNotification) (passThrough created : Bool) :
    Coherent (w.accept slot notif passThrough created) := by
  have free : ∀ {t : Nat} {req : NiRequest}, w.requests[t]? = some req → req.slot = slot →
      ¬ req.thread.Unfinished :=
    fun found => clean.2 _ (List.mem_of_getElem? found)
  constructor
  · intro other n held
    by_cases same : other = slot
    · subst same
      obtain ⟨-, rfl⟩ := accept_rawRequest held
      exact ⟨_, accept_new .., rfl⟩
    · rw [accept_sessions_of_ne same] at held
      obtain ⟨req, found, here⟩ := h.holder held
      exact ⟨req, accept_getElem? found, here⟩
  · intro other n t req held found here running
    by_cases same : other = slot
    · subst same
      obtain ⟨-, rfl⟩ := accept_rawRequest held
      cases of_accept found with
      | inl old => exact absurd running (free old here)
      | inr new => exact new.1
    · rw [accept_sessions_of_ne same] at held
      cases of_accept found with
      | inl old => exact h.alone held old here running
      | inr new => exact absurd (here.symm.trans (congrArg NiRequest.slot new.2)) same
  · intro t req m found sends
    cases of_accept found with
    | inl old => exact h.message old sends
    | inr new =>
        rw [new.2] at sends
        cases created <;> cases sends

/-- The payload of a session after `accept` is the new one, or one that was there before. -/
theorem of_accept (h : Coherent w) {slot other : NiSlot} {notif : GpsNiNotification}
    {passThrough created : Bool} {n : Nat} {req : NiRequest}
    (held : ((w.accept slot notif passThrough created).sessions other).rawRequest = some n)
    (found : (w.accept slot notif passThrough created).requests[n]? = some req) :
    (other = slot ∧ req = w.accepted slot notif created) ∨
      (other ≠ slot ∧ (w.sessions other).rawRequest = some n ∧ w.requests[n]? = some req) := by
  by_cases same : other = slot
  · subst same
    obtain ⟨-, rfl⟩ := accept_rawRequest held
    rw [accept_new] at found
    exact .inl ⟨rfl, (Option.some.inj found).symm⟩
  · rw [accept_sessions_of_ne same] at held
    obtain ⟨old, found', -⟩ := h.holder held
    have kept : (w.accept slot notif passThrough created).requests[n]? = some old :=
      accept_getElem? found'
    obtain rfl := Option.some.inj (kept.symm.trans found)
    exact .inr ⟨same, held, found'⟩

theorem requestHandler (h : Coherent w) {notif : GpsNiNotification}
    (clean : ∀ slot ∈ w.admits notif.ni_type, Clean slot w) (passThrough created : Bool) :
    Coherent (w.requestHandler notif passThrough created) := by
  rcases requestHandler_cases notif passThrough created w with same | ⟨slot, admitted, taken⟩
  · rw [same]
    exact h
  · rw [taken]
    exact h.accept (clean slot admitted) notif passThrough created

theorem respond (h : Coherent w) {notif_id : BitVec 32} {r : GpsUserResponseType}
    {woken : List Nat} (hr : w.respond notif_id r woken = some u) : Coherent u := by
  rcases respond_cases hr with rfl | ⟨slot, v, -, ignored, answered⟩
  · exact h.record _
  · exact ((h.record _).ignoreSession ignored).answer answered

theorem resetOnEngineRestart (h : Coherent w) {woken : List Nat}
    (hr : w.resetOnEngineRestart woken = some u) : Coherent u := by
  rcases restart_cases hr with rfl | ⟨v, es, ni⟩
  · exact h
  · exact (h.reset es).reset ni

theorem threadMove (h : Coherent w) {l : Label} {t : Nat} {req : NiRequest}
    (found : w.requests[t]? = some req) (move : ThreadMove w t req l u) : Coherent u := by
  cases move with
  | start created => exact h.loop found (created ▸ trivial) _
  | spurious waits =>
      exact h.setThread found (fun _ => waits ▸ trivial) fun sends => NiThread.noConfusion sends
  | timeout waits _ =>
      refine (h.setThread found (fun _ => waits ▸ trivial) ?_).record _
      exact fun sends => NiThread.noConfusion sends
  | wake woken => exact h.loop found (woken ▸ trivial) _
  | expire due => exact h.expireWait found (due ▸ trivial)
  | tail _ => exact h.tail found _

/-- Only a request taken into an unclean session can spoil coherence. -/
theorem step (h : Coherent w) {l : Label}
    (clean : ∀ notif passThrough created, l = .request notif passThrough created →
      ∀ slot ∈ w.admits notif.ni_type, Clean slot w)
    (taken : step w l = some u) : Coherent u := by
  cases l with
  | tick elapsed =>
      obtain rfl := Option.some.inj taken
      exact ⟨h.holder, h.alone, h.message⟩
  | request notif passThrough created =>
      obtain rfl := Option.some.inj taken
      exact h.requestHandler (clean _ _ _ rfl) passThrough created
  | respond notif_id r woken => exact h.respond taken
  | restart woken => exact h.resetOnEngineRestart taken
  | start t | spurious t | timeout t | wake t | tail t =>
      obtain ⟨req, found, move⟩ := threadMove_of_step taken rfl
      exact h.threadMove found move

end Coherent
end Msm8974.LocEngNi
