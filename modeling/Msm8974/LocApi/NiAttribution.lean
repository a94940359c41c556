import Msm8974.LocApi.NiCoherence

/-!
Whose answer a response to the network carries. An answer is put into a session, not
given to a request, so it stays with its request only as long as the session is not
handed on with an answer or a thread left over, and is not reached under a wiped id.
-/

namespace Msm8974.LocEngNi
open Msm8974.Runs Msm8974.Traces NiWorld

variable {w u : NiWorld}

/-- The user answered request `n` with `resp`, after its notification. -/
def AnsweredWith (n : Nat) (resp : GpsUserResponseType) (log : List NiEvent) : Prop :=
  ∃ id before after, log = before ++ .notify n id :: after ∧ .respond id resp ∈ after

/-- A response that is sent is the user's for the request of its payload, or says that the
thread of that request timed out. -/
def Justified (log : List NiEvent) : NiEvent → Prop
  | .inform t m =>
      (m.mResponse = GPS_NI_RESPONSE_NORESP ∧ t = m.mPayload ∧ .timedOut t ∈ log) ∨
        AnsweredWith m.mPayload m.mResponse log
  | _ => True

theorem AnsweredWith.concat {n : Nat} {resp : GpsUserResponseType} {log : List NiEvent}
    (h : AnsweredWith n resp log) (x : NiEvent) : AnsweredWith n resp (log ++ [x]) := by
  obtain ⟨id, before, after, rfl, answered⟩ := h
  exact ⟨id, before, after ++ [x], by simp, List.mem_append_left _ answered⟩

theorem Justified.concat {log : List NiEvent} {e : NiEvent} (h : Justified log e) (x : NiEvent) :
    Justified (log ++ [x]) e := by
  cases e with
  | inform t m =>
      cases h with
      | inl due => exact .inl ⟨due.1, due.2.1, List.mem_append_left _ due.2.2⟩
      | inr answered => exact .inr (answered.concat x)
  | _ => trivial

theorem answeredWith_respond {n : Nat} {id : BitVec 32} {resp : GpsUserResponseType}
    {log : List NiEvent} (notified : .notify n id ∈ log) :
    AnsweredWith n resp (log ++ [.respond id resp]) := by
  obtain ⟨before, after, rfl⟩ := List.append_of_mem notified
  exact ⟨id, before, after ++ [.respond id resp], by simp, by simp⟩

/-- What is on its way to be sent is justified by the log, and so is all that was sent. -/
structure Attributed (w : NiWorld) : Prop where
  notified : ∀ {n : Nat} {req : NiRequest}, w.requests[n]? = some req →
    .notify n req.notification_id ∈ w.log
  answered : ∀ {slot : NiSlot} {n : Nat}, (w.sessions slot).rawRequest = some n →
    (w.sessions slot).respRecvd = true → (w.sessions slot).resp ≠ GPS_NI_RESPONSE_IGNORE →
    AnsweredWith n (w.sessions slot).resp w.log
  timedOut : ∀ {t : Nat} {req : NiRequest}, w.requests[t]? = some req → req.thread = .timedOut →
    .timedOut t ∈ w.log
  message : ∀ {t : Nat} {req : NiRequest} {m : LocEngInformNiResponse},
    w.requests[t]? = some req → req.thread = .unlocked (some m) → Justified w.log (.inform t m)
  sent : AtEach Justified w.log

/-- The user response reaches no payload of a request with another notification id. -/
def OwnResponse (notif_id : BitVec 32) (w : NiWorld) : Prop :=
  ∀ slot ∈ w.respondSession notif_id, ∀ n ∈ (w.sessions slot).rawRequest,
    ∀ req ∈ w.requests[n]?, req.notification_id = notif_id

def Consistent (w : NiWorld) : Label → Prop
  | .request notif _ _ => ∀ slot ∈ w.admits notif.ni_type, Clean slot w
  | .respond notif_id _ _ => OwnResponse notif_id w
  | _ => True

instance (notif_id : BitVec 32) (w : NiWorld) : Decidable (OwnResponse notif_id w) :=
  inferInstanceAs (Decidable (∀ slot ∈ w.respondSession notif_id,
    ∀ n ∈ (w.sessions slot).rawRequest, ∀ req ∈ w.requests[n]?, req.notification_id = notif_id))

instance (w : NiWorld) : (l : Label) → Decidable (Consistent w l)
  | .request _ _ _ => inferInstanceAs (Decidable (∀ slot ∈ w.admits _, Clean slot w))
  | .respond _ _ _ => inferInstanceAs (Decidable (OwnResponse _ w))
  | .tick _ | .restart _ | .start _ | .spurious _ | .timeout _ | .wake _ | .tail _ =>
      instDecidableTrue

namespace Attributed

theorem init (h : IsInit w) : Attributed w := by
  constructor
  · intro n req found
    simp [h.requests] at found
  · intro slot n held
    simp [(h.sessions slot).2.2.1] at held
  · intro t req found
    simp [h.requests] at found
  · intro t req m found
    simp [h.requests] at found
  · rw [h.log]
    exact atEach_nil _

theorem record (h : Attributed w) {e : NiEvent} (he : Justified w.log e) :
    Attributed (w.record e) := by
  constructor
  · intro n req found
    exact List.mem_append_left _ (h.notified found)
  · intro slot n held received kept
    exact (h.answered held received kept).concat e
  · intro t req found due
    exact List.mem_append_left _ (h.timedOut found due)
  · intro t req m found sends
    exact (h.message found sends).concat e
  · exact atEach_concat.mpr ⟨h.sent, he⟩

theorem setSession (h : Attributed w) (slot : NiSlot) (s : LocEngNiSession)
    (answered : ∀ {n}, s.rawRequest = some n → s.respRecvd = true →
      s.resp ≠ GPS_NI_RESPONSE_IGNORE → AnsweredWith n s.resp w.log) :
    Attributed (w.setSession slot s) := by
  refine ⟨h.notified, ?_, h.timedOut, h.message, h.sent⟩
  intro other n
  by_cases same : other = slot
  · subst same
    rw [setSession_self]
    exact answered
  · rw [setSession_of_ne s w same]
    exact h.answered

theorem updateThreads (h : Attributed w) {f : Nat → NiRequest → NiThread}
    (timedOut : ∀ {t req}, w.requests[t]? = some req → f t req = .timedOut →
      .timedOut t ∈ w.log)
    (message : ∀ {t req m}, w.requests[t]? = some req → f t req = .unlocked (some m) →
      Justified w.log (.inform t m)) :
    Attributed (w.updateThreads f) := by
  refine ⟨?_, h.answered, ?_, ?_, h.sent⟩
  · intro n req found
    obtain ⟨old, before, rfl⟩ := of_updateThreads found
    have known := h.notified before
    exact known
  · intro t req found due
    obtain ⟨old, before, rfl⟩ := of_updateThreads found
    exact timedOut before due
  · intro t req m found sends
    obtain ⟨old, before, rfl⟩ := of_updateThreads found
    exact message before sends

theorem setThread (h : Attributed w) {t : Nat} {p : NiThread}
    (timedOut : p = .timedOut → .timedOut t ∈ w.log)
    (message : ∀ {m}, p = .unlocked (some m) → Justified w.log (.inform t m)) :
    Attributed (w.setThread t p) := by
  refine h.updateThreads ?_ ?_
  · intro i req found due
    split at due
    · subst i
      exact timedOut due
    · exact h.timedOut found due
  · intro i req m found sends
    split at sends
    · subst i
      exact message sends
    · exact h.message found sends

theorem signal (h : Attributed w) {slot : NiSlot} {woken : List Nat}
    (hs : w.signal slot woken = some u) : Attributed u := by
  rw [signal_eq hs]
  refine h.updateThreads ?_ ?_
  · intro t req found due
    split at due
    · exact h.timedOut found (wakeUp_eq_timedOut.mp due)
    · exact h.timedOut found due
  · intro t req m found sends
    split at sends
    · exact h.message found (wakeUp_eq_unlocked.mp sends)
    · exact h.message found sends

theorem answer (h : Attributed w) {slot : NiSlot} {r : GpsUserResponseType} {woken : List Nat}
    (answered : ∀ {n}, (w.sessions slot).rawRequest = some n → r ≠ GPS_NI_RESPONSE_IGNORE →
      AnsweredWith n r w.log)
    (ha : w.answer slot r woken = some u) : Attributed u :=
  (h.setSession slot { w.sessions slot with resp := r, respRecvd := true }
    fun held _ kept => answered held kept).signal ha

theorem reset (h : Attributed w) {slot : NiSlot} {woken : List Nat}
    (hr : w.reset slot woken = some u) : Attributed u := by
  rcases reset_cases hr with rfl | signalled
  · exact h
  · have emptied := h.setSession slot
      { w.sessions slot with rawRequest := none, respRecvd := true } fun held => by cases held
    exact emptied.signal signalled

theorem resetOnEngineRestart (h : Attributed w) {woken : List Nat}
    (hr : w.resetOnEngineRestart woken = some u) : Attributed u := by
  rcases restart_cases hr with rfl | ⟨v, es, ni⟩
  · exact h
  · exact (h.reset es).reset ni

theorem respond (h : Attributed w) (coherent : Coherent w) {notif_id : BitVec 32}
    {r : GpsUserResponseType} {woken : List Nat} (own : OwnResponse notif_id w)
    (hr : w.respond notif_id r woken = some u) : Attributed u := by
  have called : Attributed (w.record (.respond notif_id r)) := h.record trivial
  rcases respond_cases hr with rfl | ⟨slot, v, matched, ignored, answered⟩
  · exact called
  · obtain ⟨sessions, log⟩ := ignoreSession_frame ignored
    have ignoring : Attributed v := by
      rcases ignoreSession_cases ignored with rfl | ⟨-, -, ignores⟩
      · exact called
      · exact called.answer (fun _ kept => absurd rfl kept) ignores
    refine ignoring.answer ?_ answered
    intro n held _
    rw [sessions] at held
    rw [log]
    obtain ⟨req, found, -⟩ := coherent.holder held
    have id : req.notification_id = notif_id := own slot matched n held req found
    exact answeredWith_respond (id ▸ h.notified found)

theorem leaveLoop (h : Attributed w) {t : Nat} {slot : NiSlot}
    (justified : ∀ {n}, (w.sessions slot).rawRequest = some n →
      (w.sessions slot).resp ≠ GPS_NI_RESPONSE_IGNORE →
      Justified w.log (.inform t ⟨(w.sessions slot).resp, n⟩)) :
    Attributed (w.leaveLoop t slot) := by
  have emptied := h.setSession slot
    { w.sessions slot with respRecvd := false, rawRequest := none } nofun
  refine emptied.setThread (fun due => NiThread.noConfusion due) ?_
  intro m sends
  split at sends
  · rename_i kept
    obtain ⟨n, held, rfl⟩ := Option.map_eq_some_iff.mp (NiThread.unlocked.inj sends)
    exact justified held kept
  · cases sends

theorem loop (h : Attributed w) (t : Nat) (slot : NiSlot) (expire_time : Int) :
    Attributed (w.loop t slot expire_time) := by
  rcases loop_cases t slot expire_time w with ⟨-, waits⟩ | ⟨received, leaves⟩
  · rw [waits]
    exact h.setThread (fun due => NiThread.noConfusion due) fun sends => NiThread.noConfusion sends
  · rw [leaves]
    exact h.leaveLoop fun held kept => .inr (h.answered held received kept)

theorem expireWait (h : Attributed w) (coherent : Coherent w) {t : Nat} {req : NiRequest}
    (found : w.requests[t]? = some req) (due : req.thread = .timedOut) :
    Attributed (w.expireWait t req.slot) := by
  have noResponse : Justified w.log (.inform t ⟨GPS_NI_RESPONSE_NORESP, t⟩) :=
    .inl ⟨rfl, rfl, h.timedOut found due⟩
  rw [expireWait_eq]
  have emptied := h.setSession req.slot { w.sessions req.slot with
    resp := GPS_NI_RESPONSE_NORESP
    respRecvd := false
    rawRequest := none } nofun
  refine emptied.setThread (fun due => NiThread.noConfusion due) ?_
  intro m sends
  obtain ⟨n, held, rfl⟩ := Option.map_eq_some_iff.mp (NiThread.unlocked.inj sends)
  obtain rfl : t = n := coherent.alone held found rfl (due ▸ trivial)
  exact noResponse

theorem tail (h : Attributed w) {t : Nat} {req : NiRequest} {msg : Option LocEngInformNiResponse}
    (found : w.requests[t]? = some req) (sends : req.thread = .unlocked msg) :
    Attributed (w.tail t req.slot msg) := by
  have cleared : Attributed ((w.setSession req.slot
      { w.sessions req.slot with respTimeLeft := 0, reqID := 0 }).setThread t .exited) :=
    (h.setSession req.slot { w.sessions req.slot with respTimeLeft := 0, reqID := 0 }
      h.answered).setThread (fun due => NiThread.noConfusion due)
        fun sends => NiThread.noConfusion sends
  cases msg with
  | none => exact cleared
  | some m => exact cleared.record (h.message found sends)

theorem accept (h : Attributed w) {slot : NiSlot} (clean : Clean slot w)
    (notif : GpsNiNotification) (passThrough created : Bool) :
    Attributed (w.accept slot notif passThrough created) := by
  constructor
  · intro n req found
    cases of_accept found with
    | inl old => exact List.mem_append_left _ (h.notified old)
    | inr new =>
        obtain ⟨rfl, rfl⟩ := new
        exact List.mem_append_right _ (.head _)
  · intro other n held received kept
    by_cases same : other = slot
    · subst same
      have empty : (w.sessions other).respRecvd = true := by
        simpa [NiWorld.accept] using received
      simp [clean.1] at empty
    · rw [accept_sessions_of_ne same] at held received kept ⊢
      exact (h.answered held received kept).concat _
  · intro t req found due
    cases of_accept found with
    | inl old => exact List.mem_append_left _ (h.timedOut old due)
    | inr new =>
        rw [new.2] at due
        cases created <;> cases due
  · intro t req m found sends
    cases of_accept found with
    | inl old => exact (h.message old sends).concat _
    | inr new =>
        rw [new.2] at sends
        cases created <;> cases sends
  · exact atEach_concat.mpr ⟨h.sent, trivial⟩

theorem requestHandler (h : Attributed w) {notif : GpsNiNotification}
    (clean : ∀ slot ∈ w.admits notif.ni_type, Clean slot w) (passThrough created : Bool) :
    Attributed (w.requestHandler notif passThrough created) := by
  rcases requestHandler_cases notif passThrough created w with same | ⟨slot, admitted, taken⟩
  · rw [same]
    exact h
  · rw [taken]
    exact h.accept (clean slot admitted) notif passThrough created

theorem threadMove (h : Attributed w) (coherent : Coherent w) {l : Label} {t : Nat}
    {req : NiRequest} (found : w.requests[t]? = some req) (move : ThreadMove w t req l u) :
    Attributed u := by
  cases move with
  | start _ => exact h.loop t req.slot _
  | spurious _ =>
      exact h.setThread (fun due => NiThread.noConfusion due)
        fun sends => NiThread.noConfusion sends
  | timeout _ _ =>
      have logged : Attributed (w.record (.timedOut t)) := h.record trivial
      refine logged.setThread (fun _ => ?_) fun sends => NiThread.noConfusion sends
      exact List.mem_append_right _ (.head _)
  | wake _ => exact h.loop t req.slot _
  | expire due => exact h.expireWait coherent found due
  | tail sends => exact h.tail found sends

theorem step (h : Attributed w) (coherent : Coherent w) {l : Label} (consistent : Consistent w l)
    (taken : step w l = some u) : Attributed u := by
  cases l with
  | tick elapsed =>
      obtain rfl := Option.some.inj taken
      exact ⟨h.notified, h.answered, h.timedOut, h.message, h.sent⟩
  | request notif passThrough created =>
      obtain rfl := Option.some.inj taken
      exact h.requestHandler consistent passThrough created
  | respond notif_id r woken => exact h.respond coherent consistent taken
  | restart woken => exact h.resetOnEngineRestart taken
  | start t | spurious t | timeout t | wake t | tail t =>
      obtain ⟨req, found, move⟩ := threadMove_of_step taken rfl
      exact h.threadMove coherent found move

end Attributed

/-- In a consistent run from loc_eng_ni_init every response that is sent is justified by
what happened before. -/
theorem responses_belong_to_their_requests {s : NiWorld} {ls : List Label} (initial : IsInit s)
    (consistent : Meets step Consistent s ls) :
    Throughout step (fun w => AtEach Justified w.log) s ls := by
  refine throughout_of_meets (I := fun w => Coherent w ∧ Attributed w) ?_ ?_ consistent
    ⟨.init initial, .init initial⟩
  · intro w l u ⟨coherent, attributed⟩ consistent taken
    refine ⟨coherent.step ?_ taken, attributed.step coherent consistent taken⟩
    rintro notif passThrough created rfl
    exact consistent
  · intro w h
    exact h.2.sent

section Runs

def initial : NiWorld where
  ni_notify_cb := true
  sessions _ := ⟨0, false, none, 0, 0⟩
  reqIDCounter := 0
  mute_session_state := .none
  now := 0
  requests := []
  log := []

theorem initial_isInit : IsInit initial := ⟨rfl, fun _ => ⟨rfl, rfl, rfl, rfl⟩, rfl, rfl⟩

def plainRequest : GpsNiNotification := ⟨1, 2, 0⟩

theorem accepted_request_is_attributed :
    Throughout step (fun w => AtEach Justified w.log) initial
      [.request plainRequest true true, .start 0, .respond 1 GPS_NI_RESPONSE_ACCEPT [0], .wake 0,
        .tail 0] :=
  responses_belong_to_their_requests initial_isInit (by decide)

/-- The user accepts the first request, the modem restarts before its thread is awake, and
the thread sends the answer for the payload of the second request. -/
theorem stale_answer_is_sent_for_next_request :
    IsInit initial ∧ ∃ w,
      Run step initial
        [.request plainRequest true true, .start 0, .respond 1 GPS_NI_RESPONSE_ACCEPT [0],
          .restart [], .request plainRequest true true, .wake 0, .tail 0] w ∧
      ¬ AtEach Justified w.log := by
  refine ⟨initial_isInit, _, run_iff_foldlM.mpr rfl, fun all => ?_⟩
  have sent := all [.notify 0 1, .respond 1 GPS_NI_RESPONSE_ACCEPT, .notify 1 2]
    (.inform 0 ⟨GPS_NI_RESPONSE_ACCEPT, 1⟩) [] rfl
  rcases sent with ⟨noResponse, -⟩ | ⟨id, before, after, split, answered⟩
  · exact absurd noResponse (by decide)
  · have notified : NiEvent.notify 1 id ∈
        [NiEvent.notify 0 1, .respond 1 GPS_NI_RESPONSE_ACCEPT, .notify 1 2] := by
      rw [split]
      exact List.mem_append_right _ (.head _)
    have called : NiEvent.respond id GPS_NI_RESPONSE_ACCEPT ∈
        [NiEvent.notify 0 1, .respond 1 GPS_NI_RESPONSE_ACCEPT, .notify 1 2] := by
      rw [split]
      exact List.mem_append_right _ (.tail _ answered)
    obtain rfl : id = 2 := by simpa using notified
    simp at called

end Runs
end Msm8974.LocEngNi
