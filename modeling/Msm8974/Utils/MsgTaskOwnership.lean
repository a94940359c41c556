import Msm8974.Utils.MsgQDelivery
import Msm8974.Utils.MsgTask

/-!
Who deletes the messages of a MsgTask. The queue accounts for those it accepted, run() deletes
what it receives and ~MsgTask what is left. Nobody deletes a message that the queue refused,
since sendMsg does not look at what msg_q_snd returns.
-/

namespace Msm8974.Tasks.MsgTask
open Msm8974.Runs Msm8974.MsgQ

variable {L : Type}

/-- The messages passed to sendMsg, whether the queue accepted them or not. -/
def passed (t : MsgTask L) : List (Msg L) :=
  t.mQ.log.filterMap fun
    | .snd msg _ => msg
    | _ => none

/-- The deletions by run() and by LocMsgDestroy. -/
def deletions (t : MsgTask L) : List (Msg L) :=
  t.deleted ++ (deallocated t.mQ.log).map (·.2)

/-- The messages in the queue and in the hands of run(). -/
def held (t : MsgTask L) : List (Msg L) := t.mQ.queued ++ t.thread.msg.toList

/-- Each message was deleted once or is still to be deleted by the one who holds it, run()
deletes after proc, and in the end nothing is held. -/
structure DeletedOnce [DecidableEq L] (t : MsgTask L) : Prop where
  once : ∀ msg ∈ t.passed, t.deletions.count msg + t.held.count msg = 1
  processed : ∀ msg ∈ t.deleted, msg ∈ t.processed
  destroyed : t.mQ.q = none → t.held = []

/-- A message is only sent while the queue accepts it. -/
def Accepts (t : MsgTask L) : Label L → Prop
  | .sendMsg _ allocated => allocated = true ∧ ∃ q ∈ t.mQ.q, q.unblocked = false
  | _ => True

/-- What the thread has received it has deleted or holds; the queue accounts for the rest. -/
structure Owned [DecidableEq L] (t : MsgTask L) : Prop where
  delivered : Delivered t.mQ
  received : received t.mQ.log = t.deleted ++ t.thread.msg.toList
  processed : ∀ msg, msg ∈ t.deleted ∨ t.thread = .processed msg → msg ∈ t.processed
  destroys : ∀ msg ∈ t.passed, msg.dealloc = some .locMsgDestroy
  numbers : ∀ msg ∈ t.passed, msg.number < t.mQ.sends
  flushed : t.flushed = true → t.thread = .left
  destroyed : t.mQ.q = none → t.flushed = true

theorem sent_subset_passed (t : MsgTask L) : sent t.mQ.log ⊆ t.passed := by
  intro msg mem
  obtain ⟨e, logged, accepted⟩ := List.mem_filterMap.mp mem
  refine List.mem_filterMap.mpr ⟨e, logged, ?_⟩
  cases e with
  | snd msg' rv =>
      cases rv with
      | success => exact accepted
      | _ => cases accepted
  | _ => cases accepted

theorem queue_step [DecidableEq L] {t u : MsgTask L} {l : Label L} (taken : step t l = some u) :
    u.mQ = t.mQ ∨ ∃ k, MsgQ.step t.mQ k = some u.mQ := by
  cases takes_of_step taken with
  | sendMsg msg allocated => exact .inr ⟨.snd (some msg) (some .locMsgDestroy) allocated, rfl⟩
  | receive idle awake => exact .inr ⟨.rcv () true, if_neg awake⟩
  | wake q idle here waits =>
      exact .inr ⟨.wake (), by simp only [MsgQ.step, here, waits, if_true, receive]⟩
  | proc msg holding => exact .inl rfl
  | delete msg holding => exact .inl rfl
  | stop idle told awake => exact .inl rfl
  | destroy first => exact .inr ⟨.unblock, rfl⟩
  | flush left told first => exact .inr ⟨.flush, rfl⟩
  | destroyQueue q here flushed => exact .inr ⟨.destroy, by simp only [MsgQ.step, here]⟩

/-- From `t` to `u` nothing was passed to sendMsg. -/
structure SameSends (t u : MsgTask L) : Prop where
  passed : u.passed = t.passed
  sent : sent u.mQ.log = sent t.mQ.log

theorem receive_sameSends (t : MsgTask L) (result : Option (Received (Msg L) DeallocFunc)) :
    SameSends t (t.receive result) := by
  cases result with
  | none => exact ⟨rfl, rfl⟩
  | some r => exact ⟨by simp [receive, World.finish, passed],
      by simp [receive, World.finish, sent]⟩

theorem step_sameSends {t u : MsgTask L} {l : Label L}
    (other : ∀ msg allocated, l ≠ .sendMsg msg allocated) (taken : step t l = some u) :
    SameSends t u := by
  cases takes_of_step taken with
  | sendMsg msg allocated => exact absurd rfl (other msg allocated)
  | receive idle awake => exact receive_sameSends t _
  | wake q idle here waits => exact receive_sameSends t _
  | proc msg holding => exact ⟨rfl, rfl⟩
  | delete msg holding => exact ⟨rfl, rfl⟩
  | stop idle told awake => exact ⟨rfl, rfl⟩
  | destroy first => exact ⟨by simp [passed], by simp [sent]⟩
  | flush left told first =>
      exact ⟨by simp [flush, World.empty, passed], by simp [flush, World.empty, sent]⟩
  | destroyQueue q here flushed =>
      exact ⟨by simp [World.empty, passed], by simp [World.empty, sent]⟩

theorem sendMsg_passed (t : MsgTask L) (msg : L) (allocated : Bool) :
    (t.sendMsg msg allocated).passed =
      t.passed ++ [⟨t.mQ.sends, msg, some .locMsgDestroy⟩] := by
  simp [passed, sendMsg]

namespace Owned
variable [DecidableEq L] {t u : MsgTask L}

theorem removed_passed (h : Owned t) {msg : Msg L} (mem : msg ∈ removed t.mQ.log) :
    msg ∈ t.passed :=
  sent_subset_passed t (h.delivered.account.removed_subset mem)

/-- LocMsgDestroy is called for each message that is taken off the queue. -/
theorem deallocated_eq (h : Owned t) : (deallocated t.mQ.log).map (·.2) = removed t.mQ.log := by
  rw [h.delivered.called, List.map_filterMap]
  have all : ∀ msg ∈ removed t.mQ.log,
      (Send.deallocation msg).map (·.2) = some msg := fun msg mem => by
    rw [Send.deallocation, h.destroys msg (h.removed_passed mem)]
    rfl
  rw [List.filterMap_congr all, List.filterMap_some]

/-- Each message the queue accepted is deleted or held, as often as it was accepted. -/
theorem count_eq (h : Owned t) (msg : Msg L) :
    t.deletions.count msg + t.held.count msg = (sent t.mQ.log).count msg := by
  have shared := h.delivered.account.shared.count_eq msg
  have deletions : t.deletions = t.deleted ++ removed t.mQ.log :=
    congrArg (t.deleted ++ ·) h.deallocated_eq
  rw [h.received] at shared
  simp only [deletions, held, List.count_append] at shared ⊢
  omega

theorem deletedOnce_iff (h : Owned t) :
    t.DeletedOnce ↔ ∀ msg ∈ t.passed, msg ∈ sent t.mQ.log := by
  constructor
  · intro deleted msg mem
    have counted := (h.count_eq msg).symm.trans (deleted.once msg mem)
    exact List.count_pos_iff.mp (by omega)
  · intro accepted
    refine ⟨fun msg mem => ?_, fun msg mem => h.processed msg (.inl mem), fun gone => ?_⟩
    · rw [h.count_eq]
      exact List.count_eq_one_of_mem h.delivered.account.distinct (accepted msg mem)
    · have left := h.flushed (h.destroyed gone)
      simp [held, World.queued, gone, left, Loop.msg]

theorem init (h : IsInit t) : Owned t := by
  have none_passed : t.passed = [] := by simp [passed, h.mQ.log]
  have idle : t.thread.msg = none := by
    obtain listening | left := h.thread
    · rw [listening]; rfl
    · rw [left]; rfl
  refine ⟨.init h.mQ, ?_, ?_, ?_, ?_, ?_, ?_⟩
  · simp [h.mQ.log, MsgQ.received, h.deleted, idle]
  · intro msg holds
    obtain mem | processed := holds
    · rw [h.deleted] at mem
      cases mem
    · rw [processed] at idle
      cases idle
  · simp [none_passed]
  · simp [none_passed]
  · simp [h.flushed]
  · simp [h.mQ.q]

theorem sendMsg (h : Owned t) (msg : L) (allocated : Bool) : Owned (t.sendMsg msg allocated) := by
  have delivered : Delivered (t.sendMsg msg allocated).mQ :=
    h.delivered.snd (some msg) (some .locMsgDestroy) (snd_outcome _ _ _ allocated)
  have passed := t.sendMsg_passed msg allocated
  refine ⟨delivered, ?_, h.processed, ?_, ?_, h.flushed, ?_⟩
  · simpa [MsgTask.sendMsg, MsgQ.received] using h.received
  · intro msg' mem
    rw [passed] at mem
    obtain old | new := List.mem_append.mp mem
    · exact h.destroys msg' old
    · rw [List.mem_singleton.mp new]
  · intro msg' mem
    rw [passed] at mem
    obtain old | new := List.mem_append.mp mem
    · exact Nat.lt_succ_of_lt (h.numbers msg' old)
    · rw [List.mem_singleton.mp new]
      exact Nat.lt_succ_self _
  · intro gone
    refine h.destroyed ?_
    have outcome := snd_outcome t.mQ.q (some ⟨t.mQ.sends, msg, some .locMsgDestroy⟩)
      (some DeallocFunc.locMsgDestroy) allocated
    generalize same : snd t.mQ.q _ _ allocated = result at outcome
    have kept : result.2 = none := by rw [← same]; exact gone
    cases outcome with
    | fails _ => exact kept
    | adds _ _ _ => cases kept

/-- run() takes the result of msg_q_rcv to what it does next. -/
theorem receive (h : Owned t) (idle : t.thread = .listening)
    {result : Option (Received (Msg L) DeallocFunc)} (outcome : RcvOutcome t.mQ.q result) :
    Owned (t.receive result) := by
  have delivered : Delivered (t.receive result).mQ := h.delivered.finish () outcome
  have received : MsgQ.received t.mQ.log = t.deleted := by
    rw [h.received, idle]
    exact List.append_nil _
  have unflushed : t.flushed ≠ true := fun flushed => by
    have left := h.flushed flushed
    rw [idle] at left
    cases left
  have kept : ∀ {thread : Loop L}, (∀ msg, thread ≠ .processed msg) →
      ∀ msg, msg ∈ t.deleted ∨ thread = .processed msg → msg ∈ t.processed :=
    fun other msg holds => h.processed msg (.inl (holds.resolve_right (other msg)))
  cases outcome with
  | waits =>
      refine ⟨delivered, ?_, kept (fun msg same => by cases same), h.destroys, h.numbers,
        fun flushed => absurd flushed unflushed, h.destroyed⟩
      simpa [MsgTask.receive, World.finish, World.setWaiting, Loop.msg] using received
  | @fails rv failed =>
      have left : (t.receive (some ⟨rv, none, t.mQ.q⟩)).thread = .left := by
        cases rv <;> rfl
      have passed := (t.receive_sameSends (some ⟨rv, none, t.mQ.q⟩)).passed
      have same : MsgQ.received (t.receive (some ⟨rv, none, t.mQ.q⟩)).mQ.log = t.deleted := by
        rw [← received]
        cases rv <;> simp [MsgTask.receive, World.finish, MsgQ.received]
      refine ⟨delivered, ?_, ?_, passed ▸ h.destroys, passed ▸ h.numbers, fun _ => left,
        h.destroyed⟩
      · rw [same, left]
        exact (List.append_nil _).symm
      · rw [left]
        exact kept fun msg same => by cases same
  | @takes q elem msg_list here last =>
      have passed := (t.receive_sameSends (some ⟨.success, some elem.data_ptr,
        some { q with msg_list := msg_list }⟩)).passed
      refine ⟨delivered, ?_, kept (fun msg same => by cases same), passed ▸ h.destroys,
        passed ▸ h.numbers, fun flushed => absurd flushed unflushed, fun gone => by cases gone⟩
      simp [MsgTask.receive, World.finish, MsgQ.received, Loop.msg, ← received]

theorem step {l : Label L} (h : Owned t) (taken : step t l = some u) : Owned u := by
  have delivered : Delivered u.mQ := by
    obtain same | ⟨k, queued⟩ := queue_step taken
    · exact same ▸ h.delivered
    · exact h.delivered.step queued
  by_cases sending : ∃ msg allocated, l = .sendMsg msg allocated
  · obtain ⟨msg, allocated, rfl⟩ := sending
    obtain rfl := Option.some.inj taken
    exact h.sendMsg msg allocated
  have same : SameSends t u := step_sameSends (fun msg allocated again =>
    sending ⟨msg, allocated, again⟩) taken
  have destroys := same.passed ▸ h.destroys
  have numbers : u.mQ.sends = t.mQ.sends → ∀ msg ∈ u.passed, msg.number < u.mQ.sends :=
    fun sends msg mem => sends ▸ h.numbers msg (same.passed ▸ mem)
  have inLoop : t.thread ≠ .left → t.flushed ≠ true := fun staying flushed =>
    staying (h.flushed flushed)
  cases takes_of_step taken with
  | sendMsg msg allocated => exact absurd ⟨msg, allocated, rfl⟩ sending
  | receive idle awake => exact h.receive idle (rcv_outcome _ _)
  | wake q idle here waits => exact h.receive idle (here ▸ rcvLoop_outcome _)
  | proc msg holding =>
      refine ⟨delivered, ?_, ?_, destroys, numbers rfl,
        fun flushed => absurd flushed (inLoop (by simp [holding])), h.destroyed⟩
      · rw [h.received, holding]
        rfl
      · rintro msg' (mem | same)
        · exact List.mem_append_left _ (h.processed msg' (.inl mem))
        · obtain rfl := Loop.processed.inj same
          exact List.mem_append_right _ (List.mem_singleton_self _)
  | delete msg holding =>
      refine ⟨delivered, ?_, ?_, destroys, numbers rfl,
        fun flushed => absurd flushed (inLoop (by simp [holding])), h.destroyed⟩
      · rw [h.received, holding]
        exact (List.append_nil _).symm
      · rintro msg' (mem | same)
        · obtain old | new := List.mem_append.mp mem
          · exact h.processed msg' (.inl old)
          · exact h.processed msg' (.inr (List.mem_singleton.mp new ▸ holding))
        · cases same
  | stop idle told awake =>
      refine ⟨delivered, ?_, ?_, destroys, numbers rfl, fun _ => rfl, h.destroyed⟩
      · rw [h.received, idle]
        rfl
      · rintro msg' (mem | same)
        · exact h.processed msg' (.inl mem)
        · cases same
  | destroy first =>
      refine ⟨delivered, ?_, h.processed, destroys, numbers rfl, h.flushed,
        fun gone => h.destroyed ?_⟩
      · simpa [MsgQ.received] using h.received
      · cases here : t.mQ.q with
        | none => rfl
        | some q =>
            simp only [here, MsgQ.unblock] at gone
            split at gone <;> cases gone
  | flush left told first =>
      refine ⟨delivered, ?_, h.processed, destroys, numbers rfl, fun _ => left, fun _ => rfl⟩
      simpa [MsgTask.flush, World.empty, MsgQ.received] using h.received
  | destroyQueue q here flushed =>
      refine ⟨delivered, ?_, h.processed, destroys, numbers rfl, h.flushed, fun _ => flushed⟩
      simpa [World.empty, MsgQ.received] using h.received

end Owned

/-- msg_q_snd accepts a message exactly while the queue does. -/
theorem sent_sendMsg_iff [DecidableEq L] {t : MsgTask L} (h : Owned t) (msg : L)
    (allocated : Bool) :
    ⟨t.mQ.sends, msg, some .locMsgDestroy⟩ ∈ sent (t.sendMsg msg allocated).mQ.log ↔
      Accepts t (.sendMsg msg allocated) := by
  have fresh : (⟨t.mQ.sends, msg, some .locMsgDestroy⟩ : Msg L) ∉ sent t.mQ.log := fun mem =>
    Nat.lt_irrefl _ (h.delivered.numbers _ mem)
  cases here : t.mQ.q with
  | none =>
      refine iff_of_false ?_ fun accepts => ?_
      · simpa [sendMsg, here, snd, sent] using fresh
      · obtain ⟨-, q, same, -⟩ := accepts
        rw [here] at same
        cases same
  | some q =>
      obtain ⟨msg_list, unblocked⟩ := q
      have accepts : Accepts t (.sendMsg msg allocated) ↔ allocated = true ∧ unblocked = false := by
        simp [Accepts, here]
      rw [accepts]
      cases unblocked with
      | true => simpa [sendMsg, here, snd, sent] using fresh
      | false =>
          cases allocated with
          | true => simp [sendMsg, here, snd, add, convertLinkedListErrType, sent]
          | false => simpa [sendMsg, here, snd, add, convertLinkedListErrType, sent] using fresh

theorem step_deletedOnce_iff [DecidableEq L] {t u : MsgTask L} {l : Label L} (h : Owned t)
    (before : t.DeletedOnce) (taken : step t l = some u) : u.DeletedOnce ↔ Accepts t l := by
  rw [(h.step taken).deletedOnce_iff]
  have accepted := h.deletedOnce_iff.mp before
  by_cases sending : ∃ msg allocated, l = .sendMsg msg allocated
  · obtain ⟨msg, allocated, rfl⟩ := sending
    obtain rfl := Option.some.inj taken
    rw [← sent_sendMsg_iff h, sendMsg_passed]
    constructor
    · intro all
      exact all _ (List.mem_append_right _ (List.mem_singleton_self _))
    · intro new msg' mem
      obtain old | last := List.mem_append.mp mem
      · simp only [sendMsg, sent_append]
        exact List.mem_append_left _ (accepted msg' old)
      · exact List.mem_singleton.mp last ▸ new
  · have same : SameSends t u := step_sameSends (fun msg allocated again =>
      sending ⟨msg, allocated, again⟩) taken
    refine iff_of_true ?_ ?_
    · rw [same.passed, same.sent]
      exact accepted
    · cases l with
      | sendMsg msg allocated => exact absurd ⟨msg, allocated, rfl⟩ sending
      | _ => trivial

/-- Each message is deleted once throughout exactly the runs in which the queue accepts every
message that is sent. -/
theorem messages_are_deleted_once_iff [DecidableEq L] {t₀ t : MsgTask L} {ls : List (Label L)}
    (initial : IsInit t₀) (run : Run step t₀ ls t) :
    Throughout step DeletedOnce t₀ ls ↔ Meets step Accepts t₀ ls := by
  have owned : Owned t₀ := .init initial
  have nothing_passed : t₀.passed = [] := by simp [passed, initial.mQ.log]
  refine run.throughout_iff_meets (I := Owned) ?_ ?_ owned ?_
  · exact fun _ _ _ h before taken => step_deletedOnce_iff h before taken
  · exact fun _ _ _ h taken => h.step taken
  · exact owned.deletedOnce_iff.mpr (by simp [nothing_passed])

def initial : MsgTask Nat :=
  ⟨⟨some MsgQ.init, fun _ => false, 0, []⟩, .listening, false, false, [], []⟩

theorem initial_isInit : IsInit initial := ⟨⟨rfl, fun _ => rfl, rfl⟩, .inl rfl, rfl, rfl, rfl⟩

instance (t : MsgTask L) : (l : Label L) → Decidable (Accepts t l)
  | .sendMsg _ _ => inferInstanceAs (Decidable (_ ∧ ∃ q ∈ t.mQ.q, q.unblocked = false))
  | .receive | .wake | .proc | .delete | .stop | .destroy | .flush | .destroyQueue => isTrue trivial

/-- One message is processed, the other one is still queued when the task is destroyed. -/
def orderlyShutdown : List (Label Nat) :=
  [.receive, .sendMsg 5 true, .wake, .sendMsg 6 true, .proc, .destroy, .delete, .stop, .flush,
    .destroyQueue]

theorem orderly_shutdown_deletes_once : Throughout step DeletedOnce initial orderlyShutdown :=
  (messages_are_deleted_once_iff initial_isInit
    (run_iff_foldlM.mpr (rfl : orderlyShutdown.foldlM step initial = some _))).mpr (by decide)

/-- A message that is sent after destroy() has unblocked the queue is lost. -/
theorem late_message_is_leaked :
    ∃ t, Run step initial [.destroy, .sendMsg 5 true, .stop, .flush, .destroyQueue] t ∧
      t.mQ.q = none ∧ t.passed = [⟨0, 5, some .locMsgDestroy⟩] ∧ t.deletions = [] ∧
      ¬ DeletedOnce t := by
  refine ⟨_, run_iff_foldlM.mpr rfl, rfl, rfl, rfl, fun deleted => ?_⟩
  exact absurd (deleted.once ⟨0, 5, some .locMsgDestroy⟩ (by decide)) (by decide)

end Msm8974.Tasks.MsgTask
