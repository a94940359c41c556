import Msm8974.Utils.MsgQ

/-!
What becomes of the messages of a queue. One accepted by msg_q_snd is received once, taken off
once by a flush or the destruction of the queue, or still queued, and the receivers get the
messages in the order of sending.
-/

namespace Msm8974.MsgQ
open Msm8974.Runs Msm8974.Traces Msm8974.Fifo

variable {M D C : Type}

section Log

/-- The messages that msg_q_snd accepted. -/
def sent (log : List (QEvent M D C)) : List (Send M D) :=
  log.filterMap fun
    | .snd msg .success => msg
    | _ => none

def received (log : List (QEvent M D C)) : List (Send M D) :=
  log.filterMap fun
    | .rcv _ msg .success => msg
    | _ => none

def removed (log : List (QEvent M D C)) : List (Send M D) :=
  log.filterMap fun
    | .removed msg => some msg
    | _ => none

def deallocated (log : List (QEvent M D C)) : List (D × Send M D) :=
  log.filterMap fun
    | .dealloc dealloc msg => some (dealloc, msg)
    | _ => none

/-- The call that a message's removal comes with, if its sender asked for one. -/
def Send.deallocation (msg : Send M D) : Option (D × Send M D) := msg.dealloc.map (·, msg)

/-- A message is only accepted while the queue has not been unblocked. -/
def BeforeUnblock (before : List (QEvent M D C)) (e : QEvent M D C) : Prop :=
  ∀ msg, e = .snd msg .success → .unblock .success ∉ before

theorem sent_append (log es : List (QEvent M D C)) : sent (log ++ es) = sent log ++ sent es :=
  List.filterMap_append ..

theorem received_append (log es : List (QEvent M D C)) :
    received (log ++ es) = received log ++ received es := List.filterMap_append ..

theorem removed_append (log es : List (QEvent M D C)) :
    removed (log ++ es) = removed log ++ removed es := List.filterMap_append ..

theorem deallocated_append (log es : List (QEvent M D C)) :
    deallocated (log ++ es) = deallocated log ++ deallocated es := List.filterMap_append ..

/-- A call that is refused, or a queue that had been unblocked before. -/
inductive QEvent.Failed : QEvent M D C → Prop
  | snd {msg : Option (Send M D)} {rv : MsqQErrType} (failed : rv ≠ .success) : Failed (.snd msg rv)
  | rcv {consumer : C} {msg : Option (Send M D)} {rv : MsqQErrType} (failed : rv ≠ .success) :
      Failed (.rcv consumer msg rv)
  | unblock {rv : MsqQErrType} (failed : rv ≠ .success) : Failed (.unblock rv)

end Log

/-- The messages in the queue, oldest first. -/
def World.queued (w : World M D C) : List (Send M D) :=
  ((w.q.map (·.msg_list)).getD []).reverse.map (·.data_ptr)

/-- What holds of the messages sent so far. -/
structure ExactlyOnce [DecidableEq M] [DecidableEq D] (w : World M D C) : Prop where
  order : received w.log ++ w.queued = (sent w.log).filter fun msg => msg ∉ removed w.log
  once : ∀ msg ∈ sent w.log,
    (received w.log).count msg + w.queued.count msg + (removed w.log).count msg = 1
  deallocated : deallocated w.log = (removed w.log).filterMap (·.deallocation)
  refused : AtEach BeforeUnblock w.log

section Functions
variable {msg_q_data : Option (Queue M D)}

inductive SndOutcome (msg_q_data : Option (Queue M D)) (msg_obj : Option M) (dealloc : Option D) :
    MsqQErrType × Option (Queue M D) → Prop
  | fails {rv : MsqQErrType} (failed : rv ≠ .success) :
      SndOutcome msg_q_data msg_obj dealloc (rv, msg_q_data)
  | adds {q : Queue M D} {msg : M} (here : msg_q_data = some q) (given : msg_obj = some msg)
      (blocking : q.unblocked = false) :
      SndOutcome msg_q_data msg_obj dealloc
        (.success, some { q with msg_list := ⟨msg, dealloc⟩ :: q.msg_list })

theorem snd_outcome (msg_q_data : Option (Queue M D)) (msg_obj : Option M) (dealloc : Option D)
    (allocated : Bool) :
    SndOutcome msg_q_data msg_obj dealloc (snd msg_q_data msg_obj dealloc allocated) := by
  cases msg_q_data with
  | none => exact .fails nofun
  | some q =>
      cases msg_obj with
      | none => exact .fails nofun
      | some msg =>
          obtain ⟨msg_list, unblocked⟩ := q
          cases unblocked with
          | true => exact .fails nofun
          | false =>
              cases allocated with
              | true => exact .adds rfl rfl rfl
              | false => exact .fails nofun

inductive RcvOutcome (msg_q_data : Option (Queue M D)) : Option (Received M D) → Prop
  | waits : RcvOutcome msg_q_data none
  | fails {rv : MsqQErrType} (failed : rv ≠ .success) :
      RcvOutcome msg_q_data (some ⟨rv, none, msg_q_data⟩)
  | takes {q : Queue M D} {elem : ListElement M D} {msg_list : List (ListElement M D)}
      (here : msg_q_data = some q) (last : q.msg_list = msg_list ++ [elem]) :
      RcvOutcome msg_q_data
        (some ⟨.success, some elem.data_ptr, some { q with msg_list := msg_list }⟩)

theorem rcvLoop_outcome (q : Queue M D) : RcvOutcome (some q) (rcvLoop q) := by
  obtain ⟨msg_list, unblocked⟩ := q
  rcases List.eq_nil_or_concat' msg_list with rfl | ⟨rest, elem, rfl⟩
  · cases unblocked with
    | false => exact .waits
    | true => exact .fails nofun
  · have some_left : (rest ++ [elem]).isEmpty = false := by simp
    simp only [rcvLoop, linkedListEmpty, some_left, Bool.false_and, linkedListRemove_concat]
    exact .takes rfl rfl

theorem rcv_outcome (msg_q_data : Option (Queue M D)) (msg_obj : Bool) :
    RcvOutcome msg_q_data (rcv msg_q_data msg_obj) := by
  cases msg_q_data with
  | none => exact .fails nofun
  | some q =>
      cases msg_obj with
      | false => exact .fails nofun
      | true =>
          obtain ⟨msg_list, unblocked⟩ := q
          cases unblocked with
          | true => exact .fails nofun
          | false => exact rcvLoop_outcome ⟨msg_list, false⟩

end Functions

/-- The account of the messages, with what the functions need to go on with it. -/
structure Delivered [DecidableEq M] [DecidableEq D] (w : World M D C) : Prop where
  account : Account (sent w.log) (received w.log) (removed w.log) w.queued
  numbers : ∀ msg ∈ sent w.log, msg.number < w.sends
  given : ∀ q ∈ w.q, ∀ elem ∈ q.msg_list, elem.dealloc_func = elem.data_ptr.dealloc
  called : deallocated w.log = (removed w.log).filterMap (·.deallocation)
  unblocked : .unblock .success ∈ w.log → ∀ q ∈ w.q, q.unblocked = true
  refused : AtEach BeforeUnblock w.log

namespace Delivered
variable [DecidableEq M] [DecidableEq D] {w u : World M D C}

theorem init (h : IsInit w) : Delivered w := by
  have empty : w.queued = [] := by simp [World.queued, h.q, MsgQ.init]
  refine ⟨?_, ?_, ?_, ?_, ?_, ?_⟩
  · rw [empty, h.log]
    exact Account.empty
  · simp [h.log, sent]
  · simp [h.q, MsgQ.init]
  · simp [h.log, MsgQ.deallocated, removed]
  · simp [h.log]
  · rw [h.log]
    exact atEach_nil _

/-- A call that is refused changes nothing. -/
theorem fail (h : Delivered w) {e : QEvent M D C} (failed : e.Failed) (q : u.q = w.q)
    (sends : w.sends ≤ u.sends) (log : u.log = w.log ++ [e]) : Delivered u := by
  have silent : sent [e] = [] ∧ received [e] = [] ∧ removed [e] = [] ∧ deallocated [e] = [] ∧
      e ≠ .unblock .success ∧ ∀ msg, e ≠ .snd msg .success := by
    cases failed with
    | @snd msg rv failed | @rcv consumer msg rv failed | @unblock rv failed =>
        cases rv with
        | success => exact absurd rfl failed
        | _ => exact ⟨rfl, rfl, rfl, rfl, nofun, fun _ => nofun⟩
  obtain ⟨sent', received', removed', deallocated', other, refused⟩ := silent
  have queued : u.queued = w.queued := by rw [World.queued, q]; rfl
  refine ⟨?_, ?_, q ▸ h.given, ?_, ?_, ?_⟩
  · rw [log, queued, sent_append, received_append, removed_append, sent', received', removed']
    simpa using h.account
  · intro msg mem
    rw [log, sent_append, sent', List.append_nil] at mem
    exact Nat.lt_of_lt_of_le (h.numbers msg mem) sends
  · rw [log, deallocated_append, removed_append, deallocated', removed']
    simpa using h.called
  · intro mem
    rw [log, List.mem_append] at mem
    cases mem with
    | inl old => exact q ▸ h.unblocked old
    | inr new => exact absurd (List.mem_singleton.mp new).symm other
  · rw [log]
    exact atEach_concat.mpr ⟨h.refused, fun msg same => absurd same (refused msg)⟩

theorem snd (h : Delivered w) (msg_obj : Option M) (dealloc : Option D)
    {result : MsqQErrType × Option (Queue (Send M D) D)}
    (outcome : SndOutcome w.q (msg_obj.map (⟨w.sends, ·, dealloc⟩)) dealloc result) :
    Delivered { w with
      q := result.2
      sends := w.sends + 1
      log := w.log ++ [.snd (msg_obj.map (⟨w.sends, ·, dealloc⟩)) result.1] } := by
  cases outcome with
  | fails failed => exact h.fail (.snd failed) rfl (Nat.le_succ _) rfl
  | @adds q msg here given blocking =>
      obtain ⟨obj, rfl, rfl⟩ := Option.map_eq_some_iff.mp given
      have fresh : (⟨w.sends, obj, dealloc⟩ : Send M D) ∉ sent w.log := fun mem =>
        Nat.lt_irrefl _ (h.numbers _ mem)
      have account := h.account.push fresh
      refine ⟨?_, ?_, ?_, ?_, ?_, ?_⟩
      · rw [sent_append, received_append, removed_append]
        simpa [World.queued, here, sent, received, removed] using account
      · intro msg mem
        rw [sent_append] at mem
        cases List.mem_append.mp mem with
        | inl old => exact Nat.lt_succ_of_lt (h.numbers msg old)
        | inr new =>
            obtain rfl : msg = ⟨w.sends, obj, dealloc⟩ := by simpa [sent] using new
            exact Nat.lt_succ_self _
      · intro q' same elem mem
        obtain rfl := Option.some.inj same
        cases List.mem_cons.mp mem with
        | inl new => rw [new]
        | inr old => exact h.given q here elem old
      · rw [deallocated_append, removed_append]
        simpa [MsgQ.deallocated, removed] using h.called
      · intro mem q' same
        obtain rfl := Option.some.inj same
        have before : .unblock .success ∈ w.log := by simpa using mem
        exact h.unblocked before q here
      · refine atEach_concat.mpr ⟨h.refused, fun msg same mem => ?_⟩
        exact Bool.false_ne_true (blocking.symm.trans (h.unblocked mem q here))

theorem finish [DecidableEq C] (h : Delivered w) (consumer : C)
    {result : Option (Received (Send M D) D)} (outcome : RcvOutcome w.q result) :
    Delivered (w.finish consumer result) := by
  cases outcome with
  | waits => exact ⟨h.account, h.numbers, h.given, h.called, h.unblocked, h.refused⟩
  | fails failed => exact h.fail (.rcv failed) rfl (Nat.le_refl _) rfl
  | @takes q elem msg_list here last =>
      have queued : w.queued = elem.data_ptr :: (msg_list.reverse.map (·.data_ptr)) := by
        simp [World.queued, here, last]
      have account := (queued ▸ h.account).pop
      refine ⟨?_, ?_, ?_, ?_, ?_, ?_⟩
      · simp only [World.finish, sent_append, received_append, removed_append]
        simpa [World.queued, sent, received, removed] using account
      · simpa [World.finish, World.setWaiting, sent] using h.numbers
      · intro q' same elem' mem
        obtain rfl := Option.some.inj same
        exact h.given q here elem' (last ▸ List.mem_append_left _ mem)
      · simp only [World.finish, deallocated_append, removed_append]
        simpa [MsgQ.deallocated, removed] using h.called
      · intro mem q' same
        obtain rfl := Option.some.inj same
        have before : .unblock .success ∈ w.log := by simpa [World.finish] using mem
        exact h.unblocked before q here
      · exact atEach_concat.mpr ⟨h.refused, fun _ => nofun⟩

/-- The list is emptied with the calls its elements ask for. -/
theorem empty (h : Delivered w) {q : Queue (Send M D) D} (here : w.q = some q)
    {q' : Option (Queue (Send M D) D)}
    (emptied : ∀ r ∈ q', r.msg_list = [] ∧ r.unblocked = q.unblocked) :
    Delivered (w.empty (deallocs q.msg_list) q') := by
  let gone := q.msg_list.map (·.data_ptr)
  let calls := deallocs q.msg_list
  have log : (w.empty calls q').log = w.log ++
      (gone.map .removed ++ calls.map fun call => .dealloc call.1 call.2) := by
    simp [World.empty, here, gone, calls]
  have queued : w.queued = q.msg_list.reverse.map (·.data_ptr) := by
    simp [World.queued, here]
  have none_left : (w.empty calls q').queued = [] := by
    cases same : q' with
    | none => rfl
    | some r => simp [World.queued, World.empty, (emptied r same).1]
  have quiet : sent (w.empty calls q').log = sent w.log ∧
      received (w.empty calls q').log = received w.log := by
    rw [log]
    simp [sent, received]
  have takes : removed (w.empty calls q').log = removed w.log ++ gone := by
    rw [log]
    simp [removed, List.filterMap_map]
  have asked : deallocated (w.empty calls q').log = deallocated w.log ++ calls := by
    rw [log]
    simp [MsgQ.deallocated, List.filterMap_map]
  have all : gone.Perm w.queued := by
    rw [queued]
    exact (List.reverse_perm q.msg_list).symm.map _
  refine ⟨?_, ?_, ?_, ?_, ?_, ?_⟩
  · rw [quiet.1, quiet.2, takes, none_left]
    exact h.account.clear all
  · rw [quiet.1]
    exact h.numbers
  · intro r same elem mem
    rw [(emptied r same).1] at mem
    cases mem
  · rw [asked, takes, List.filterMap_append, h.called]
    refine congrArg (_ ++ ·) ?_
    rw [List.filterMap_map]
    refine List.filterMap_congr fun elem mem => ?_
    rw [h.given q here elem mem]
    rfl
  · intro mem r same
    rw [(emptied r same).2]
    refine h.unblocked ?_ q here
    rw [log] at mem
    simpa using mem
  · rw [log]
    refine h.refused.append fun e mem before msg same => ?_
    subst same
    simp at mem

theorem unblock (h : Delivered w) :
    Delivered { w with
      q := (unblock w.q).2
      log := w.log ++ [.unblock (MsgQ.unblock w.q).1] } := by
  cases here : w.q with
  | none =>
      have failed : QEvent.Failed (.unblock .invalidHandle : QEvent M D C) := .unblock nofun
      exact h.fail failed here.symm (Nat.le_refl _) rfl
  | some q =>
      obtain ⟨msg_list, unblocked⟩ := q
      cases unblocked with
      | true =>
          have failed : QEvent.Failed (.unblock .unavailableResource : QEvent M D C) :=
            .unblock nofun
          exact h.fail failed here.symm (Nat.le_refl _) rfl
      | false =>
          have queued : w.queued = msg_list.reverse.map (·.data_ptr) := by
            simp [World.queued, here]
          refine ⟨?_, ?_, ?_, ?_, ?_, ?_⟩
          · have account := queued ▸ h.account
            simpa [MsgQ.unblock, World.queued, sent, received, removed] using account
          · simpa [MsgQ.unblock, sent] using h.numbers
          · intro q same elem mem
            obtain rfl := Option.some.inj same
            exact h.given _ here elem mem
          · simpa [MsgQ.unblock, MsgQ.deallocated, removed] using h.called
          · intro _ q same
            obtain rfl := Option.some.inj same
            rfl
          · exact atEach_concat.mpr ⟨h.refused, fun _ => nofun⟩

theorem step [DecidableEq C] (h : Delivered w) {l : Label M D C} (taken : step w l = some u) :
    Delivered u := by
  cases l with
  | snd msg_obj dealloc allocated =>
      obtain rfl := Option.some.inj taken
      exact h.snd msg_obj dealloc (snd_outcome _ _ _ allocated)
  | rcv consumer msg_obj =>
      simp only [MsgQ.step, Option.ite_none_left_eq_some, Option.some.injEq] at taken
      obtain ⟨-, rfl⟩ := taken
      exact h.finish consumer (rcv_outcome _ _)
  | wake consumer =>
      cases here : w.q with
      | none => simp [MsgQ.step, here] at taken
      | some q =>
          simp only [MsgQ.step, here, Option.ite_none_right_eq_some, Option.some.injEq] at taken
          obtain ⟨-, rfl⟩ := taken
          exact h.finish consumer (here ▸ rcvLoop_outcome q)
  | flush =>
      obtain rfl := Option.some.inj taken
      cases here : w.q with
      | none =>
          have same : w.empty [] none = w := by
            obtain ⟨q, waiting, sends, log⟩ := w
            cases here
            simp [World.empty]
          exact same.symm ▸ h
      | some q => exact h.empty here (by simp)
  | unblock =>
      obtain rfl := Option.some.inj taken
      exact h.unblock
  | destroy =>
      cases here : w.q with
      | none => simp [MsgQ.step, here] at taken
      | some q =>
          simp only [MsgQ.step, here, Option.some.injEq] at taken
          obtain rfl := taken
          exact h.empty here (by simp [destroy])

end Delivered

/-- In any run on a new queue the messages that are received and those still queued are the
messages sent but for the ones taken off, in the order of sending, each of them once. -/
theorem messages_are_received_in_order_once [DecidableEq M] [DecidableEq D] [DecidableEq C]
    {w₀ w : World M D C} {ls : List (Label M D C)} (initial : IsInit w₀) (run : Run step w₀ ls w) :
    ExactlyOnce w := by
  have delivered : Delivered w := by
    refine run.invariant (I := Delivered) ?_ (.init initial)
    exact fun _ _ _ h taken => h.step taken
  refine ⟨delivered.account.order, fun msg mem => ?_, delivered.called, delivered.refused⟩
  exact delivered.account.count_eq_one mem

def initial : World Nat Unit Nat := ⟨some init, fun _ => false, 0, []⟩

theorem initial_isInit : IsInit initial := ⟨rfl, fun _ => rfl, rfl⟩

/-- One consumer waits for the first message, another takes the second; a flush takes off the
third and the destruction of the queue the fourth. The fifth is refused. -/
def busyQueue : List (Label Nat Unit Nat) :=
  [.rcv 0 true, .snd (some 5) (some ()) true, .wake 0, .snd (some 6) (some ()) true,
    .snd (some 7) none true, .rcv 1 true, .flush, .snd (some 8) (some ()) true, .unblock,
    .snd (some 9) (some ()) true, .destroy]

theorem busy_queue_delivers_once : ∃ w, Run step initial busyQueue w ∧ ExactlyOnce w :=
  ⟨_, run_iff_foldlM.mpr rfl,
    messages_are_received_in_order_once initial_isInit
      (run_iff_foldlM.mpr (rfl : busyQueue.foldlM step initial = some _))⟩

/-- A message that was sent without a dealloc function is flushed: nobody received it, nobody
deallocated it and it is not in the queue. -/
theorem flushed_message_is_not_deallocated :
    IsInit initial ∧ ∃ w, Run step initial [.snd (some 7) none true, .flush] w ∧
      sent w.log = [⟨0, 7, none⟩] ∧ received w.log = [] ∧ deallocated w.log = [] ∧
      w.queued = [] :=
  ⟨initial_isInit, _, run_iff_foldlM.mpr rfl, rfl, rfl, rfl, rfl⟩

end Msm8974.MsgQ
