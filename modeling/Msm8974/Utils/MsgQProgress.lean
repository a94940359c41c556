import Msm8974.Library.Fairness
import Msm8974.Utils.MsgQRefinement

/-!
Progress of msg_q.cpp. A message that msg_q_snd accepted is received when one consumer keeps calling
msg_q_rcv, however many others come and go, and everyone returns from msg_q_rcv after
msg_q_unblock. A woken consumer goes on whenever list_mutex is free; that is all that is asked of
the scheduler, and spurious wake-ups do no harm.
-/

namespace Msm8974.MsgQ
open Chains Runs ListMemory

variable {π M D C : Type}

/-- A consumer that calls msg_q_rcv, one that goes on in it, and everything else. -/
inductive Party (C : Type)
  | calls (consumer : C)
  | wakes (consumer : C)
  | others
deriving DecidableEq

def party : Call π M D C → Party C
  | .rcv consumer true => .calls consumer
  | .wake consumer => .wakes consumer
  | _ => .others

/-- The calls after which messages need not be received any more. -/
inductive Call.Ends : Call π M D C → Prop
  | flush : Ends .flush
  | unblock : Ends .unblock
  | destroy : Ends .destroy

theorem looks_of_party {call : Call π M D C} {consumer : C}
    (mover : party call = .calls consumer ∨ party call = .wakes consumer) :
    call.Looks consumer := by
  cases call with
  | rcv other msg_obj =>
      cases msg_obj with
      | false => simp [party] at mover
      | true =>
          obtain rfl : other = consumer := by simpa [party] using mover
          exact .rcv
  | wake other =>
      obtain rfl : other = consumer := by simpa [party] using mover
      exact .wake
  | _ => simp [party] at mover

namespace Monitor
variable [DecidableEq C] {w u : Monitor π M D C}

theorem not_canMove_calls [DecidableEq π] {consumer : C} (blocked : consumer ∈ w.list_cond) :
    ¬ CanMove step party (.calls consumer) w := by
  rintro ⟨call, mover, moved⟩
  cases looks_of_party (.inl mover) with
  | rcv => exact (enabled_of_isSome moved).1 blocked
  | wake => cases mover

theorem not_canMove_wakes [DecidableEq π] {consumer : C} (outside : consumer ∉ w.woken) :
    ¬ CanMove step party (.wakes consumer) w := by
  rintro ⟨call, mover, moved⟩
  cases looks_of_party (.inr mover) with
  | rcv => cases mover
  | wake => exact outside (enabled_of_isSome moved)

/-- The queue takes messages. -/
def Open (w : Monitor π M D C) : Prop := ∃ q ∈ w.msg_q_data, q.unblocked = false

section Messages
variable {msg : Send M D}

/-- Who is to move until a message in the queue is received. -/
def nextReader (consumer : C) (w : Monitor π M D C) : Party C :=
  match w.woken with
  | [] => .calls consumer
  | first :: _ => .wakes first

/-- The message is in the queue and can be received from it. -/
structure Pending (msg : Send M D) (w : Monitor π M D C) : Prop where
  queued : msg ∈ w.queued
  open_ : w.Open

omit [DecidableEq C] in
theorem Sound.idle (h : w.Sound) (pending : Pending msg w) (none_woken : w.woken = []) :
    w.list_cond = [] := by
  by_contra blocked
  have bound := h.attended blocked
  have some_left := List.length_pos_of_mem pending.queued
  simp [none_woken] at bound
  simp [bound] at some_left

omit [DecidableEq C] in
theorem nextReader_signal (h : w.Sound) (pending : Pending msg w) (consumer : C)
    {woken : Option C} (blocked : ∀ other ∈ woken, other ∈ w.list_cond)
    (same : u.woken = w.woken ++ woken.toList) :
    u.nextReader consumer = w.nextReader consumer := by
  cases here : w.woken with
  | nil =>
      cases woken with
      | none => simp [nextReader, same, here]
      | some other =>
          have none_left := h.idle pending here
          have mem := blocked other rfl
          simp [none_left] at mem
  | cons first rest => simp [nextReader, same, here]

variable [DecidableEq π]

theorem nextReader_moves (h : w.Sound) (pending : Pending msg w) (consumer : C) :
    CanMove step party (w.nextReader consumer) w := by
  cases here : w.woken with
  | nil =>
      have none_left := h.idle pending here
      refine ⟨.rcv consumer true, by simp [party, nextReader, here], h.step_isSome ?_⟩
      simp [Enabled, none_left, here]
  | cons first rest =>
      refine ⟨.wake first, by simp [party, nextReader, here], h.step_isSome ?_⟩
      simp [Enabled, here]

omit [DecidableEq C] [DecidableEq π] in
theorem mover_looks {call : Call π M D C} {consumer : C}
    (mover : party call = w.nextReader consumer) : ∃ other, call.Looks other := by
  cases here : w.woken with
  | nil => exact ⟨consumer, looks_of_party (.inl (by simpa [nextReader, here] using mover))⟩
  | cons first rest =>
      exact ⟨first, looks_of_party (.inr (by simpa [nextReader, here] using mover))⟩

variable [DecidableEq M] [DecidableEq D]

/-- Whoever moves: the message is received, the queue ends, or the message stays pending, where it
comes closer to the tail or the same thread is still to move. -/
theorem pending_step (h : w.Sound) (pending : Pending msg w) (consumer : C)
    {call : Call π M D C} (taken : step w call = some u) :
    msg ∈ received u.log ∨ (call.Ends ∧ ¬ Pending msg u) ∨ Pending msg u ∧
      (u.queued.idxOf msg < w.queued.idxOf msg ∨
        u.queued.idxOf msg = w.queued.idxOf msg ∧
          u.nextReader consumer = w.nextReader consumer ∧ party call ≠ w.nextReader consumer) := by
  obtain ⟨here, q, there, open_⟩ := pending
  obtain ⟨enabled, moves, -⟩ := h.step taken
  cases moves with
  | refuses _ _ _ refused _ =>
      refine .inr (.inr ⟨⟨here, q, there, open_⟩, .inr ⟨rfl, rfl, fun mover => ?_⟩⟩)
      obtain ⟨other, looks⟩ := mover_looks mover
      cases open_.symm.trans (refused q there other looks)
  | @adds q' msg_list msg_obj dealloc elem woken there' open_' holds =>
      have grows : (elements msg_list).reverse.map (·.data_ptr) =
          w.queued ++ [⟨w.sends, msg_obj, dealloc⟩] := by
        simp [holds.elements, queued_eq there']
      have queued : (signal woken { w with
          msg_q_data := some { q' with msg_list }
          sends := w.sends + 1
          log := w.log ++ [.snd (some ⟨w.sends, msg_obj, dealloc⟩) .success] }).queued =
          w.queued ++ [⟨w.sends, msg_obj, dealloc⟩] := by
        rw [signal_queued, queued_eq rfl, grows]
      refine .inr (.inr ⟨⟨queued ▸ List.mem_append_left _ here, ?_⟩, .inr ⟨?_, ?_, ?_⟩⟩)
      · exact ⟨{ q' with msg_list }, by rw [signal_msg_q_data]; rfl, open_'⟩
      · rw [queued, List.idxOf_append_of_mem here]
      · exact nextReader_signal h ⟨here, q, there, open_⟩ consumer enabled.2.2 (by simp)
      · intro mover
        obtain ⟨_, looks⟩ := mover_looks mover
        cases looks
  | @fails q' msg_obj dealloc woken _ _ =>
      refine .inr (.inr ⟨⟨by rwa [signal_queued], ?_⟩, .inr ⟨by rw [signal_queued]; rfl, ?_, ?_⟩⟩)
      · exact ⟨q, by rw [signal_msg_q_data]; exact there, open_⟩
      · exact nextReader_signal h ⟨here, q, there, open_⟩ consumer enabled.2.2 (by simp)
      · intro mover
        obtain ⟨_, looks⟩ := mover_looks mover
        cases looks
  | blocks looks there' _ empty => simp [queued_eq there', empty] at here
  | @takes _ other q' msg_list elem list looks there' _ last holds =>
      have before : w.queued = elem.data_ptr :: list.reverse.map (·.data_ptr) := by
        simp [queued_eq there', last]
      by_cases first : elem.data_ptr = msg
      · exact .inl (by simp [received, first])
      · obtain rfl : q = q' := Option.some.inj (there.symm.trans there')
        refine .inr (.inr ⟨⟨?_, _, rfl, open_⟩, .inl ?_⟩)
        · rw [queued_eq rfl, holds.elements]
          rw [before] at here
          exact (List.mem_cons.mp here).resolve_left (Ne.symm first)
        · rw [before, List.idxOf_cons_ne _ first, queued_eq rfl, holds.elements]
          exact Nat.lt_succ_self _
  | leaves there' closed _ =>
      obtain rfl := Option.some.inj (there.symm.trans there')
      cases open_.symm.trans closed
  | @spurious other =>
      have blocked : ∀ c ∈ some other, c ∈ w.list_cond := by
        rintro _ ⟨⟩
        exact enabled
      refine .inr (.inr ⟨⟨by rwa [signal_queued], q, there, open_⟩, .inr ⟨?_, ?_, ?_⟩⟩)
      · rw [signal_queued]
      · exact nextReader_signal h ⟨here, q, there, open_⟩ consumer blocked (by simp)
      · intro mover
        obtain ⟨_, looks⟩ := mover_looks mover
        cases looks
  | nothing there' => cases there'.symm.trans there
  | flushes there' holds _ =>
      refine .inr (.inl ⟨.flush, fun pending => ?_⟩)
      have queued := pending.queued
      rw [queued_eq rfl, holds.elements] at queued
      cases queued
  | unblocks there' _ =>
      refine .inr (.inl ⟨.unblock, fun pending => ?_⟩)
      obtain ⟨_, ⟨⟩, closed⟩ := pending.open_
      cases closed
  | destroys there' _ =>
      refine .inr (.inl ⟨.destroy, fun pending => ?_⟩)
      obtain ⟨_, ⟨⟩, _⟩ := pending.open_

omit [DecidableEq C] [DecidableEq π] [DecidableEq M] [DecidableEq D] in
theorem emptied_log_ne (before after : Memory π (Send M D) D Unit) :
    (w.emptied before after).log ≠ w.log ++ [.snd (some msg) .success] := by
  intro same
  rw [emptied, List.append_assoc] at same
  have mem := List.append_cancel_left same ▸ List.mem_singleton_self _
  obtain mem | mem := List.mem_append.mp mem
  · obtain ⟨_, -, other⟩ := List.mem_map.mp mem
    cases other
  · obtain ⟨_, -, other⟩ := List.mem_map.mp mem
    cases other

omit [DecidableEq M] [DecidableEq D] in
/-- The message that a step accepts is in the queue, which takes messages. -/
theorem pending_of_accepted (h : w.Sound) {call : Call π M D C} (taken : step w call = some u)
    (accepted : u.log = w.log ++ [.snd (some msg) .success]) : Pending msg u := by
  obtain ⟨enabled, moves, -⟩ := h.step taken
  cases moves with
  | refuses failed _ _ _ _ =>
      obtain rfl := List.singleton_inj.mp (List.append_cancel_left accepted)
      cases failed with
      | snd failed => cases failed rfl
  | @adds q msg_list msg_obj dealloc elem woken there open_ holds =>
      rw [signal_log] at accepted
      obtain rfl : ⟨w.sends, msg_obj, dealloc⟩ = msg := by simpa using accepted
      refine ⟨?_, { q with msg_list }, by rw [signal_msg_q_data]; rfl, open_⟩
      rw [signal_queued, queued_eq rfl, holds.elements]
      simp
  | fails _ _ => simp at accepted
  | blocks _ _ _ _ => simp at accepted
  | takes _ _ _ _ _ => simp at accepted
  | leaves _ _ _ => simp at accepted
  | spurious => simp at accepted
  | nothing _ => simp at accepted
  | flushes _ _ _ => exact (emptied_log_ne _ _ accepted).elim
  | unblocks _ _ => simp at accepted
  | destroys _ _ => exact (emptied_log_ne _ _ accepted).elim

/-- In every execution that is fair to the woken consumers and to one that calls msg_q_rcv again
and again, a message that msg_q_snd accepted is received, unless the queue is flushed, unblocked or
destroyed after it was accepted. -/
theorem accepted_message_is_received {heap : Heap π (ListElement (Send M D) D)}
    (e : Execution (step : Monitor π M D C → Call π M D C → Option (Monitor π M D C)))
    (start : e.state 0 = initial heap) {n : Nat}
    (accepted : (e.state (n + 1)).log = (e.state n).log ++ [.snd (some msg) .success])
    (consumer : C) (calls : e.Fair party (.calls consumer))
    (wakes : ∀ woken, e.Fair party (.wakes woken)) :
    ∃ m, n < m ∧ (msg ∈ received (e.state m).log ∨ ∃ call, e.label m = some call ∧ call.Ends) := by
  have sound (k : Nat) : (e.state k).Sound := by
    obtain ⟨ls, run⟩ := e.run k
    exact Sound.of_run (start ▸ run)
  have pending : Pending msg (e.state (n + 1)) := by
    cases moved : e.label n with
    | none => simp [e.idle moved] at accepted
    | some call => exact pending_of_accepted (sound n) (e.taken moved) accepted
  have fair (s : Monitor π M D C) : e.Fair party (s.nextReader consumer) := by
    cases here : s.woken with
    | nil => simpa [nextReader, here] using calls
    | cons first _ => simpa [nextReader, here] using wakes first
  by_contra never
  have lasts (k : Nat) (later : n < k) : Pending msg (e.state k) := by
    induction later with
    | refl => exact pending
    | @step k later ih =>
        cases moved : e.label k with
        | none => rwa [e.idle moved]
        | some call =>
            obtain got | ⟨ends, -⟩ | ⟨still, -⟩ :=
              pending_step (sound k) ih consumer (e.taken moved)
            · exact (never ⟨k + 1, Nat.lt_succ_of_lt later, .inl got⟩).elim
            · exact (never ⟨k, later, .inr ⟨call, moved, ends⟩⟩).elim
            · exact still
  obtain ⟨m, later, gone⟩ := e.eventually_of_rank (I := Sound)
    (P := fun s => msg ∈ received s.log ∨ ¬ Pending msg s)
    (fun s => s.queued.idxOf msg) (nextReader consumer)
    (fun _ _ _ h _ taken => (h.step taken).2.2)
    (fun s h open_ => nextReader_moves h (not_not.mp fun gone => open_ (.inr gone)) consumer)
    (fun s call t h open_ taken => by
      obtain got | ⟨-, gone⟩ | ⟨-, progress⟩ :=
        pending_step h (not_not.mp fun gone => open_ (.inr gone)) consumer taken
      · exact .inl (.inl got)
      · exact .inl (.inr gone)
      · exact .inr progress)
    fair (sound (n + 1))
  obtain got | gone := gone
  · exact never ⟨m, later, .inl got⟩
  · exact gone (lasts m later)

/-- Consumer 0 waits, is woken by a message, takes it and waits again. -/
def oneMessage : List (Call Nat Nat Unit Nat) :=
  [.rcv 0 true, .snd (some 5) none (some 10) (some 0), .wake 0, .rcv 0 true]

theorem one_message_is_received :
    ∃ e : Execution (step : Monitor Nat Nat Unit Nat → _ → _), e.state 0 = initial (fun _ => none) ∧
      ∃ m, 1 < m ∧ (⟨0, 5, none⟩ ∈ received (e.state m).log ∨
        ∃ call, e.label m = some call ∧ call.Ends) := by
  obtain ⟨w, run, blocked, woken⟩ : ∃ w, Run step (initial fun _ => none) oneMessage w ∧
      w.list_cond = [0] ∧ w.woken = [] := ⟨_, run_iff_foldlM.mpr rfl, rfl, rfl⟩
  obtain ⟨e, start, still, labels⟩ := run.exists_execution
  refine ⟨e, start, accepted_message_is_received e start ?_ 0 ?_ fun _ => ?_⟩
  · have first := e.taken (labels 0)
    rw [start] at first
    have second := e.taken (labels 1)
    rw [← Option.some.inj first] at second ⊢
    rw [← Option.some.inj second]
    rfl
  · exact Execution.fair_of_blocked still (not_canMove_calls (blocked ▸ List.mem_singleton_self 0))
  · exact Execution.fair_of_blocked still (not_canMove_wakes (woken ▸ List.not_mem_nil))

end Messages

section Unblocked
variable [DecidableEq π]

/-- The queue was unblocked, or destroyed. -/
def Closed (w : Monitor π M D C) : Prop := ∀ q ∈ w.msg_q_data, q.unblocked = true

omit [DecidableEq C] [DecidableEq π] in
theorem Sound.none_blocked (h : w.Sound) (closed : w.Closed) : w.list_cond = [] := by
  cases here : w.msg_q_data with
  | none => exact (h.destroyed here).1
  | some q => exact h.unblocked q here (closed q here)

omit [DecidableEq C] [DecidableEq π] in
theorem closed_of_same (closed : w.Closed) {q : MsgQData π M D} (here : w.msg_q_data = some q)
    {msg_list : Memory π (Send M D) D Unit}
    (same : u.msg_q_data = some { q with msg_list }) : u.Closed := by
  intro q' there
  obtain rfl := Option.some.inj (there.symm.trans same)
  exact closed q here

/-- Nobody comes to wait in a queue that was unblocked, and who goes on in it leaves. -/
theorem closed_step (h : w.Sound) (closed : w.Closed) {call : Call π M D C}
    (taken : step w call = some u) : u.Closed ∧ ∀ consumer ∈ u.woken, consumer ∈ w.woken ∧
      party call ≠ .wakes consumer := by
  have none_left := h.none_blocked closed
  obtain ⟨enabled, moves, sound⟩ := h.step taken
  have leaves {call : Call π M D C} {other : C} (looks : call.Looks other) (consumer : C)
      (mem : consumer ∈ w.woken.erase other) :
      consumer ∈ w.woken ∧ party call ≠ .wakes consumer := by
    refine ⟨List.mem_of_mem_erase mem, ?_⟩
    rintro same
    cases looks with
    | rcv => cases same
    | wake =>
        obtain rfl := Party.wakes.inj same
        exact (List.nodup_append'.mp h.apart).2.1.not_mem_erase mem
  cases moves with
  | refuses _ _ _ _ other =>
      refine ⟨closed, fun consumer mem => ⟨mem, fun same => ?_⟩⟩
      obtain looks := looks_of_party (.inr same)
      cases looks with
      | rcv => cases same
      | wake => exact other consumer rfl
  | adds here open_ _ => cases open_.symm.trans (closed _ here)
  | fails here open_ => cases open_.symm.trans (closed _ here)
  | blocks _ here open_ _ => cases open_.symm.trans (closed _ here)
  | takes looks here _ _ _ => exact ⟨closed_of_same closed here rfl, leaves looks⟩
  | leaves here _ _ => exact ⟨closed, leaves .wake⟩
  | spurious =>
      have blocked : _ ∈ w.list_cond := enabled
      rw [none_left] at blocked
      cases blocked
  | nothing _ => exact ⟨closed, fun _ mem => ⟨mem, by simp [party]⟩⟩
  | flushes here _ _ =>
      exact ⟨closed_of_same closed here rfl, fun _ mem => ⟨mem, by simp [party]⟩⟩
  | unblocks here open_ => cases open_.symm.trans (closed _ here)
  | destroys _ _ => exact ⟨by simp [Closed], fun _ mem => ⟨mem, by simp [party]⟩⟩

/-- After msg_q_unblock every consumer is soon out of msg_q_rcv for good, if it is not kept from
going on. -/
theorem unblock_returns_consumers [DecidableEq M] [DecidableEq D]
    {heap : Heap π (ListElement (Send M D) D)}
    (e : Execution (step : Monitor π M D C → Call π M D C → Option (Monitor π M D C)))
    (start : e.state 0 = initial heap) {n : Nat}
    (unblocked : .unblock .success ∈ (e.state n).log)
    (consumer : C) (fair : e.Fair party (.wakes consumer)) :
    ∃ m, n ≤ m ∧ ∀ k, m ≤ k → consumer ∉ (e.state k).list_cond ∧ consumer ∉ (e.state k).woken := by
  obtain ⟨ls, run⟩ := e.run n
  rw [start] at run
  have closed : (e.state n).Closed := by
    intro q here
    have seen : (e.state n).view.q = some ⟨elements q.msg_list, q.unblocked⟩ := by
      rw [view, Option.mem_def.mp here]
      rfl
    exact (delivered_of_run run).unblocked unblocked _ seen
  have keeps (s : Monitor π M D C) (call : Call π M D C) (t : Monitor π M D C)
      (inv : s.Sound ∧ s.Closed) (taken : step s call = some t) : t.Sound ∧ t.Closed :=
    ⟨(inv.1.step taken).2.2, (closed_step inv.1 inv.2 taken).1⟩
  have inv : (e.state n).Sound ∧ (e.state n).Closed := ⟨Sound.of_run run, closed⟩
  obtain ⟨m, later, outside⟩ := e.eventually_of_rank
    (I := fun s => s.Sound ∧ s.Closed) (P := fun s => consumer ∉ s.woken) (fun _ => 0)
    (fun _ => Party.wakes consumer) (fun s call t inv _ taken => keeps s call t inv taken)
    (fun s inv inside => ⟨.wake consumer, rfl, inv.1.step_isSome (not_not.mp inside)⟩)
    (fun s call t inv _ taken => by
      by_cases mem : consumer ∈ t.woken
      · exact .inr (.inr ⟨rfl, rfl, ((closed_step inv.1 inv.2 taken).2 consumer mem).2⟩)
      · exact .inl mem)
    (fun _ => fair) inv
  have gone : (e.state m).Sound ∧ (e.state m).Closed ∧ consumer ∉ (e.state m).woken :=
    have inv := e.invariant keeps inv later
    ⟨inv.1, inv.2, outside⟩
  refine ⟨m, later, fun k after => ?_⟩
  obtain ⟨sound, closed, outside⟩ := e.invariant
    (I := fun s => s.Sound ∧ s.Closed ∧ consumer ∉ s.woken) (fun s call t inv taken => by
      obtain ⟨sound, closed⟩ := keeps s call t ⟨inv.1, inv.2.1⟩ taken
      exact ⟨sound, closed, fun mem => inv.2.2 ((closed_step inv.1 inv.2.1 taken).2 _ mem).1⟩)
    gone after
  exact ⟨by simp [sound.none_blocked closed], outside⟩

/-- Two consumers wait when the queue is unblocked. -/
def twoWaiting : List (Call Nat Nat Unit Nat) :=
  [.rcv 0 true, .rcv 1 true, .unblock, .wake 1, .wake 0]

theorem two_waiting_return :
    ∃ e : Execution (step : Monitor Nat Nat Unit Nat → _ → _), e.state 0 = initial (fun _ => none) ∧
      ∃ m, 5 ≤ m ∧ ∀ k, m ≤ k → 0 ∉ (e.state k).list_cond ∧ 0 ∉ (e.state k).woken := by
  obtain ⟨w, run, unblocked, woken⟩ : ∃ w, Run step (initial fun _ => none) twoWaiting w ∧
      .unblock .success ∈ w.log ∧ w.woken = [] :=
    ⟨_, run_iff_foldlM.mpr rfl, List.mem_cons_self, rfl⟩
  obtain ⟨e, start, still, -⟩ := run.exists_execution
  refine ⟨e, start, unblock_returns_consumers e start (by rwa [still 5 (Nat.le_refl 5)]) 0 ?_⟩
  exact Execution.fair_of_blocked still (not_canMove_wakes (woken ▸ List.not_mem_nil))

end Unblocked
end Monitor
end Msm8974.MsgQ
