import Mathlib.Algebra.GroupWithZero.Nat
import Msm8974.Utils.LocTimerLedger

/-!
What a client may rely on as long as no LocTimer is destroyed and expire() runs undisturbed:
each start is answered by its own callback at most once and not after a stop, and what
was stopped or has expired is deleted once and not looked at again.
-/

namespace Msm8974.Timer.LocTimers
open Msm8974.Runs Msm8974.Traces TimerEvent ContainerMsg

variable {s t : LocTimers} {timer : Delegate}

/-- Clients start and stop their LocTimers, but not while expire() runs, and destroy none. -/
def Atomic (s : LocTimers) : Label → Prop
  | .start .. | .stop _ => s.expiring = none
  | .delete _ | .timerStart .. | .timerStop _ => False
  | .poll _ | .advance _ | .proc => True

/-- The delegate was stopped, by the client or by its expiry. -/
def Ended (timer : Delegate) (log : List TimerEvent) : Prop :=
  .stopped timer ∈ log ∨ ∃ expiring, .expired expiring timer ∈ log

structure Lifecycle (s : LocTimers) : Prop where
  once : ∀ timer, tally callbackOf timer s.log ≤ 1
  own : ∀ timer current, .timeOutCallback timer current ∈ s.log → current = timer
  silent : AtEach (fun before e => ∀ timer current, e = .timeOutCallback timer current →
    .stopped current ∉ before) s.log
  /-- Its MsgTimerRemove deletes it or is still in the queue. -/
  deleted : ∀ timer, Ended timer s.log →
    tally removalOf timer s.queue + s.log.count (.deleted timer) = 1
  kept : ∀ timer, .deleted timer ∈ s.log → Ended timer s.log
  untouched : AtEach (fun before e => ∀ timers, e = .touched timers →
    ∀ timer ∈ timers, .deleted timer ∉ before) s.log
  unreferenced : ∀ timer, .deleted timer ∈ s.log → (∀ client, s.mTimer client ≠ some timer) ∧
    (∀ container, timer ∉ (s.heap container).elements) ∧
      ∀ msg ∈ s.queue, msg.pushOf ≠ some timer ∧ msg.removalOf ≠ some timer

/-- What expire() holds of the client while it runs undisturbed. -/
def Undisturbed (s : LocTimers) : Prop :=
  match s.expiring with
  | some (.copied timer client) => s.mTimer client = some timer
  | some (.stopped timer _ current) => current = timer
  | _ => True

/-- Callbacks so far and the one that is about to be made belong to their own start. -/
structure Owned (s : LocTimers) : Prop where
  ledger : Ledger s
  undisturbed : Undisturbed s
  own : ∀ timer current, .timeOutCallback timer current ∈ s.log → current = timer

/-- Every event but a callback. -/
def Quiet : TimerEvent → Prop
  | .timeOutCallback .. => False
  | _ => True

section Extends

theorem stop_extends {p : TimerEvent → Prop} {ended : Delegate → TimerEvent} {client : LocTimer}
    (use : p (.usedClient client)) (touch : ∀ timers, p (.touched timers))
    (kind : ∀ timer, p (ended timer)) (s : LocTimers) :
    Extends p s.log (s.stop ended client).2.log := by
  have used : Extends p s.log (s.log ++ [.usedClient client]) := (Extends.refl _ _).concat use
  cases ticks : s.mTimer client with
  | none => simpa [stop, record, ticks] using used
  | some timer =>
      have taken := (used.concat (touch {timer})).concat (kind timer)
      cases fields : (s.delegates timer.address).mContainer <;>
        simpa [stop, record, ticks, destroyLocked, fields, sendMsg] using taken

theorem start_extends (client : LocTimer) (timeOutInMs : BitVec 32) (wakeOnExpire : Bool)
    (s : LocTimers) : Extends Quiet s.log (s.start client timeOutInMs wakeOnExpire).log := by
  have used : Extends Quiet s.log (s.log ++ [.usedClient client]) :=
    (Extends.refl _ _).concat trivial
  cases current : s.mTimer client with
  | some timer => simpa [start, record, current] using used
  | none =>
      have started := used.concat (x := .started ⟨s.created, client, s.now.after timeOutInMs,
        wakeOnExpire⟩) trivial
      simpa [start, record, current, sendMsg] using started

theorem stopped_extends (client : LocTimer) (s : LocTimers) :
    Extends Quiet s.log (s.stop .stopped client).2.log :=
  stop_extends trivial (fun _ => trivial) (fun _ => trivial) s

theorem delete_extends (client : LocTimer) (s : LocTimers) :
    Extends Quiet s.log (s.delete client).log := (stopped_extends client s).concat trivial

theorem destroy_extends (n : Nat) (s : LocTimers) : Extends Quiet s.log (s.destroy n).log := by
  have used : Extends Quiet s.log (s.record (.usedClient (.wrapper n))).log :=
    (Extends.refl _ _).concat trivial
  rw [destroy]
  split
  · exact used.trans (delete_extends (.wrapper n) _)
  · exact used

theorem loopEnd_extends (container : Bool) (s : LocTimers) :
    Extends Quiet s.log (s.loopEnd container).log := (Extends.refl _ _).concat trivial

theorem popRound_extends (container : Bool) (now : Timespec) (s : LocTimers) :
    Extends Quiet s.log (s.popRound container now).log := by
  rw [popRound]
  split
  · exact loopEnd_extends container s
  · exact (Extends.refl _ _).concat trivial

/-- expire() calls back once it has stopped a delegate. -/
theorem expireStep_extends (s : LocTimers) (expiring : Expiring) :
    Extends Quiet s.log (s.expireStep expiring).log ∨
      ∃ timer client current, expiring = .stopped timer client current ∧
        (s.expireStep expiring).log =
          s.log ++ [.usedClient client] ++ [.timeOutCallback timer current] := by
  cases expiring with
  | called timer => exact .inl ((Extends.refl _ _).concat trivial)
  | copied timer client =>
      have stopped : Extends Quiet s.log (s.stop (.expired timer) client).2.log :=
        stop_extends trivial (fun _ => trivial) (fun _ => trivial) s
      simp only [expireStep]
      split
      next h => exact .inl (by simpa [h] using stopped)
      next h => exact .inl (by simpa [h] using stopped)
  | stopped timer client current =>
      refine .inr ⟨timer, client, current, rfl, ?_⟩
      cases client <;> rfl
  | calledBack n => exact .inl (destroy_extends n s)

/-- Only expire() makes callbacks, and one at a time. -/
theorem step_extends {l : Label} (taken : step s l = some t) : Extends Quiet s.log t.log ∨
    ∃ timer client current, s.expiring = some (.stopped timer client current) ∧
      t.log = s.log ++ [.usedClient client] ++ [.timeOutCallback timer current] := by
  cases takes_of_step taken with
  | start n timeOutInMs wakeOnExpire own => exact .inl (start_extends _ _ _ s)
  | stop n own => exact .inl (stopped_extends _ s)
  | delete n own => exact .inl (delete_extends _ s)
  | timerStart msec cb_func wake_on_expire =>
      cases cb_func with
      | none => exact .inl (Extends.refl _ _)
      | some cb => exact .inl (start_extends _ _ _ _)
  | timerStop n =>
      rw [timerStop]
      split
      · exact .inl (destroy_extends n _)
      · exact .inl (Extends.refl _ _)
  | poll container => exact .inl (Extends.refl _ _)
  | advance now later => exact .inl (Extends.refl _ _)
  | expireStep expiring stage =>
      obtain quiet | ⟨timer, client, current, rfl, log⟩ := expireStep_extends s expiring
      · exact .inl quiet
      · exact .inr ⟨timer, client, current, stage, log⟩
  | round container now quiet loop =>
      obtain ended | popped := nextRound_cases container now s
      · exact .inl (ended ▸ loopEnd_extends container s)
      · exact .inl (popped ▸ popRound_extends container now s)
  | push container timer queue quiet idle sent =>
      exact .inl ((Extends.refl _ _).concat trivial)
  | remove container timer queue quiet idle sent =>
      exact .inl (((Extends.refl _ _).concat trivial).concat trivial)
  | expire container queue quiet idle sent => exact .inl (popRound_extends container _ _)

end Extends

/-- A callback is there already or is the one that expire() was about to make. -/
theorem step_callback {l : Label} (taken : step s l = some t) {timer current : Delegate}
    (called : .timeOutCallback timer current ∈ t.log) : .timeOutCallback timer current ∈ s.log ∨
      ∃ client, s.expiring = some (.stopped timer client current) := by
  rcases step_extends taken with quiet | ⟨timer', client, current', stage, log⟩
  · exact .inl (quiet.mem_of_not called fun quiet => quiet)
  · rw [log] at called
    simp only [List.mem_append, List.mem_singleton, reduceCtorEq, or_false,
      TimerEvent.timeOutCallback.injEq] at called
    rcases called with old | ⟨rfl, rfl⟩
    · exact .inl old
    · exact .inr ⟨client, stage⟩

theorem stop_wrappers (ended : Delegate → TimerEvent) (client : LocTimer) (s : LocTimers) :
    (s.stop ended client).2.wrappers = s.wrappers := by
  cases ticks : s.mTimer client with
  | none => simp [stop, record, ticks]
  | some timer =>
      cases fields : (s.delegates timer.address).mContainer <;>
        simp [stop, record, ticks, destroyLocked, fields, sendMsg]

theorem stop_expiring (ended : Delegate → TimerEvent) (client : LocTimer) (s : LocTimers) :
    (s.stop ended client).2.expiring = s.expiring := by
  cases ticks : s.mTimer client with
  | none => simp [stop, record, ticks]
  | some timer =>
      cases fields : (s.delegates timer.address).mContainer <;>
        simp [stop, record, ticks, destroyLocked, fields, sendMsg]

theorem start_expiring (client : LocTimer) (timeOutInMs : BitVec 32) (wakeOnExpire : Bool)
    (s : LocTimers) : (s.start client timeOutInMs wakeOnExpire).expiring = s.expiring := by
  cases current : s.mTimer client <;> simp [start, record, current, sendMsg]

/-- Between two calls of expire() there is nothing to disturb. -/
theorem undisturbed_of_none (quiet : s.expiring = none) : Undisturbed s := by
  simp [Undisturbed, quiet]

theorem popRound_undisturbed (container : Bool) (now : Timespec) (quiet : s.expiring = none) :
    Undisturbed (s.popRound container now) := by
  rw [popRound]
  split
  · exact undisturbed_of_none quiet
  · trivial

theorem expireStep_undisturbed (ledger : Ledger s) (h : Undisturbed s) {expiring : Expiring}
    (stage : s.expiring = some expiring) : Undisturbed (s.expireStep expiring) := by
  rw [Undisturbed, stage] at h
  cases expiring with
  | called timer =>
      cases link : (s.delegates timer.address).mClient with
      | none => simp [expireStep, Undisturbed, record, link]
      | some client =>
          obtain ⟨other, ticks, same⟩ := ledger.linked timer.address client link
          have started := (ledger.alive_of_ticking ticks).2.1
          obtain rfl : other = timer :=
            ledger.distinct other timer (by omega) (ledger.expiring timer stage).1 same
          simpa [expireStep, Undisturbed, record, link] using ticks
  | copied timer client =>
      have ticks : s.mTimer client = some timer := h
      simp only [expireStep, Ledger.stop_ticking ledger _ ticks, Undisturbed]
  | stopped timer client current => cases client <;> trivial
  | calledBack n => trivial

theorem Owned.step {l : Label} (h : Owned s) (atomic : Atomic s l)
    (taken : LocTimers.step s l = some t) : Owned t where
  ledger := h.ledger.step taken
  own timer current called := by
    rcases step_callback taken called with old | ⟨client, stage⟩
    · exact h.own timer current old
    · simpa [Undisturbed, stage] using h.undisturbed
  undisturbed := by
    cases takes_of_step taken with
    | start n timeOutInMs wakeOnExpire own =>
        exact undisturbed_of_none ((start_expiring _ _ _ s).trans atomic)
    | stop n own => exact undisturbed_of_none ((stop_expiring _ _ s).trans atomic)
    | delete n own => exact atomic.elim
    | timerStart msec cb_func wake_on_expire => exact atomic.elim
    | timerStop n => exact atomic.elim
    | poll container => exact h.undisturbed
    | advance now later => exact h.undisturbed
    | expireStep expiring stage => exact expireStep_undisturbed h.ledger h.undisturbed stage
    | round container now quiet loop =>
        obtain ended | popped := nextRound_cases container now s
        · exact ended ▸ undisturbed_of_none quiet
        · exact popped ▸ popRound_undisturbed container now quiet
    | push container timer queue quiet idle sent => exact undisturbed_of_none quiet
    | remove container timer queue quiet idle sent => exact undisturbed_of_none quiet
    | expire container queue quiet idle sent =>
        exact popRound_undisturbed container s.now quiet

theorem Owned.new (now : Timespec) : Owned (.new now) where
  ledger := .new now
  undisturbed := trivial
  own _ _ called := by simp [LocTimers.new] at called

theorem deletion_mem {log : List TimerEvent} :
    0 < tally deletionOf timer log ↔ .deleted timer ∈ log := by
  rw [tally_pos]
  constructor
  · rintro ⟨e, mem, about⟩
    cases e with
    | deleted other =>
        obtain rfl : other = timer := Option.some.inj about
        exact mem
    | _ => cases about
  · exact fun mem => ⟨_, mem, rfl⟩

theorem deletion_count (log : List TimerEvent) :
    log.count (.deleted timer) = tally deletionOf timer log := by
  induction log with
  | nil => rfl
  | cons e log ih =>
      rw [List.count_cons, tally_cons, ih, Nat.add_comm]
      congr 1
      cases e <;> simp [deletionOf]

theorem ended_iff {log : List TimerEvent} :
    Ended timer log ↔ 0 < tally stopOf timer log + tally expiryOf timer log := by
  rw [Nat.add_pos_iff_pos_or_pos, tally_pos, tally_pos]
  refine or_congr ⟨fun mem => ⟨_, mem, rfl⟩, ?_⟩ ⟨fun ⟨_, mem⟩ => ⟨_, mem, rfl⟩, ?_⟩
  · rintro ⟨e, mem, about⟩
    cases e with
    | stopped other =>
        obtain rfl : other = timer := Option.some.inj about
        exact mem
    | _ => cases about
  · rintro ⟨e, mem, about⟩
    cases e with
    | expired expiring other =>
        obtain rfl : other = timer := Option.some.inj about
        exact ⟨expiring, mem⟩
    | _ => cases about

theorem Owned.lifecycle (h : Owned s) : Lifecycle s where
  once timer := by
    have called := h.ledger.called timer
    have taken := h.ledger.taken timer
    have once := h.ledger.once timer
    omega
  own := h.own
  silent := by
    intro before e after log timer current same
    have allowed := h.ledger.allowed before e after log
    subst same
    intro stopped
    have : 0 < tally stopOf current before := tally_pos.mpr ⟨_, stopped, rfl⟩
    exact absurd allowed (Nat.pos_iff_ne_zero.mp this)
  deleted timer ended := by
    have ended := ended_iff.mp ended
    have removed := h.ledger.removed timer
    have taken := h.ledger.taken timer
    have once := h.ledger.once timer
    rw [deletion_count]
    omega
  kept timer deleted := by
    have deleted := deletion_mem.mpr deleted
    have removed := h.ledger.removed timer
    exact ended_iff.mpr (by omega)
  untouched := by
    intro before e after log timers same timer here deleted
    have allowed := h.ledger.allowed before e after log
    subst same
    have deleted := deletion_mem.mpr deleted
    have alive := allowed timer here
    omega
  unreferenced timer deleted := by
    have deleted := deletion_mem.mpr deleted
    obtain ⟨unpushed, -⟩ := h.ledger.gone timer deleted
    refine ⟨fun client ticks => ?_, fun container inHeap => ?_, fun msg sent => ⟨?_, ?_⟩⟩
    · have := (h.ledger.alive_of_ticking ticks).2.2.2.2
      omega
    · have := h.ledger.alive_of_heaped inHeap
      omega
    · exact tally_eq_zero.mp unpushed msg sent
    · intro removal
      have := h.ledger.alive_of_removed (tally_pos.mpr ⟨msg, sent, removal⟩)
      omega

section Drain

/-- What is left to do for a message, and for a call of expire(). -/
def msgWork : ContainerMsg → Nat
  | .push .. => 8
  | .remove .. | .expire _ => 1

def stageWork : Option Expiring → Nat
  | none => 0
  | some (.calledBack _) => 2
  | some (.stopped ..) => 3
  | some (.copied ..) => 5
  | some (.called _) => 6

def loopWork : Option (Bool × Timespec) → Nat
  | none => 0
  | some _ => 1

/-- A bound on the steps that the message task takes until it is idle. -/
def work (s : LocTimers) : Nat :=
  (s.queue.map msgWork).sum + 7 * (s.heap true).elements.card + 7 * (s.heap false).elements.card +
    stageWork s.expiring + loopWork s.processing

/-- The message task waits for a message. -/
def Idle (s : LocTimers) : Prop := s.queue = [] ∧ s.expiring = none ∧ s.processing = none

theorem update_card (heaps : Bool → LocHeap Delegate) (container : Bool) (heap : LocHeap Delegate) :
    (Function.update heaps container heap true).elements.card +
        (Function.update heaps container heap false).elements.card +
        (heaps container).elements.card =
      (heaps true).elements.card + (heaps false).elements.card + heap.elements.card := by
  cases container <;> simp <;> omega

theorem stop_work (ledger : Ledger s) (ended : Delegate → TimerEvent) (client : LocTimer) :
    work (s.stop ended client).2 ≤ work s + 1 := by
  cases ticks : s.mTimer client with
  | none =>
      rw [Ledger.stop_idle ended ticks]
      exact Nat.le_succ _
  | some timer =>
      rw [Ledger.stop_ticking ledger ended ticks]
      simp [work, msgWork]
      omega

theorem destroy_work (ledger : Ledger s) (n : Nat) : work (s.destroy n) ≤ work s + 1 := by
  rw [destroy]
  split
  · exact stop_work ((ledger.usedClient (.wrapper n)).other _ _ _ _ _ _) .stopped (.wrapper n)
  · exact Nat.le_succ _

theorem loopEnd_work (container : Bool) (s : LocTimers) :
    work (s.loopEnd container) + loopWork s.processing = work s := by
  simp [loopEnd, record, work, loopWork]

theorem popRound_work (ledger : Ledger s) (container : Bool) (now : Timespec)
    (quiet : s.expiring = none) :
    work (s.popRound container now) + loopWork s.processing ≤ work s := by
  rw [popRound]
  split
  next => exact (loopEnd_work container s).le
  next timer heap popped =>
    have elements := (LocHeap.pop_elements (ledger.checked container) popped).2
    have card : (s.heap container).elements.card = heap.elements.card + 1 := by
      rw [elements, Multiset.card_cons]
    have update := update_card s.heap container heap
    have loop : loopWork s.processing ≤ 1 := by cases s.processing <;> simp [loopWork]
    simp only [work, record, stageWork, loopWork, quiet]
    omega

theorem expireStep_work (ledger : Ledger s) {expiring : Expiring}
    (stage : s.expiring = some expiring) : work (s.expireStep expiring) < work s := by
  cases expiring with
  | called timer =>
      have next : stageWork ((s.delegates timer.address).mClient.map (.copied timer)) ≤ 5 := by
        cases (s.delegates timer.address).mClient <;> simp [stageWork]
      simp only [expireStep, work, record, stage]
      simp only [stageWork] at next ⊢
      omega
  | copied timer client =>
      have stopped := stop_work ledger (.expired timer) client
      have expiring := stop_expiring (.expired timer) client s
      simp only [work, expiring, stage] at stopped
      simp only [expireStep]
      split
      all_goals
        next h =>
          simp only [h, work, stageWork, stage] at stopped ⊢
          omega
  | stopped timer client current =>
      cases client <;> simp only [expireStep, work, record, stage, stageWork] <;> omega
  | calledBack n =>
      have destroyed := destroy_work ledger n
      have expiring : (s.destroy n).expiring = s.expiring := by
        rw [destroy]
        split
        · exact stop_expiring .stopped _ _
        · rfl
      simp only [work, expiring, stage, stageWork] at destroyed
      simp only [expireStep, work, stage, stageWork]
      omega

/-- Left to itself the message task comes to the end of its queue. -/
theorem proc_works (ledger : Ledger s) :
    Idle s ∨ ∃ t, step s .proc = some t ∧ Ledger t ∧ work t < work s := by
  have next : ∀ t, step s .proc = some t → work t < work s →
      Idle s ∨ ∃ t, step s .proc = some t ∧ Ledger t ∧ work t < work s :=
    fun t taken lower => .inr ⟨t, taken, ledger.step taken, lower⟩
  cases stage : s.expiring with
  | some expiring =>
      exact next (s.expireStep expiring) (by simp [step, stage]) (expireStep_work ledger stage)
  | none =>
      cases loop : s.processing with
      | some round =>
          obtain ⟨container, now⟩ := round
          refine next (s.nextRound container now) (by simp [step, stage, loop]) ?_
          have finished := loopEnd_work container s
          have popped := popRound_work ledger container now stage
          rw [loop, loopWork] at finished popped
          rw [nextRound]
          split
          · omega
          · split <;> omega
      | none =>
          cases sent : s.queue with
          | nil => exact .inl ⟨sent, stage, loop⟩
          | cons msg rest =>
              cases msg with
              | push container timer =>
                  refine next (pushProc container timer { s with queue := rest })
                    (by simp [step, stage, loop, sent]) ?_
                  have push : ((s.heap container).push timer).elements =
                      timer ::ₘ (s.heap container).elements := LocHeapNode.push_elements timer _
                  have update := update_card s.heap container ((s.heap container).push timer)
                  rw [push, Multiset.card_cons] at update
                  simp only [work, pushProc, record, sent, List.map_cons, List.sum_cons, msgWork]
                  omega
              | remove container timer =>
                  refine next (removeProc container timer { s with queue := rest })
                    (by simp [step, stage, loop, sent]) ?_
                  have erased := (LocHeap.remove_elements (ledger.checked container) timer).2
                  have fewer := Multiset.card_le_card
                    (Multiset.erase_le timer (s.heap container).elements)
                  have update := update_card s.heap container ((s.heap container).remove timer).2
                  rw [← erased] at fewer
                  simp only [work, removeProc, record, sent, List.map_cons, List.sum_cons, msgWork]
                  omega
              | expire container =>
                  refine next (({ s with queue := rest } : LocTimers).popRound container s.now)
                    (by simp [step, stage, loop, sent]) ?_
                  have popped := popRound_work (ledger.expireProc sent) container s.now stage
                  have shorter : work { s with queue := rest } < work s := by
                    simp only [work, sent, List.map_cons, List.sum_cons, msgWork]
                    omega
                  exact (Nat.le_add_right _ _).trans_lt (popped.trans_lt shorter)

end Drain

/-- In every interleaving in which expire() runs undisturbed and no LocTimer is destroyed, each
start is called back at most once and never after it was stopped. What was stopped or expired is
deleted once, at the latest when the message task has emptied its queue, and not touched again. -/
theorem timers_are_called_back_and_deleted_once {now : Timespec} {ls : List Label}
    (run : Run step (.new now) ls s) (atomic : Meets step Atomic (.new now) ls) :
    Lifecycle s ∧ ∃ n t, Run step s (List.replicate n .proc) t ∧ Lifecycle t ∧ Idle t ∧
      ∀ timer, Ended timer t.log → t.log.count (.deleted timer) = 1 := by
  have owned : Owned s :=
    run.invariant_of_meets (fun _ _ _ inv atomic taken => inv.step atomic taken) atomic (.new now)
  have moves : ∀ u, Owned u → Idle u ∨ ∃ t, step u .proc = some t ∧ Owned t ∧ work t < work u := by
    intro u inv
    rcases proc_works inv.ledger with idle | ⟨t, taken, -, lower⟩
    · exact .inl idle
    · exact .inr ⟨t, taken, inv.step (l := .proc) trivial taken, lower⟩
  obtain ⟨n, t, drained, owned', idle⟩ := exists_run_of_decreasing work moves owned
  refine ⟨owned.lifecycle, n, t, drained, owned'.lifecycle, idle, fun timer ended => ?_⟩
  simpa [idle.1] using owned'.lifecycle.deleted timer ended

instance (s : LocTimers) : (l : Label) → Decidable (Atomic s l)
  | .start .. | .stop _ => inferInstanceAs (Decidable (s.expiring = none))
  | .delete _ | .timerStart .. | .timerStop _ => isFalse id
  | .poll _ | .advance _ | .proc => isTrue trivial

/-- A timer is stopped before it expires, another one expires and is started again. -/
def restarts : List Label :=
  [.start 0 1000 false, .start 1 500 true, .proc, .proc, .stop 1, .proc, .advance ⟨6, 0⟩,
    .poll false, .proc, .proc, .proc, .proc, .start 0 1000 true, .proc, .proc, .proc]

theorem restarted_timer_is_called_back_once :
    ∃ s, Run step (.new ⟨5, 0⟩) restarts s ∧ Lifecycle s := by
  have run := run_iff_foldlM.mpr (rfl : restarts.foldlM step (.new ⟨5, 0⟩) = some _)
  exact ⟨_, run, (timers_are_called_back_and_deleted_once run (by decide)).1⟩

end Msm8974.Timer.LocTimers
