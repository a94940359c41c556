import Msm8974.Utils.LocTimer

/-!
Which delegates a MsgTimerExpire calls expire() on. Its first round pops without
looking at the time, so a message that was queued behind the removal of the timer it
was sent for expires whatever is on top by then; the later rounds compare first.
-/

namespace Msm8974.Timer
open Msm8974.Runs Msm8974.PriorityQueue

theorem outRanks_iff {a b : LocTimerDelegate} :
    outRanks a b = true ↔ a.mFutureTime.tv_sec < b.mFutureTime.tv_sec := by
  simp [outRanks, LocRankable.ranks]

namespace LocTimerContainer

/-- No delegate was expired before the second it was set for. -/
def OnTime (c : LocTimerContainer) : Prop :=
  ∀ p ∈ c.expired, p.1.mFutureTime.tv_sec ≤ p.2.tv_sec

/-- A MsgTimerExpire is only taken up while the heap is empty or some timer in it is due. -/
def StillDue (c : LocTimerContainer) : Label → Prop
  | .proc => c.timerOfNow = none → c.queue.head? = some .expire →
      c.heap.elements = 0 ∨ ∃ timer ∈ c.heap.elements, timer.mFutureTime.tv_sec ≤ c.now.tv_sec
  | _ => True

theorem updateSoonestTime_fields (priorTop : Option LocTimerDelegate) (c : LocTimerContainer) :
    (c.updateSoonestTime priorTop).heap = c.heap ∧
      (c.updateSoonestTime priorTop).expired = c.expired := by
  simp only [updateSoonestTime]
  split
  · exact ⟨rfl, rfl⟩
  · split
    · exact ⟨rfl, rfl⟩
    · split <;> exact ⟨rfl, rfl⟩

theorem stop_fields (client : Nat) (c : LocTimerContainer) :
    (c.stop client).2.heap = c.heap ∧ (c.stop client).2.expired = c.expired := by
  unfold stop
  split <;> exact ⟨rfl, rfl⟩

theorem start_fields (client : Nat) (timeOutInMs : BitVec 32) (c : LocTimerContainer) :
    (c.start client timeOutInMs).heap = c.heap ∧
      (c.start client timeOutInMs).expired = c.expired := by
  unfold start
  split <;> exact ⟨rfl, rfl⟩

theorem expireDelegate_fields (timer : LocTimerDelegate) (t : Timespec) (c : LocTimerContainer) :
    (c.expireDelegate timer t).heap = c.heap ∧
      (c.expireDelegate timer t).expired = c.expired ++ [(timer, t)] := by
  have stopped := stop_fields timer.mClient { c with expired := c.expired ++ [(timer, t)] }
  simp only [expireDelegate]
  split
  · split <;> exact stopped
  · exact ⟨rfl, rfl⟩

theorem pushProc_fields (timer : LocTimerDelegate) (c : LocTimerContainer) :
    (c.pushProc timer).heap = c.heap.push timer ∧ (c.pushProc timer).expired = c.expired :=
  updateSoonestTime_fields _ _

theorem removeProc_fields (timer : LocTimerDelegate) (c : LocTimerContainer) :
    (c.removeProc timer).heap = (c.heap.remove timer).2 ∧
      (c.removeProc timer).expired = c.expired := by
  simp only [removeProc]
  split
  · exact updateSoonestTime_fields _ _
  · exact ⟨rfl, rfl⟩

theorem expireProc_fields (c : LocTimerContainer) :
    c.expireProc.heap = c.heap.pop.2 ∧
      c.expireProc.expired = c.expired ++ (c.getSoonestTimer.map (·, c.now)).toList := by
  have peeked : c.heap.pop.1 = c.getSoonestTimer := LocHeap.pop_peek c.heap
  cases top : c.getSoonestTimer with
  | none =>
      rw [top] at peeked
      simp only [expireProc, peeked]
      obtain ⟨heap, expired⟩ := updateSoonestTime_fields none { c with heap := c.heap.pop.2 }
      exact ⟨heap, by simpa using expired⟩
  | some timer =>
      rw [top] at peeked
      simp only [expireProc, peeked]
      exact expireDelegate_fields _ _ _

/-- A round that finds a due timer goes on; the last round arms the timerfd for what is left. -/
theorem expireRound_cases (t : Timespec) (c : LocTimerContainer) :
    (∃ timer, c.getSoonestTimer = some timer ∧ timer.mFutureTime.tv_sec ≤ t.tv_sec ∧
      c.expireRound t =
        ({ c with heap := c.heap.pop.2 } : LocTimerContainer).expireDelegate timer t) ∨
    ((∀ timer, c.getSoonestTimer = some timer → t.tv_sec < timer.mFutureTime.tv_sec) ∧
      c.expireRound t =
        ({ c with timerOfNow := none } : LocTimerContainer).updateSoonestTime none) := by
  cases top : c.heap.peek with
  | none =>
      refine .inr ⟨fun timer some => ?_, by simp [expireRound, popIfOutRanks, top]⟩
      cases top.symm.trans some
  | some timer =>
      cases later : outRanks ⟨0, 0, t⟩ timer with
      | true =>
          refine .inr ⟨fun other some => ?_, by simp [expireRound, popIfOutRanks, top, later]⟩
          obtain rfl : timer = other := Option.some.inj (top.symm.trans some)
          exact outRanks_iff.mp later
      | false =>
          have popped : c.heap.pop.1 = some timer := (LocHeap.pop_peek c.heap).trans top
          have due := mt outRanks_iff.mpr (by simp [later] : ¬ outRanks ⟨0, 0, t⟩ timer = true)
          exact .inl ⟨timer, top, Int.not_lt.mp due,
            by simp [expireRound, popIfOutRanks, top, later, popped]⟩

theorem expireRound_fields (t : Timespec) (c : LocTimerContainer) :
    ((c.expireRound t).heap = c.heap ∧ (c.expireRound t).expired = c.expired) ∨
      ∃ top : LocTimerDelegate, top.mFutureTime.tv_sec ≤ t.tv_sec ∧
        (c.expireRound t).heap = c.heap.pop.2 ∧
        (c.expireRound t).expired = c.expired ++ [(top, t)] := by
  obtain ⟨timer, -, due, same⟩ | ⟨-, same⟩ := expireRound_cases t c
  · refine .inr ⟨timer, due, ?_⟩
    rw [same]
    exact expireDelegate_fields _ _ _
  · refine .inl ?_
    rw [same]
    exact updateSoonestTime_fields _ _

theorem onTime_of_same {c c' : LocTimerContainer} (onTime : OnTime c)
    (same : c'.expired = c.expired) : OnTime c' := by
  unfold OnTime
  rw [same]
  exact onTime

theorem onTime_append {c c' : LocTimerContainer} {p : LocTimerDelegate × Timespec}
    (onTime : OnTime c) (more : c'.expired = c.expired ++ [p]) :
    OnTime c' ↔ p.1.mFutureTime.tv_sec ≤ p.2.tv_sec := by
  unfold OnTime
  rw [more]
  constructor
  · intro all
    exact all p (by simp)
  · intro due q hq
    obtain old | last := List.mem_append.mp hq
    · exact onTime q old
    · exact List.mem_singleton.mp last ▸ due

/-- The top of a checked heap is due exactly when some timer in it is. -/
theorem top_due_iff {heap : LocHeap LocTimerDelegate} (check : heap.checkTree = true)
    {top : LocTimerDelegate} (h : heap.peek = some top) (now : Int) :
    top.mFutureTime.tv_sec ≤ now ↔
      heap.elements = 0 ∨ ∃ timer ∈ heap.elements, timer.mFutureTime.tv_sec ≤ now := by
  obtain ⟨listed, highest⟩ := LocHeap.peek_highest check h
  constructor
  · intro due
    exact .inr ⟨top, listed, due⟩
  · intro due
    obtain empty | ⟨timer, ht, due⟩ := due
    · simp [empty] at listed
    · have le := mt outRanks_iff.mpr (highest timer ht)
      omega

theorem expireProc_onTime_iff {c : LocTimerContainer} (check : c.heap.checkTree = true)
    (onTime : OnTime c) :
    OnTime c.expireProc ↔ c.heap.elements = 0 ∨
      ∃ timer ∈ c.heap.elements, timer.mFutureTime.tv_sec ≤ c.now.tv_sec := by
  obtain ⟨-, expired⟩ := expireProc_fields c
  cases top : c.getSoonestTimer with
  | none =>
      refine iff_of_true (onTime_of_same onTime (by simpa [top] using expired)) (.inl ?_)
      exact LocHeap.peek_eq_none.mp top
  | some timer =>
      rw [top] at expired
      rw [onTime_append onTime expired]
      exact top_due_iff check top c.now.tv_sec

/-- The steps by what they do. -/
inductive Takes (c : LocTimerContainer) : Label → LocTimerContainer → Prop
  | start (client : Nat) (timeOutInMs : BitVec 32) :
      Takes c (.start client timeOutInMs) (c.start client timeOutInMs)
  | stop (client : Nat) : Takes c (.stop client) (c.stop client).2
  | advance (now : Timespec) (later : c.now.le now) : Takes c (.advance now) { c with now }
  | poll (polled : c.polled = true) (due : ∃ t ∈ c.armed, t.le c.now) : Takes c .poll c.expire
  | round (t : Timespec) (busy : c.timerOfNow = some t) : Takes c .proc (c.expireRound t)
  | push (timer : LocTimerDelegate) (queue : List TimerMsg) (idle : c.timerOfNow = none)
      (waiting : c.queue = .push timer :: queue) :
      Takes c .proc (({ c with queue } : LocTimerContainer).pushProc timer)
  | remove (timer : LocTimerDelegate) (queue : List TimerMsg) (idle : c.timerOfNow = none)
      (waiting : c.queue = .remove timer :: queue) :
      Takes c .proc (({ c with queue } : LocTimerContainer).removeProc timer)
  | expire (queue : List TimerMsg) (idle : c.timerOfNow = none)
      (waiting : c.queue = .expire :: queue) :
      Takes c .proc ({ c with queue } : LocTimerContainer).expireProc

theorem takes_of_step {c c' : LocTimerContainer} {l : Label} (taken : c.step l = some c') :
    Takes c l c' := by
  cases l with
  | start client timeOutInMs => exact Option.some.inj taken ▸ .start client timeOutInMs
  | stop client => exact Option.some.inj taken ▸ .stop client
  | advance now =>
      simp only [step, Option.ite_none_right_eq_some, Option.some.injEq] at taken
      exact taken.2 ▸ .advance now taken.1
  | poll =>
      simp only [step, Option.ite_none_right_eq_some, Option.some.injEq] at taken
      exact taken.2 ▸ .poll taken.1.1 taken.1.2
  | proc =>
      simp only [step] at taken
      split at taken
      next t busy => exact Option.some.inj taken ▸ .round t busy
      next idle =>
        split at taken
        · cases taken
        next msg queue waiting =>
          cases msg with
          | push timer => exact Option.some.inj taken ▸ .push timer queue idle waiting
          | remove timer => exact Option.some.inj taken ▸ .remove timer queue idle waiting
          | expire => exact Option.some.inj taken ▸ .expire queue idle waiting

theorem step_checkTree {c c' : LocTimerContainer} {l : Label} (check : c.heap.checkTree = true)
    (h : c.step l = some c') : c'.heap.checkTree = true := by
  have serve : ∀ op : Op LocTimerDelegate, (c.heap.run op).2.checkTree = true :=
    fun op => (LocHeap.run_serves check op).1
  cases takes_of_step h with
  | start client timeOutInMs => rwa [(start_fields client timeOutInMs c).1]
  | stop client => rwa [(stop_fields client c).1]
  | advance now later => exact check
  | poll polled due => exact check
  | round t busy =>
      obtain ⟨same, -⟩ | ⟨top, -, popped, -⟩ := expireRound_fields t c
      · rwa [same]
      · exact popped ▸ serve .pop
  | push timer queue idle waiting =>
      exact (pushProc_fields timer { c with queue }).1 ▸ serve (.push timer)
  | remove timer queue idle waiting =>
      exact (removeProc_fields timer { c with queue }).1 ▸ serve (.remove timer)
  | expire queue idle waiting => exact (expireProc_fields { c with queue }).1 ▸ serve .pop

theorem step_onTime_iff {c c' : LocTimerContainer} {l : Label} (check : c.heap.checkTree = true)
    (onTime : OnTime c) (h : c.step l = some c') : OnTime c' ↔ StillDue c l := by
  cases takes_of_step h with
  | start client timeOutInMs =>
      exact iff_of_true (onTime_of_same onTime (start_fields client timeOutInMs c).2) trivial
  | stop client => exact iff_of_true (onTime_of_same onTime (stop_fields client c).2) trivial
  | advance now later => exact iff_of_true onTime trivial
  | poll polled due => exact iff_of_true onTime trivial
  | round t busy =>
      refine iff_of_true ?_ (fun idle => by cases busy.symm.trans idle)
      obtain ⟨-, same⟩ | ⟨top, due, -, more⟩ := expireRound_fields t c
      · exact onTime_of_same onTime same
      · exact (onTime_append onTime more).mpr due
  | push timer queue idle waiting =>
      refine iff_of_true (onTime_of_same onTime (pushProc_fields timer { c with queue }).2) ?_
      simp [StillDue, waiting]
  | remove timer queue idle waiting =>
      refine iff_of_true (onTime_of_same onTime (removeProc_fields timer { c with queue }).2) ?_
      simp [StillDue, waiting]
  | expire queue idle waiting =>
      have first := expireProc_onTime_iff (c := { c with queue }) check onTime
      rw [first]
      simp [StillDue, idle, waiting]

/-- Timers expire on time throughout a run exactly when each MsgTimerExpire of the run
finds a due timer, or none at all. -/
theorem timers_expire_on_time_iff (now : Timespec) (ls : List Label) (c : LocTimerContainer)
    (run : Run step (new now) ls c) :
    Throughout step OnTime (new now) ls ↔ Meets step StillDue (new now) ls :=
  run.throughout_iff_meets (P := OnTime) (I := fun c => c.heap.checkTree = true)
    (fun _ _ _ check onTime h => step_onTime_iff check onTime h)
    (fun _ _ _ check h => step_checkTree check h) rfl (fun _ hp => by cases hp)

instance (c : LocTimerContainer) : (l : Label) → Decidable (StillDue c l)
  | .proc =>
      let _ : Decidable (∃ timer ∈ c.heap.elements, timer.mFutureTime.tv_sec ≤ c.now.tv_sec) :=
        Multiset.decidableExistsMultiset
      inferInstanceAs (Decidable (c.timerOfNow = none → c.queue.head? = some .expire → _ ∨ _))
  | .start _ _ | .stop _ | .advance _ | .poll => isTrue trivial

/-- The expiry of a timer, the end of its loop and the removal of the timer are all processed. -/
theorem single_timer_expires_on_time :
    ∃ c, Run step (new ⟨5, 0⟩)
        [.start 0 1000, .proc, .advance ⟨6, 0⟩, .poll, .proc, .proc, .proc] c ∧
      c.expired = [(⟨0, 0, ⟨6, 0⟩⟩, ⟨6, 0⟩)] ∧
      Throughout step OnTime (new ⟨5, 0⟩)
        [.start 0 1000, .proc, .advance ⟨6, 0⟩, .poll, .proc, .proc, .proc] :=
  ⟨_, run_iff_foldlM.mpr rfl, rfl,
    (timers_expire_on_time_iff _ _ _ (run_iff_foldlM.mpr rfl)).mpr (by decide)⟩

/-- Timer 0 is stopped between its deadline and the message its deadline sends; that
message expires timer 1, which is set for 99 seconds later. -/
theorem stale_message_expires_future_timer :
    ∃ c, Run step (new ⟨5, 0⟩) [.start 0 1000, .start 1 100000, .proc, .proc, .advance ⟨6, 0⟩,
      .stop 0, .poll, .proc, .proc] c ∧ ¬ OnTime c := by
  refine ⟨_, run_iff_foldlM.mpr rfl, fun onTime => ?_⟩
  have early := onTime (⟨1, 1, ⟨105, 0⟩⟩, ⟨6, 0⟩) (by decide)
  exact absurd early (by decide)

end LocTimerContainer
end Msm8974.Timer
