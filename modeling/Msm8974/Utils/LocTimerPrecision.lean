import Msm8974.Utils.LocTimerArming

/-!
How precisely timers are kept. LocTimerDelegate::ranks compares whole seconds, so the heap
does not order the timers of one second: the timerfd may be armed for a later one of them,
and a MsgTimerExpire takes the timers of the second it runs in with it, due or not.
-/

namespace Msm8974.Timer
open Msm8974.Runs Msm8974.PriorityQueue

namespace LocTimerContainer

/-- No pending timer is due before the deadline that is armed. A disarmed timerfd has already
sent its MsgTimerExpire. -/
structure ArmedInTime (c : LocTimerContainer) : Prop where
  armed : ∀ deadline ∈ c.armed, ∀ timer ∈ c.heap.elements, deadline.le timer.mFutureTime
  disarmed : c.armed = none → .expire ∈ c.queue

/-- The steps that take a MsgTimerExpire from the end of its first round to its end. -/
structure Finishes (c : LocTimerContainer) (ls : List Label) (c' : LocTimerContainer) : Prop where
  run : Run step c ls c'
  busy : Meets step (fun c _ => c.timerOfNow ≠ none) c ls
  idle : c'.timerOfNow = none

/-- Of the timers that were pending those that are due at `now`, and no others, were popped and
expired. -/
structure ExpiresDue (now : Timespec) (before after : LocTimerContainer) : Prop where
  pending : after.heap.elements = before.heap.elements.filter (¬ ·.mFutureTime.le now)
  expired : ∃ due : List LocTimerDelegate,
    (due : Multiset LocTimerDelegate) = before.heap.elements.filter (·.mFutureTime.le now) ∧
      after.expired = before.expired ++ due.map (·, now)

/-- What is asked of a MsgTimerPush, and of a MsgTimerExpire with a top that is due. -/
def Precise (c : LocTimerContainer) : Label → LocTimerContainer → Prop
  | .proc, c' =>
      match c.timerOfNow, c.queue with
      | none, .push _ :: _ => c'.ArmedInTime
      | none, .expire :: _ => ∀ top ∈ c.getSoonestTimer, top.mFutureTime.le c.now →
          (∃ n c'', Finishes c' (List.replicate n .proc) c'') ∧
            ∀ ls c'', Finishes c' ls c'' → ExpiresDue c.now c c''
      | _, _ => True
  | _, _ => True

/-- No timer of the second that the armed top is set for is due before it, and no timer of the
second in which a MsgTimerExpire runs is due later. -/
def MsgSecondsSuffice (c : LocTimerContainer) : Option Timespec → List TimerMsg → Prop
  | none, .push timer :: _ => ∀ prior ∈ c.getSoonestTimer,
      prior.mFutureTime.tv_sec ≤ timer.mFutureTime.tv_sec → c.armed ≠ none →
        ∀ pending ∈ timer ::ₘ c.heap.elements,
          pending.mFutureTime.tv_sec = prior.mFutureTime.tv_sec →
            prior.mFutureTime.tv_nsec ≤ pending.mFutureTime.tv_nsec
  | none, .expire :: _ => ∀ top ∈ c.getSoonestTimer, top.mFutureTime.le c.now →
      ∀ pending ∈ c.heap.elements, pending.mFutureTime.tv_sec = c.now.tv_sec →
        pending.mFutureTime.tv_nsec ≤ c.now.tv_nsec
  | some _, _ | none, .remove _ :: _ | none, [] => True

def SecondsSuffice (c : LocTimerContainer) : Label → Prop
  | .proc => c.MsgSecondsSuffice c.timerOfNow c.queue
  | _ => True

/-- Outside of a MsgTimerExpire the timerfd is armed for the top, or the message that its expiry
has sent is waiting. -/
def Attended (c : LocTimerContainer) : Prop :=
  c.timerOfNow = none → ∀ top, c.getSoonestTimer = some top →
    c.armed = some top.mFutureTime ∨ (c.armed = none ∧ .expire ∈ c.queue)

theorem top_soonest {c : LocTimerContainer} {top timer : LocTimerDelegate}
    (check : c.heap.checkTree = true) (h : c.getSoonestTimer = some top)
    (mem : timer ∈ c.heap.elements) : top.mFutureTime.tv_sec ≤ timer.mFutureTime.tv_sec := by
  have highest := mt outRanks_iff.mpr ((LocHeap.peek_highest check h).2 timer mem)
  exact Int.not_lt.mp highest

section Attended
variable {c : LocTimerContainer}

theorem attended_of_armedForTop (armed : c.ArmedForTop) : c.Attended :=
  fun _ top h => .inl (by rw [armed.armed, h]; rfl)

theorem attended_of_busy {t : Timespec} (busy : c.timerOfNow = some t) : c.Attended :=
  fun idle => by cases busy.symm.trans idle

theorem attended_of_empty (empty : c.getSoonestTimer = none) : c.Attended :=
  fun _ top h => by cases empty.symm.trans h

theorem Attended.of_fields {c' : LocTimerContainer} (attended : c.Attended)
    (idle : c'.timerOfNow = none → c.timerOfNow = none)
    (top : c'.getSoonestTimer = c.getSoonestTimer) (armed : c'.armed = c.armed)
    (queue : .expire ∈ c.queue → .expire ∈ c'.queue) : c'.Attended := by
  intro idle' timer h
  rw [top] at h
  rw [armed]
  exact (attended (idle idle') timer h).imp_right (And.imp_right queue)

theorem attended_updateSoonestTime_none (running : Running c) :
    (c.updateSoonestTime none).Attended := by
  cases top : c.getSoonestTimer with
  | none =>
      rw [updateSoonestTime_same top]
      exact attended_of_empty top
  | some cur =>
      apply attended_of_armedForTop
      exact updateSoonestTime_of_higher top (fun prior mem => by cases mem) (running.top cur top)

theorem Attended.behind {msg : TimerMsg} {queue : List TimerMsg} (attended : c.Attended)
    (waiting : c.queue = msg :: queue) (other : msg ≠ .expire) :
    Attended { c with queue := queue } := by
  intro idle top h
  refine (attended idle top h).imp_right (And.imp_right fun mem => ?_)
  rw [waiting] at mem
  exact (List.mem_cons.mp mem).resolve_left fun same => other same.symm

/-- Each step leaves the timerfd attended to. -/
theorem Attended.step {c' : LocTimerContainer} {l : Label} (attended : c.Attended)
    (running : Running c) (taken : c.step l = some c') : c'.Attended := by
  cases takes_of_step taken with
  | start client timeOutInMs =>
      obtain same | ⟨timer, -, same⟩ := start_cases client timeOutInMs c
      · rwa [same]
      · rw [same]
        exact attended.of_fields id rfl rfl (List.mem_append_left _)
  | stop client =>
      obtain same | ⟨timer, same⟩ := stop_cases client c
      · rwa [same]
      · rw [same]
        exact attended.of_fields id rfl rfl (List.mem_append_left _)
  | advance now later => exact attended.of_fields id rfl rfl id
  | poll polled due =>
      exact fun _ _ _ => .inr ⟨rfl, List.mem_append_right _ (List.mem_singleton_self _)⟩
  | round t busy =>
      obtain ⟨timer, -, -, same⟩ | ⟨-, same⟩ := expireRound_cases t c
      · rw [same]
        exact attended_of_busy (expireDelegate_busy (by exact busy) timer t)
      · exact same ▸ attended_updateSoonestTime_none (running.idle none)
  | push timer queue idle waiting =>
      have rest := attended.behind waiting fun same => by cases same
      have later := running.queue timer (waiting ▸ List.mem_cons_self)
      obtain ⟨-, -, armed⟩ | ⟨prior, top, -, same, kept⟩ := pushProc_cases { c with queue } later
      · exact attended_of_armedForTop armed
      · refine rest.of_fields (fun _ => idle) (kept.trans top.symm) ?_ ?_
        · rw [same]
        · rw [same]
          exact id
  | remove timer queue idle waiting =>
      have rest := attended.behind waiting fun same => by cases same
      obtain ⟨-, same⟩ | ⟨-, same, kept⟩ := removeProc_cases (running.behind waiting).check timer
      · exact same ▸ attended_updateSoonestTime_none (running.behind waiting).pop
      · refine rest.of_fields (fun _ => idle) kept ?_ ?_
        · rw [same]
        · rw [same]
          exact id
  | expire queue idle waiting =>
      obtain ⟨timer, -, same⟩ | ⟨empty, same⟩ := expireProc_cases { c with queue }
      · rw [same]
        exact attended_of_busy (expireDelegate_busy rfl timer c.now)
      · rw [same]
        exact attended_of_empty empty

end Attended

/-- What a MsgTimerExpire that was taken up in `before` has done by the time of `c`: what it popped
it expired, all of it set for the second it reads or an earlier one; it ends when nothing
of that kind is left. -/
structure Drains (now : Timespec) (before c : LocTimerContainer) : Prop where
  check : c.heap.checkTree = true
  popped : ∃ due : List LocTimerDelegate,
    (∀ timer ∈ due, timer.mFutureTime.tv_sec ≤ now.tv_sec) ∧
      (due : Multiset LocTimerDelegate) + c.heap.elements = before.heap.elements ∧
      c.expired = before.expired ++ due.map (·, now)
  reading : c.timerOfNow = some now ∨ (c.timerOfNow = none ∧
    ∀ timer ∈ c.heap.elements, now.tv_sec < timer.mFutureTime.tv_sec)

section Drains
variable {now : Timespec} {before c c' : LocTimerContainer}

theorem Drains.pop (drains : Drains now before c) {top : LocTimerDelegate}
    (soonest : c.getSoonestTimer = some top) (due : top.mFutureTime.tv_sec ≤ now.tv_sec)
    (heap : c'.heap = c.heap.pop.2) (expired : c'.expired = c.expired ++ [(top, now)])
    (busy : c'.timerOfNow = some now) : Drains now before c' := by
  obtain ⟨popped, all, rest, log⟩ := drains.popped
  have handed : c.heap.pop = (some top, c.heap.pop.2) :=
    Prod.ext ((LocHeap.pop_peek c.heap).trans soonest) rfl
  obtain ⟨check, split⟩ := LocHeap.pop_elements drains.check handed
  refine ⟨heap ▸ check, ⟨popped ++ [top], ?_, ?_, ?_⟩, .inl busy⟩
  · intro timer mem
    obtain old | new := List.mem_append.mp mem
    · exact all timer old
    · exact List.mem_singleton.mp new ▸ due
  · rw [heap, ← rest, split, ← Multiset.coe_add, Multiset.coe_singleton, add_assoc,
      Multiset.singleton_add]
  · rw [expired, log, List.map_append, List.append_assoc]
    rfl

/-- Only the rounds of the loop itself touch the heap and the log. -/
theorem Drains.step (drains : Drains now before c) {l : Label} (busy : c.timerOfNow ≠ none)
    (taken : c.step l = some c') : Drains now before c' := by
  have reading : c.timerOfNow = some now := drains.reading.resolve_right fun h => busy h.1
  have same_fields : c'.heap = c.heap → c'.expired = c.expired → c'.timerOfNow = c.timerOfNow →
      Drains now before c' := by
    intro heap expired timerOfNow
    refine ⟨heap ▸ drains.check, ?_, .inl (timerOfNow.trans reading)⟩
    rw [heap, expired]
    exact drains.popped
  cases takes_of_step taken with
  | start client timeOutInMs =>
      apply same_fields (start_fields client timeOutInMs c).1 (start_fields client timeOutInMs c).2
      obtain same | ⟨timer, -, same⟩ := start_cases client timeOutInMs c <;> rw [same]
  | stop client =>
      apply same_fields (stop_fields client c).1 (stop_fields client c).2
      obtain same | ⟨timer, same⟩ := stop_cases client c <;> rw [same]
  | advance now later => exact same_fields rfl rfl rfl
  | poll polled due => exact same_fields rfl rfl rfl
  | round t same =>
      obtain rfl : now = t := Option.some.inj (reading.symm.trans same)
      obtain ⟨top, soonest, due, same⟩ | ⟨later, same⟩ := expireRound_cases now c
      · rw [same]
        obtain ⟨heap, expired⟩ := expireDelegate_fields top now { c with heap := c.heap.pop.2 }
        exact drains.pop soonest due heap expired (expireDelegate_busy (by exact reading) top now)
      · rw [same]
        obtain ⟨heap, expired⟩ := updateSoonestTime_fields none { c with timerOfNow := none }
        refine ⟨?_, ?_, .inr ⟨(updateSoonestTime_rest none _).2.1, ?_⟩⟩
        · rw [heap]
          exact drains.check
        · rw [heap, expired]
          exact drains.popped
        · rw [heap]
          intro timer mem
          cases top : c.getSoonestTimer with
          | none =>
              rw [show c.heap.elements = 0 from LocHeap.peek_eq_none.mp top] at mem
              exact absurd mem (Multiset.notMem_zero timer)
          | some first =>
              exact Int.lt_of_lt_of_le (later first top) (top_soonest drains.check top mem)
  | push _ _ idle _ | remove _ _ idle _ | expire _ idle _ => exact absurd idle busy

theorem Drains.finishes (drains : Drains now before c) {ls : List Label}
    (finishes : Finishes c ls c') : Drains now before c' :=
  finishes.run.invariant_of_meets (fun _ _ _ drains busy taken => drains.step busy taken)
    finishes.busy drains

/-- Each round pops a timer or is the last. -/
theorem Drains.exists_finishes (drains : Drains now before c) :
    ∃ n c', Finishes c (List.replicate n .proc) c' := by
  have moves : ∀ k, Drains now before k → k.timerOfNow = none ∨ ∃ k', k.step .proc = some k' ∧
      Drains now before k' ∧
      Multiset.card k'.heap.elements + k'.timerOfNow.toList.length <
        Multiset.card k.heap.elements + k.timerOfNow.toList.length := by
    intro k drains
    cases reading : k.timerOfNow with
    | none => exact .inl rfl
    | some t =>
        have taken : k.step .proc = some (k.expireRound t) := by
          simp only [LocTimerContainer.step, reading]
        refine .inr ⟨_, taken, drains.step (by simp [reading]) taken, ?_⟩
        obtain ⟨top, soonest, -, same⟩ | ⟨-, same⟩ := expireRound_cases t k
        · have handed : k.heap.pop = (some top, k.heap.pop.2) :=
            Prod.ext ((LocHeap.pop_peek k.heap).trans soonest) rfl
          have fewer := congrArg Multiset.card (LocHeap.pop_elements drains.check handed).2
          rw [same, (expireDelegate_fields top t { k with heap := k.heap.pop.2 }).1,
            expireDelegate_busy (by exact reading) top t, fewer, Multiset.card_cons]
          exact Nat.lt_succ_self _
        · rw [same, (updateSoonestTime_fields none { k with timerOfNow := none }).1,
            (updateSoonestTime_rest none { k with timerOfNow := none }).2.1]
          exact Nat.lt_succ_self _
  obtain ⟨n, c', run, busy, -, idle⟩ := exists_first_of_decreasing _ moves drains
  exact ⟨n, c', run, busy, idle⟩

theorem Drains.expiresDue_iff (drains : Drains now before c) (idle : c.timerOfNow = none) :
    ExpiresDue now before c ↔ ∀ timer ∈ before.heap.elements,
      timer.mFutureTime.tv_sec = now.tv_sec → timer.mFutureTime.tv_nsec ≤ now.tv_nsec := by
  obtain ⟨popped, due, split, log⟩ := drains.popped
  have later : ∀ timer ∈ c.heap.elements, now.tv_sec < timer.mFutureTime.tv_sec :=
    (drains.reading.resolve_left (by simp [idle])).2
  have left : ∀ timer ∈ c.heap.elements, ¬ timer.mFutureTime.le now := by
    intro timer mem h
    have := later timer mem
    obtain less | ⟨same, -⟩ := h <;> omega
  constructor
  · intro exact_due timer mem same
    by_contra early
    have kept : timer ∈ c.heap.elements := by
      rw [exact_due.pending, Multiset.mem_filter]
      refine ⟨mem, fun h => ?_⟩
      obtain less | ⟨-, le⟩ := h
      · omega
      · exact early le
    have := later timer kept
    omega
  · intro coarse
    have full : ∀ timer ∈ popped, timer.mFutureTime.le now := by
      intro timer mem
      have listed : timer ∈ before.heap.elements :=
        split ▸ Multiset.mem_add.mpr (.inl (Multiset.mem_coe.mpr mem))
      obtain less | same := Int.lt_or_eq_of_le (due timer mem)
      · exact .inl less
      · exact .inr ⟨same, coarse timer listed same⟩
    have none_left : c.heap.elements.filter (·.mFutureTime.le now) = 0 :=
      Multiset.filter_eq_nil.mpr left
    have none_popped : (popped : Multiset LocTimerDelegate).filter (¬ ·.mFutureTime.le now) = 0 :=
      Multiset.filter_eq_nil.mpr fun timer mem h => h (full timer (Multiset.mem_coe.mp mem))
    refine ⟨?_, popped, ?_, log⟩
    · rw [← split, Multiset.filter_add, none_popped, zero_add, Multiset.filter_eq_self.mpr left]
    · rw [← split, Multiset.filter_add, none_left, add_zero,
        Multiset.filter_eq_self.mpr fun timer mem => full timer (Multiset.mem_coe.mp mem)]

/-- The first round pops the top whatever the time is; here the top is due. -/
theorem expireProc_drains (check : c.heap.checkTree = true) {top : LocTimerDelegate}
    (soonest : c.getSoonestTimer = some top) (due : top.mFutureTime.tv_sec ≤ c.now.tv_sec) :
    Drains c.now c c.expireProc := by
  have start : Drains c.now c { c with timerOfNow := some c.now } :=
    ⟨check, ⟨[], by simp, zero_add _, (List.append_nil _).symm⟩, .inl rfl⟩
  obtain ⟨heap, expired⟩ := expireProc_fields c
  refine start.pop soonest due heap ?_ ?_
  · rw [expired, soonest]
    rfl
  · obtain ⟨timer, -, same⟩ | ⟨empty, -⟩ := expireProc_cases c
    · rw [same]
      exact expireDelegate_busy rfl timer c.now
    · cases soonest.symm.trans empty

end Drains

section Push
variable {c : LocTimerContainer} {timer : LocTimerDelegate}

/-- A timer that takes the top is armed for, and it is alone in its second. -/
theorem armedInTime_of_new_top (check : c.heap.checkTree = true)
    (higher : ∀ prior, c.getSoonestTimer = some prior → outRanks timer prior = true)
    (soonest : (c.pushProc timer).getSoonestTimer = some timer)
    (armed : (c.pushProc timer).ArmedForTop) : (c.pushProc timer).ArmedInTime := by
  have deadline : (c.pushProc timer).armed = some timer.mFutureTime := by
    rw [armed.armed, soonest]
    rfl
  refine ⟨fun d hd other mem => ?_, fun none => by cases deadline.symm.trans none⟩
  obtain rfl : timer.mFutureTime = d := Option.some.inj (deadline.symm.trans hd)
  rw [(pushProc_fields timer c).1, show (c.heap.push timer).elements = timer ::ₘ c.heap.elements
    from LocHeapNode.push_elements timer _, Multiset.mem_cons] at mem
  cases mem with
  | inl same => exact .inr ⟨same ▸ rfl, same ▸ Int.le_refl _⟩
  | inr old =>
      cases top : c.getSoonestTimer with
      | none =>
          rw [show c.heap.elements = 0 from LocHeap.peek_eq_none.mp top] at old
          exact absurd old (Multiset.notMem_zero other)
      | some prior =>
          have before := outRanks_iff.mp (higher prior top)
          have first := top_soonest check top old
          exact .inl (Int.lt_of_lt_of_le before first)

/-- Below a top that stays and is armed for, the heap has every second in order, and nothing
more. -/
theorem armedInTime_iff_of_kept {c' : LocTimerContainer} {prior : LocTimerDelegate}
    (check : c'.heap.checkTree = true) (soonest : c'.getSoonestTimer = some prior)
    (armed : c'.armed = some prior.mFutureTime) :
    c'.ArmedInTime ↔ ∀ pending ∈ c'.heap.elements,
      pending.mFutureTime.tv_sec = prior.mFutureTime.tv_sec →
        prior.mFutureTime.tv_nsec ≤ pending.mFutureTime.tv_nsec := by
  constructor
  · intro inTime pending mem same
    obtain less | ⟨-, le⟩ := inTime.armed _ armed pending mem
    · omega
    · exact le
  · intro ordered
    refine ⟨fun d hd pending mem => ?_, fun none => by cases armed.symm.trans none⟩
    obtain rfl : prior.mFutureTime = d := Option.some.inj (armed.symm.trans hd)
    obtain less | same := Int.lt_or_eq_of_le (top_soonest check soonest mem)
    · exact .inl less
    · exact .inr ⟨same, ordered pending mem same.symm⟩

end Push

theorem pushProc_precise_iff {c : LocTimerContainer} {queue : List TimerMsg}
    {timer : LocTimerDelegate} (running : Running c) (attended : c.Attended)
    (idle : c.timerOfNow = none) (waiting : c.queue = .push timer :: queue) :
    (({ c with queue } : LocTimerContainer).pushProc timer).ArmedInTime ↔
      ∀ prior ∈ c.getSoonestTimer,
        prior.mFutureTime.tv_sec ≤ timer.mFutureTime.tv_sec → c.armed ≠ none →
          ∀ pending ∈ timer ::ₘ c.heap.elements,
            pending.mFutureTime.tv_sec = prior.mFutureTime.tv_sec →
              prior.mFutureTime.tv_nsec ≤ pending.mFutureTime.tv_nsec := by
  have later := running.queue timer (waiting ▸ List.mem_cons_self)
  obtain ⟨higher, soonest, armed⟩ | ⟨prior, top, lower, same, soonest⟩ :=
    pushProc_cases { c with queue } later
  · refine iff_of_true (armedInTime_of_new_top running.check higher soonest armed) ?_
    intro prior top notEarlier
    have earlier := outRanks_iff.mp (higher prior top)
    omega
  · have notEarlier : prior.mFutureTime.tv_sec ≤ timer.mFutureTime.tv_sec := by
      have h := mt outRanks_iff.mpr (by simp [lower] : ¬ outRanks timer prior = true)
      exact Int.not_lt.mp h
    have only : ∀ other, c.getSoonestTimer = some other → prior = other :=
      fun other h => Option.some.inj (top.symm.trans h)
    obtain armed | ⟨disarmed, mem⟩ := attended idle prior top
    · have check :
          (({ c with queue } : LocTimerContainer).pushProc timer).heap.checkTree = true := by
        rw [same]
        exact LocHeapNode.push_checkNodes running.check timer
      rw [armedInTime_iff_of_kept check soonest (by rw [same]; exact armed), same,
        show (c.heap.push timer).elements = timer ::ₘ c.heap.elements
          from LocHeapNode.push_elements timer _]
      constructor
      · intro ordered other h _ _
        exact only other h ▸ ordered
      · intro ordered
        exact ordered prior top notEarlier (by simp [armed])
    · refine iff_of_true ?_ fun _ _ _ armed => absurd disarmed armed
      rw [waiting] at mem
      have sent : .expire ∈ queue := (List.mem_cons.mp mem).resolve_left fun h => by cases h
      rw [same]
      exact ⟨fun d hd => (by cases disarmed.symm.trans hd), fun _ => sent⟩

theorem expireProc_precise_iff {c : LocTimerContainer} {queue : List TimerMsg}
    {top : LocTimerDelegate} (running : Running c) (soonest : c.getSoonestTimer = some top)
    (due : top.mFutureTime.le c.now) :
    ((∃ n c'', Finishes ({ c with queue } : LocTimerContainer).expireProc
        (List.replicate n .proc) c'') ∧
      ∀ ls c'', Finishes ({ c with queue } : LocTimerContainer).expireProc ls c'' →
        ExpiresDue c.now c c'') ↔
    ∀ pending ∈ c.heap.elements, pending.mFutureTime.tv_sec = c.now.tv_sec →
      pending.mFutureTime.tv_nsec ≤ c.now.tv_nsec := by
  have second : top.mFutureTime.tv_sec ≤ c.now.tv_sec := by
    obtain less | ⟨same, -⟩ := due <;> omega
  have drains : Drains c.now c ({ c with queue } : LocTimerContainer).expireProc := by
    obtain ⟨check, popped, reading⟩ :=
      expireProc_drains (c := { c with queue }) running.check soonest second
    exact ⟨check, popped, reading⟩
  obtain ⟨n, last, finishes⟩ := drains.exists_finishes
  constructor
  · intro ⟨_, all⟩
    exact ((drains.finishes finishes).expiresDue_iff finishes.idle).mp (all _ _ finishes)
  · intro coarse
    refine ⟨⟨n, last, finishes⟩, fun ls c'' ends => ?_⟩
    exact ((drains.finishes ends).expiresDue_iff ends.idle).mpr coarse

theorem step_precise_iff {c c' : LocTimerContainer} {l : Label} (running : Running c)
    (attended : c.Attended) (taken : c.step l = some c') :
    Precise c l c' ↔ SecondsSuffice c l := by
  cases takes_of_step taken with
  | start _ _ | stop _ | advance _ _ | poll _ _ => exact Iff.rfl
  | round t busy => simp only [Precise, SecondsSuffice, MsgSecondsSuffice, busy]
  | push timer queue idle waiting =>
      generalize same : ({ c with queue } : LocTimerContainer).pushProc timer = c'
      simp only [Precise, SecondsSuffice, MsgSecondsSuffice, idle, waiting]
      exact same ▸ pushProc_precise_iff running attended idle waiting
  | remove timer queue idle waiting =>
      simp only [Precise, SecondsSuffice, MsgSecondsSuffice, idle, waiting]
  | expire queue idle waiting =>
      generalize same : ({ c with queue } : LocTimerContainer).expireProc = c'
      simp only [Precise, SecondsSuffice, MsgSecondsSuffice, idle, waiting]
      refine forall_congr' fun top => forall_congr' fun soonest => forall_congr' fun due => ?_
      exact same ▸ expireProc_precise_iff running soonest due

/-- In every run, arming and expiry are as precise as the deadlines exactly as long as the order
of whole seconds is all that matters. -/
theorem timers_are_precise_iff (now : Timespec) (booted : 0 < now.tv_sec) (ls : List Label)
    (c : LocTimerContainer) (run : Run step (new now) ls c) :
    EachStep step Precise (new now) ls ↔ Meets step SecondsSuffice (new now) ls := by
  refine run.eachStep_iff_meets_of_invariant (I := fun c => Running c ∧ c.Attended) ?_ ?_ ?_
  · exact fun _ _ _ keeps taken => step_precise_iff keeps.1 keeps.2 taken
  · exact fun _ _ _ keeps _ taken => ⟨keeps.1.step taken, keeps.2.step keeps.1 taken⟩
  · refine ⟨⟨rfl, booted, fun timer mem => absurd mem (Multiset.notMem_zero timer),
      fun _ mem => by cases mem⟩, attended_of_empty rfl⟩

instance (c : LocTimerContainer) : (t : Option Timespec) → (queue : List TimerMsg) →
    Decidable (c.MsgSecondsSuffice t queue)
  | none, .push timer :: _ =>
      inferInstanceAs (Decidable (∀ prior ∈ c.getSoonestTimer,
        prior.mFutureTime.tv_sec ≤ timer.mFutureTime.tv_sec → c.armed ≠ none →
          ∀ pending ∈ timer ::ₘ c.heap.elements,
            pending.mFutureTime.tv_sec = prior.mFutureTime.tv_sec →
              prior.mFutureTime.tv_nsec ≤ pending.mFutureTime.tv_nsec))
  | none, .expire :: _ =>
      inferInstanceAs (Decidable (∀ top ∈ c.getSoonestTimer, top.mFutureTime.le c.now →
        ∀ pending ∈ c.heap.elements, pending.mFutureTime.tv_sec = c.now.tv_sec →
          pending.mFutureTime.tv_nsec ≤ c.now.tv_nsec))
  | some _, _ | none, .remove _ :: _ | none, [] => isTrue trivial

instance (c : LocTimerContainer) : (l : Label) → Decidable (SecondsSuffice c l)
  | .proc => inferInstanceAs (Decidable (c.MsgSecondsSuffice c.timerOfNow c.queue))
  | .start _ _ | .stop _ | .advance _ | .poll => isTrue trivial

/-- Two timers of different seconds, and one that joins the first of them in its second. -/
theorem timers_of_different_seconds_are_precise :
    EachStep step Precise (new ⟨5, 0⟩) [.start 0 1200, .start 1 2500, .start 2 1900, .proc, .proc,
      .proc, .advance ⟨6, 950000000⟩, .poll, .proc] :=
  (timers_are_precise_iff ⟨5, 0⟩ (by decide) _ _ (run_iff_foldlM.mpr rfl)).mpr (by decide)

/-- The timer of 1.9 s is pushed first, and the timerfd stays armed for it. Pushed the other way
round, the timer of 1.9 s is expired when the one of 1.2 s is due. -/
theorem timers_of_one_second_are_not_told_apart :
    ¬ EachStep step Precise (new ⟨5, 0⟩) [.start 0 1900, .start 1 1200, .proc, .proc] ∧
    ¬ EachStep step Precise (new ⟨5, 0⟩) [.start 0 1200, .start 1 1900, .proc, .proc,
      .advance ⟨6, 200000000⟩, .poll, .proc] := by
  constructor
  · intro precise
    have armed := precise [.start 0 1900, .start 1 1200, .proc] .proc [] _ _ rfl
      (run_iff_foldlM.mpr rfl) rfl
    exact absurd (armed.armed _ rfl ⟨1, 1, ⟨6, 200000000⟩⟩ (by decide)) (by decide)
  · intro precise
    have expiry := precise [.start 0 1200, .start 1 1900, .proc, .proc,
      .advance ⟨6, 200000000⟩, .poll] .proc [] _ _ rfl (run_iff_foldlM.mpr rfl) rfl
    have due := (expiry _ rfl (by decide)).2 [.proc, .proc] _
      ⟨run_iff_foldlM.mpr rfl, by decide, rfl⟩
    exact absurd due.pending (by decide)

end LocTimerContainer
end Msm8974.Timer
