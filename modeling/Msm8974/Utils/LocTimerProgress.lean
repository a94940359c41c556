import Msm8974.Library.Service
import Msm8974.Utils.LocTimerPrecision

/-!
A timer that is started and not stopped is called back. The message task takes the MsgTimerPush off
the queue; once the deadline is past, the timerfd is ready or a MsgTimerExpire is already on its
way; and that message pops the heap until nothing is left that is due. What is asked for is that
the two tasks are not left out for good and that time goes on.
-/

namespace Msm8974.Timer
open Msm8974.Runs

namespace LocTimerContainer
variable {c t : LocTimerContainer} {timer other : LocTimerDelegate} {l : Label}

/-- The delegate is the one that its client waits for. -/
def Current (timer : LocTimerDelegate) (c : LocTimerContainer) : Prop :=
  c.mTimer timer.mClient = some timer

section Popping

theorem pop_mem (check : c.heap.checkTree = true) (top : c.getSoonestTimer = some other)
    (mem : timer ∈ c.heap.elements) (below : timer ≠ other) :
    timer ∈ c.heap.pop.2.elements := by
  have handed : c.heap.pop = (some other, c.heap.pop.2) :=
    Prod.ext ((LocHeap.pop_peek c.heap).trans top) rfl
  rw [(LocHeap.pop_elements check handed).2] at mem
  exact (Multiset.mem_cons.mp mem).resolve_left below

theorem pop_card (check : c.heap.checkTree = true) (top : c.getSoonestTimer = some other) :
    c.heap.elements.card = c.heap.pop.2.elements.card + 1 := by
  have handed : c.heap.pop = (some other, c.heap.pop.2) :=
    Prod.ext ((LocHeap.pop_peek c.heap).trans top) rfl
  rw [(LocHeap.pop_elements check handed).2, Multiset.card_cons]

/-- A delegate that expire() leaves current is another one, and was current before. -/
theorem expireDelegate_current {now : Timespec}
    (current : (c.expireDelegate other now).Current timer) : c.Current timer ∧ timer ≠ other := by
  obtain ⟨-, same⟩ | ⟨stale, same⟩ := expireDelegate_cases other now c
  · rw [same] at current
    by_cases owner : timer.mClient = other.mClient
    · simp [Current, owner] at current
    · refine ⟨?_, fun same => owner (congrArg _ same)⟩
      simpa [Current, owner] using current
  · rw [same] at current
    refine ⟨current, fun same => ?_⟩
    subst same
    exact stale current

end Popping

/-- Where the current delegates are. -/
structure Tracked (c : LocTimerContainer) : Prop where
  owner : ∀ client timer, c.mTimer client = some timer → timer.mClient = client
  known : ∀ client timer, c.mTimer client = some timer → timer.address < c.created
  removed : ∀ timer, .remove timer ∈ c.queue → timer.address < c.created
  kept : ∀ timer, c.Current timer → .remove timer ∉ c.queue
  placed : ∀ timer, c.Current timer → .push timer ∈ c.queue ∨ timer ∈ c.heap.elements
  polled : c.armed ≠ none → c.polled = true

namespace Tracked

/-- A step that starts and stops nothing. -/
theorem of_same (h : Tracked c) (mTimer : t.mTimer = c.mTimer) (created : t.created = c.created)
    (removals : ∀ timer, .remove timer ∈ t.queue → .remove timer ∈ c.queue)
    (placed : ∀ timer, c.Current timer →
      .push timer ∈ c.queue ∨ timer ∈ c.heap.elements →
        .push timer ∈ t.queue ∨ timer ∈ t.heap.elements)
    (polled : t.armed ≠ none → t.polled = true) : Tracked t := by
  have same (timer : LocTimerDelegate) : t.Current timer ↔ c.Current timer := by
    rw [Current, Current, mTimer]
  refine ⟨?_, ?_, ?_, ?_, ?_, polled⟩
  · rw [mTimer]
    exact h.owner
  · rw [mTimer, created]
    exact h.known
  · rw [created]
    exact fun timer mem => h.removed timer (removals timer mem)
  · exact fun timer current mem => h.kept timer ((same timer).mp current) (removals timer mem)
  · intro timer current
    have before := (same timer).mp current
    exact placed timer before (h.placed timer before)

/-- A current delegate is stopped, and may have left the heap. -/
theorem of_stopped (h : Tracked c) (current : c.Current other)
    (mTimer : t.mTimer = Function.update c.mTimer other.mClient none)
    (created : t.created = c.created) (queue : t.queue = c.queue ++ [.remove other])
    (heap : ∀ timer ∈ c.heap.elements, timer ≠ other → timer ∈ t.heap.elements)
    (polled : t.armed ≠ none → t.polled = true) : Tracked t := by
  have left {client : Nat} {timer : LocTimerDelegate} (ticks : t.mTimer client = some timer) :
      c.mTimer client = some timer ∧ timer ≠ other := by
    rw [mTimer] at ticks
    by_cases same : client = other.mClient
    · simp [same] at ticks
    · rw [Function.update_of_ne same] at ticks
      refine ⟨ticks, fun equal => same ?_⟩
      rw [← h.owner client timer ticks, equal]
  refine ⟨?_, ?_, ?_, ?_, ?_, polled⟩
  · exact fun client timer ticks => h.owner client timer (left ticks).1
  · rw [created]
    exact fun client timer ticks => h.known client timer (left ticks).1
  · intro timer mem
    rw [queue] at mem
    rw [created]
    obtain old | new := List.mem_append.mp mem
    · exact h.removed timer old
    · obtain rfl := TimerMsg.remove.inj (List.mem_singleton.mp new)
      exact h.known _ timer current
  · intro timer ticks mem
    rw [queue] at mem
    obtain old | new := List.mem_append.mp mem
    · exact h.kept timer (left ticks).1 old
    · exact (left ticks).2 (TimerMsg.remove.inj (List.mem_singleton.mp new))
  · intro timer ticks
    rw [queue]
    obtain pushed | heaped := h.placed timer (left ticks).1
    · exact .inl (List.mem_append_left _ pushed)
    · exact .inr (heap timer heaped (left ticks).2)

theorem stop (h : Tracked c) (client : Nat) : Tracked (c.stop client).2 := by
  cases ticks : c.mTimer client with
  | none =>
      have same : c.stop client = (false, c) := by simp [LocTimerContainer.stop, ticks]
      rwa [same]
  | some timer =>
      obtain rfl := h.owner client timer ticks
      have same : (c.stop timer.mClient).2 = { c with
          mTimer := Function.update c.mTimer timer.mClient none
          queue := c.queue ++ [.remove timer] } := by
        simp [LocTimerContainer.stop, sendMsg, ticks]
      rw [same]
      exact h.of_stopped ticks rfl rfl rfl (fun _ mem _ => mem) h.polled

theorem start (h : Tracked c) (client : Nat) (timeOutInMs : BitVec 32) :
    Tracked (c.start client timeOutInMs) := by
  cases ticks : c.mTimer client with
  | some timer =>
      have same : c.start client timeOutInMs = c := by simp [LocTimerContainer.start, ticks]
      rwa [same]
  | none =>
      obtain ⟨new, address, owner, same⟩ : ∃ new : LocTimerDelegate, new.address = c.created ∧
          new.mClient = client ∧ c.start client timeOutInMs =
            { c with
              mTimer := Function.update c.mTimer client (some new)
              created := c.created + 1
              queue := c.queue ++ [.push new] } :=
        ⟨⟨c.created, client, c.now.after timeOutInMs⟩, rfl, rfl, by
          simp [LocTimerContainer.start, sendMsg, ticks]⟩
      rw [same]
      have cases {key : Nat} {timer : LocTimerDelegate}
          (mem : Function.update c.mTimer client (some new) key = some timer) :
          key = client ∧ timer = new ∨ c.mTimer key = some timer := by
        by_cases here : key = client
        · subst here
          exact .inl ⟨rfl, by simpa using mem.symm⟩
        · exact .inr (by rwa [Function.update_of_ne here] at mem)
      refine ⟨?_, ?_, ?_, ?_, ?_, h.polled⟩
      · intro key timer mem
        obtain ⟨rfl, rfl⟩ | old := cases mem
        · exact owner
        · exact h.owner key timer old
      · intro key timer mem
        obtain ⟨rfl, rfl⟩ | old := cases mem
        · exact Nat.lt_succ_of_le (Nat.le_of_eq address)
        · exact Nat.lt_succ_of_lt (h.known key timer old)
      · intro timer mem
        exact Nat.lt_succ_of_lt (h.removed timer (by simpa using mem))
      · intro timer mem removed
        have before : .remove timer ∈ c.queue := by simpa using removed
        obtain ⟨-, rfl⟩ | old := cases mem
        · exact absurd address (Nat.ne_of_lt (h.removed timer before))
        · exact h.kept timer old before
      · intro timer mem
        obtain ⟨-, rfl⟩ | old := cases mem
        · exact .inl (List.mem_append_right _ (List.mem_singleton_self _))
        · exact (h.placed timer old).imp_left (List.mem_append_left _)

theorem settime (h : Tracked c) (value : Timespec) : Tracked (c.addPoll.settime value) :=
  h.of_same rfl rfl (fun _ => id) (fun _ _ => id) fun _ => rfl

theorem updateSoonestTime (h : Tracked c) (priorTop : Option LocTimerDelegate) :
    Tracked (c.updateSoonestTime priorTop) := by
  simp only [LocTimerContainer.updateSoonestTime]
  split
  · exact h
  · split
    · exact h.of_same rfl rfl (fun _ => id) (fun _ _ => id) fun armed => absurd rfl armed
    · split
      · exact h.settime _
      · exact h

/-- A round of a MsgTimerExpire pops the top and calls expire() on it. -/
theorem expired (h : Tracked c) (check : c.heap.checkTree = true)
    (top : c.getSoonestTimer = some other) (timerOfNow : Option Timespec) (now : Timespec) :
    Tracked (({ c with heap := c.heap.pop.2, timerOfNow := timerOfNow } :
      LocTimerContainer).expireDelegate other now) := by
  obtain ⟨current, same⟩ | ⟨stale, same⟩ := expireDelegate_cases other now
    { c with heap := c.heap.pop.2, timerOfNow := timerOfNow }
  · rw [same]
    exact h.of_stopped current rfl rfl rfl (fun timer mem below => pop_mem check top mem below)
      h.polled
  · rw [same]
    refine h.of_same rfl rfl (fun _ => id) (fun timer current => Or.imp_right fun mem => ?_)
      h.polled
    refine pop_mem check top mem fun same => ?_
    subst same
    exact stale current

theorem step (h : Tracked c) (running : Running c) (taken : c.step l = some t) : Tracked t := by
  cases takes_of_step taken with
  | start client timeOutInMs => exact h.start client timeOutInMs
  | stop client => exact h.stop client
  | advance now later => exact h.of_same rfl rfl (fun _ => id) (fun _ _ => id) h.polled
  | poll polled due =>
      refine h.of_same rfl rfl (fun timer mem => ?_) (fun timer _ => Or.imp_left ?_)
        fun armed => absurd rfl armed
      · exact (List.mem_append.mp mem).resolve_right fun new => by cases List.mem_singleton.mp new
      · exact List.mem_append_left _
  | round now busy =>
      obtain ⟨top, soonest, -, same⟩ | ⟨-, same⟩ := expireRound_cases now c
      · exact same ▸ h.expired running.check soonest c.timerOfNow now
      · refine same ▸ updateSoonestTime (c := { c with timerOfNow := none }) ?_ none
        exact h.of_same rfl rfl (fun _ => id) (fun _ _ => id) h.polled
  | push timer queue idle waiting =>
      refine updateSoonestTime (c := { c with queue, heap := c.heap.push timer }) ?_ _
      have pushed : (c.heap.push timer).elements = timer ::ₘ c.heap.elements :=
        (LocHeap.run_serves running.check (.push timer)).2.2
      refine h.of_same rfl rfl (fun other mem => ?_) (fun other _ place => ?_) h.polled
      · rw [waiting]
        exact List.mem_cons_of_mem _ mem
      · rw [waiting] at place
        obtain first | heaped := place
        · obtain same | later := List.mem_cons.mp first
          · obtain rfl := TimerMsg.push.inj same
            exact .inr (pushed ▸ Multiset.mem_cons_self _ _)
          · exact .inl later
        · exact .inr (pushed ▸ Multiset.mem_cons_of_mem heaped)
  | remove timer queue idle waiting =>
      have removal : Tracked { c with queue, heap := (c.heap.remove timer).2 } := by
        refine h.of_same rfl rfl (fun other mem => ?_) (fun other current place => ?_) h.polled
        · rw [waiting]
          exact List.mem_cons_of_mem _ mem
        · have kept := h.kept other current
          rw [waiting] at place kept
          refine place.imp (fun pushed => ?_) fun heaped => ?_
          · exact (List.mem_cons.mp pushed).resolve_left fun same => by cases same
          · rw [(LocHeap.remove_elements running.check timer).2]
            refine (Multiset.mem_erase_of_ne fun same => kept ?_).mpr heaped
            exact same ▸ List.mem_cons_self
      simp only [removeProc]
      split
      · exact removal.updateSoonestTime none
      · exact removal
  | expire queue idle waiting =>
      have rest : Tracked { c with queue } := by
        refine h.of_same rfl rfl (fun other mem => ?_) (fun other _ => Or.imp_left fun mem => ?_)
          h.polled
        · rw [waiting]
          exact List.mem_cons_of_mem _ mem
        · rw [waiting] at mem
          exact (List.mem_cons.mp mem).resolve_left fun same => by cases same
      obtain ⟨top, soonest, same⟩ | ⟨-, same⟩ := expireProc_cases { c with queue }
      · exact same ▸ rest.expired running.check soonest (some c.now) c.now
      · rwa [same]

theorem new (now : Timespec) : Tracked (new now) where
  owner _ _ mem := by cases mem
  known _ _ mem := by cases mem
  removed _ mem := by cases mem
  kept _ _ mem := by cases mem
  placed _ mem := by cases mem
  polled armed := absurd rfl armed

end Tracked

section Steps

theorem updateSoonestTime_clients (priorTop : Option LocTimerDelegate) (c : LocTimerContainer) :
    (c.updateSoonestTime priorTop).mTimer = c.mTimer ∧
      (c.updateSoonestTime priorTop).created = c.created := by
  simp only [updateSoonestTime]
  split
  · exact ⟨rfl, rfl⟩
  · split
    · exact ⟨rfl, rfl⟩
    · split <;> exact ⟨rfl, rfl⟩

theorem pushProc_clients (timer : LocTimerDelegate) (c : LocTimerContainer) :
    (c.pushProc timer).mTimer = c.mTimer ∧ (c.pushProc timer).created = c.created :=
  updateSoonestTime_clients _ _

theorem removeProc_clients (timer : LocTimerDelegate) (c : LocTimerContainer) :
    (c.removeProc timer).mTimer = c.mTimer ∧ (c.removeProc timer).created = c.created := by
  simp only [removeProc]
  split
  · exact updateSoonestTime_clients _ _
  · exact ⟨rfl, rfl⟩

theorem expireDelegate_created (timer : LocTimerDelegate) (now : Timespec)
    (c : LocTimerContainer) : (c.expireDelegate timer now).created = c.created := by
  obtain ⟨-, same⟩ | ⟨-, same⟩ := expireDelegate_cases timer now c <;> rw [same]

theorem created_le_of_step (taken : c.step l = some t) : c.created ≤ t.created := by
  cases takes_of_step taken with
  | start client timeOutInMs =>
      obtain same | ⟨timer, -, same⟩ := start_cases client timeOutInMs c <;> rw [same]
      exact Nat.le_succ _
  | stop client =>
      obtain same | ⟨timer, same⟩ := stop_cases client c <;> rw [same]
  | advance | poll => exact Nat.le_refl _
  | round now busy =>
      obtain ⟨top, -, -, same⟩ | ⟨-, same⟩ := expireRound_cases now c
      · rw [same, expireDelegate_created]
      · rw [same, (updateSoonestTime_clients none _).2]
  | push timer queue => rw [(pushProc_clients timer _).2]
  | remove timer queue => rw [(removeProc_clients timer _).2]
  | expire queue =>
      obtain ⟨top, -, same⟩ | ⟨-, same⟩ := expireProc_cases { c with queue }
      · rw [same, expireDelegate_created]
      · rw [same]

/-- A delegate is made current when it is made, and never again. -/
theorem current_of_step (known : timer.address < c.created) (taken : c.step l = some t)
    (after : t.Current timer) : c.Current timer := by
  cases takes_of_step taken with
  | start client timeOutInMs =>
      cases ticks : c.mTimer client with
      | some other =>
          have same : c.start client timeOutInMs = c := by simp [start, ticks]
          rwa [same] at after
      | none =>
          have mTimer : (c.start client timeOutInMs).mTimer = Function.update c.mTimer client
              (some ⟨c.created, client, c.now.after timeOutInMs⟩) := by
            simp [start, sendMsg, ticks]
          rw [Current, mTimer] at after
          by_cases here : timer.mClient = client
          · rw [here, Function.update_self] at after
            rw [← Option.some.inj after] at known
            exact absurd known (Nat.lt_irrefl _)
          · rwa [Function.update_of_ne here] at after
  | stop client =>
      cases ticks : c.mTimer client with
      | none =>
          have same : (c.stop client).2 = c := by simp [stop, ticks]
          rwa [same] at after
      | some other =>
          have mTimer : (c.stop client).2.mTimer = Function.update c.mTimer client none := by
            simp [stop, sendMsg, ticks]
          rw [Current, mTimer] at after
          by_cases here : timer.mClient = client
          · simp [here] at after
          · rwa [Function.update_of_ne here] at after
  | advance | poll => exact after
  | round now busy =>
      obtain ⟨top, -, -, same⟩ | ⟨-, same⟩ := expireRound_cases now c
      · rw [same] at after
        have before := (expireDelegate_current after).1
        exact before
      · rwa [same, Current, (updateSoonestTime_clients none _).1] at after
  | push other queue => rwa [Current, (pushProc_clients other _).1] at after
  | remove other queue => rwa [Current, (removeProc_clients other _).1] at after
  | expire queue =>
      obtain ⟨top, -, same⟩ | ⟨-, same⟩ := expireProc_cases { c with queue }
      · rw [same] at after
        have before := (expireDelegate_current after).1
        exact before
      · rwa [same] at after

/-- A current delegate does not leave the heap. -/
theorem heap_of_step (tracked : Tracked c) (check : c.heap.checkTree = true)
    (taken : c.step l = some t) (before : c.Current timer) (after : t.Current timer)
    (mem : timer ∈ c.heap.elements) : timer ∈ t.heap.elements := by
  cases takes_of_step taken with
  | start client timeOutInMs => rwa [(start_fields client timeOutInMs c).1]
  | stop client => rwa [(stop_fields client c).1]
  | advance | poll => exact mem
  | round now busy =>
      obtain ⟨top, soonest, -, same⟩ | ⟨-, same⟩ := expireRound_cases now c
      · rw [same] at after ⊢
        rw [(expireDelegate_fields top now _).1]
        exact pop_mem check soonest mem (expireDelegate_current after).2
      · rwa [same, (updateSoonestTime_fields none _).1]
  | push other queue =>
      rw [(pushProc_fields other _).1]
      have pushed : (c.heap.push other).elements = other ::ₘ c.heap.elements :=
        (LocHeap.run_serves check (.push other)).2.2
      exact pushed ▸ Multiset.mem_cons_of_mem mem
  | remove other queue idle waiting =>
      rw [(removeProc_fields other _).1, (LocHeap.remove_elements check other).2]
      refine (Multiset.mem_erase_of_ne fun same => tracked.kept timer before ?_).mpr mem
      exact waiting ▸ same ▸ List.mem_cons_self
  | expire queue =>
      obtain ⟨top, soonest, same⟩ | ⟨-, same⟩ := expireProc_cases { c with queue }
      · rw [same] at after ⊢
        rw [(expireDelegate_fields top c.now _).1]
        exact pop_mem check soonest mem (expireDelegate_current after).2
      · rwa [same]

theorem now_le_of_step (taken : c.step l = some t) : c.now.tv_sec ≤ t.now.tv_sec := by
  have kept {timer : LocTimerDelegate} {now : Timespec} {c : LocTimerContainer} :
      (c.expireDelegate timer now).now = c.now := by
    obtain ⟨-, same⟩ | ⟨-, same⟩ := expireDelegate_cases timer now c <;> rw [same]
  cases takes_of_step taken with
  | start client timeOutInMs =>
      obtain same | ⟨timer, -, same⟩ := start_cases client timeOutInMs c <;> rw [same]
  | stop client =>
      obtain same | ⟨timer, same⟩ := stop_cases client c <;> rw [same]
  | advance now later =>
      obtain less | ⟨same, -⟩ := later
      · exact Int.le_of_lt less
      · exact Int.le_of_eq same
  | poll => exact Int.le_refl _
  | round now busy =>
      obtain ⟨top, -, -, same⟩ | ⟨-, same⟩ := expireRound_cases now c
      · rw [same, kept]
      · rw [same, (updateSoonestTime_rest none _).2.2]
  | push timer queue => rw [pushProc, (updateSoonestTime_rest _ _).2.2]
  | remove timer queue =>
      simp only [removeProc]
      split
      · rw [(updateSoonestTime_rest _ _).2.2]
      · exact Int.le_refl _
  | expire queue =>
      obtain ⟨top, -, same⟩ | ⟨-, same⟩ := expireProc_cases { c with queue }
      · rw [same, kept]
      · rw [same]

end Steps

section Serving

inductive Party
  | clients | clock | pollTask | msgTask
deriving DecidableEq

def party : Label → Party
  | .start _ _ | .stop _ => .clients
  | .advance _ => .clock
  | .poll => .pollTask
  | .proc => .msgTask

structure Sane (c : LocTimerContainer) : Prop where
  running : Running c
  attended : c.Attended
  tracked : Tracked c

theorem Sane.step (h : Sane c) (taken : c.step l = some t) : Sane t :=
  ⟨h.running.step taken, h.attended.step h.running taken, h.tracked.step h.running taken⟩

theorem Sane.new (now : Timespec) (booted : 0 < now.tv_sec) : Sane (new now) where
  running := ⟨rfl, booted, fun timer mem => absurd mem (Multiset.notMem_zero timer),
    fun _ mem => by cases mem⟩
  attended := attended_of_empty rfl
  tracked := .new now

/-- The message task at its queue; a MsgTimerExpire still has the heap to pop. -/
def desk : Desk LocTimerContainer TimerMsg where
  queue := (·.queue)
  busy c := c.timerOfNow ≠ none
  cost c := c.heap.elements.card + c.timerOfNow.toList.length

theorem proc_moves (ready : c.timerOfNow ≠ none ∨ c.queue ≠ []) :
    CanMove step party .msgTask c := by
  refine ⟨.proc, rfl, ?_⟩
  cases reading : c.timerOfNow with
  | some now => simp [step, reading]
  | none =>
      cases waiting : c.queue with
      | nil => simp [reading, waiting] at ready
      | cons msg queue => cases msg <;> simp [step, reading, waiting]

theorem expireDelegate_queue (timer : LocTimerDelegate) (now : Timespec) (c : LocTimerContainer) :
    ∃ more, (c.expireDelegate timer now).queue = c.queue ++ more := by
  obtain ⟨-, same⟩ | ⟨-, same⟩ := expireDelegate_cases timer now c
  · exact ⟨[.remove timer], by rw [same]⟩
  · exact ⟨[], by rw [same, List.append_nil]⟩

/-- A pop and the expire() that follows it. -/
theorem expired_cost (check : c.heap.checkTree = true) (top : c.getSoonestTimer = some timer)
    (reading now : Timespec) :
    desk.cost (({ c with heap := c.heap.pop.2, timerOfNow := some reading } :
      LocTimerContainer).expireDelegate timer now) = c.heap.elements.card := by
  simp only [desk]
  rw [(expireDelegate_fields timer now _).1, expireDelegate_busy rfl, pop_card check top]
  rfl

theorem serviced : Serviced step party .msgTask Sane desk 2 where
  keeps _ _ _ sane taken := sane.step taken
  moves _ _ ready := proc_moves ready
  others c l t _ taken other := by
    cases takes_of_step taken with
    | start client timeOutInMs =>
        obtain same | ⟨timer, -, same⟩ := start_cases client timeOutInMs c
        · exact ⟨by rw [same], by rw [same], [], by rw [same, List.append_nil]⟩
        · exact ⟨by simp [same, desk], by simp [same, desk], [.push timer], by rw [same]; rfl⟩
    | stop client =>
        obtain same | ⟨timer, same⟩ := stop_cases client c
        · exact ⟨by rw [same], by rw [same], [], by rw [same, List.append_nil]⟩
        · exact ⟨by simp [same, desk], by simp [same, desk], [.remove timer], by rw [same]; rfl⟩
    | advance => exact ⟨Iff.rfl, rfl, [], (List.append_nil _).symm⟩
    | poll => exact ⟨Iff.rfl, rfl, [.expire], rfl⟩
    | round | push | remove | expire => exact (other rfl).elim
  works c l t sane taken mine busy := by
    cases takes_of_step taken with
    | start | stop | advance | poll => cases mine
    | push _ _ idle | remove _ _ idle | expire _ idle => exact (busy idle).elim
    | round now reading =>
        obtain ⟨top, soonest, -, same⟩ | ⟨-, same⟩ := expireRound_cases now c
        · rw [same]
          have cost := expired_cost sane.running.check soonest now now
          rw [← reading] at cost
          refine ⟨?_, expireDelegate_queue top now _⟩
          rw [cost]
          simp [desk, reading]
        · rw [same]
          refine ⟨?_, [], ?_⟩
          · simp [desk, reading, (updateSoonestTime_fields none _).1,
              (updateSoonestTime_rest none _).2.1]
          · rw [List.append_nil]
            exact (updateSoonestTime_rest none _).1
  takes c l t sane taken mine idle := by
    cases takes_of_step taken with
    | start | stop | advance | poll => cases mine
    | round now reading => simp [desk, reading] at idle
    | push timer queue still waiting =>
        have pushed : (c.heap.push timer).elements = timer ::ₘ c.heap.elements :=
          (LocHeap.run_serves sane.running.check (.push timer)).2.2
        refine ⟨_, queue, [], waiting, ?_, ?_⟩
        · rw [List.append_nil]
          exact (updateSoonestTime_rest _ _).1
        · simp only [desk]
          rw [(pushProc_fields timer _).1, pushProc, (updateSoonestTime_rest _ _).2.1]
          simp only [pushed, Multiset.card_cons]
          omega
    | remove timer queue still waiting =>
        obtain ⟨kept, reading⟩ := removeProc_rest (c := { c with queue }) sane.running.check timer
        refine ⟨_, queue, [], waiting, by rw [List.append_nil]; exact kept, ?_⟩
        have fewer := Multiset.card_le_card (Multiset.erase_le timer c.heap.elements)
        rw [← (LocHeap.remove_elements sane.running.check timer).2] at fewer
        simp only [desk]
        rw [(removeProc_fields timer _).1, reading]
        exact Nat.lt_succ_of_le (Nat.le_succ_of_le (Nat.add_le_add_right fewer _))
    | expire queue still waiting =>
        obtain ⟨top, soonest, same⟩ | ⟨-, same⟩ := expireProc_cases { c with queue }
        · obtain ⟨more, grows⟩ := expireDelegate_queue top c.now
            { c with queue, heap := c.heap.pop.2, timerOfNow := some c.now }
          refine ⟨_, queue, more, waiting, same ▸ grows, ?_⟩
          have cost := expired_cost (c := { c with queue }) sane.running.check soonest c.now c.now
          rw [same, cost]
          simp only [desk]
          omega
        · refine ⟨_, queue, [], waiting, by rw [same, List.append_nil]; rfl, ?_⟩
          rw [same]
          exact Nat.lt_add_of_pos_right (by decide)

end Serving

section Progress

/-- Once it has been pushed, a current delegate is in the heap. -/
structure Held (timer : LocTimerDelegate) (c : LocTimerContainer) : Prop where
  known : timer.address < c.created
  heaped : c.Current timer → timer ∈ c.heap.elements

/-- A MsgTimerExpire is popping the heap, and will not stop before the delegate. -/
structure Draining (timer : LocTimerDelegate) (c : LocTimerContainer) : Prop where
  held : Held timer c
  reading : c.Current timer →
    ∃ now, c.timerOfNow = some now ∧ timer.mFutureTime.tv_sec ≤ now.tv_sec

theorem Held.step (held : Held timer c) (sane : Sane c) (taken : c.step l = some t) :
    Held timer t where
  known := Nat.lt_of_lt_of_le held.known (created_le_of_step taken)
  heaped after := by
    have before := current_of_step held.known taken after
    exact heap_of_step sane.tracked sane.running.check taken before after (held.heaped before)

theorem Draining.step (draining : Draining timer c) (sane : Sane c) (taken : c.step l = some t) :
    Draining timer t where
  held := draining.held.step sane taken
  reading after := by
    have before := current_of_step draining.held.known taken after
    obtain ⟨now, reading, due⟩ := draining.reading before
    cases takes_of_step taken with
    | start client timeOutInMs =>
        obtain same | ⟨new, -, same⟩ := start_cases client timeOutInMs c <;>
          exact ⟨now, by rw [same, reading], due⟩
    | stop client =>
        obtain same | ⟨other, same⟩ := stop_cases client c <;>
          exact ⟨now, by rw [same, reading], due⟩
    | advance | poll => exact ⟨now, reading, due⟩
    | push _ _ idle | remove _ _ idle | expire _ idle => cases reading.symm.trans idle
    | round now' same =>
        obtain rfl := Option.some.inj (reading.symm.trans same)
        obtain ⟨top, -, -, same⟩ | ⟨later, same⟩ := expireRound_cases now c
        · exact ⟨now, same ▸ expireDelegate_busy (by exact reading) top now, due⟩
        · -- the last round finds a top that is due later than the delegate below it
          have mem := draining.held.heaped before
          cases top : c.getSoonestTimer with
          | none =>
              rw [show c.heap.elements = 0 from LocHeap.peek_eq_none.mp top] at mem
              exact (Multiset.notMem_zero _ mem).elim
          | some first =>
              have least := top_soonest sane.running.check top mem
              have less := later first top
              omega

/-- While the delegate is late and the message task idle, the timerfd is ready or has been. -/
theorem poll_moves (sane : Sane c) (idle : c.timerOfNow = none) (mem : timer ∈ c.heap.elements)
    (late : timer.mFutureTime.tv_sec < c.now.tv_sec) (unsent : .expire ∉ c.queue) :
    CanMove LocTimerContainer.step party .pollTask c := by
  obtain ⟨first, top⟩ : ∃ first, c.getSoonestTimer = some first := by
    cases top : c.getSoonestTimer with
    | none =>
        rw [show c.heap.elements = 0 from LocHeap.peek_eq_none.mp top] at mem
        exact (Multiset.notMem_zero _ mem).elim
    | some first => exact ⟨first, rfl⟩
  have armed := (sane.attended idle first top).resolve_right fun sent => unsent sent.2
  have polled := sane.tracked.polled (by simp [armed])
  have least := top_soonest sane.running.check top mem
  have due : first.mFutureTime.le c.now := .inl (Int.lt_of_le_of_lt least late)
  exact ⟨.poll, rfl, by simp [LocTimerContainer.step, polled, armed, due]⟩

/-- A current delegate is stopped by its client, or the message task calls the client back. -/
theorem ended_of_step (taken : c.step l = some t) (before : c.Current timer)
    (after : ¬ t.Current timer) : l = .stop timer.mClient ∨
      l = .proc ∧ t.timedOut = c.timedOut ++ [timer.mClient] := by
  have called {top : LocTimerDelegate} {now : Timespec} {s : LocTimerContainer}
      (same : s.mTimer = c.mTimer) (log : s.timedOut = c.timedOut)
      (ended : ¬ (s.expireDelegate top now).Current timer) :
      (s.expireDelegate top now).timedOut = c.timedOut ++ [timer.mClient] := by
    obtain ⟨current, here⟩ | ⟨-, here⟩ := expireDelegate_cases top now s
    · rw [here] at ended ⊢
      by_cases owner : timer.mClient = top.mClient
      · rw [← log, owner]
      · refine (ended ?_).elim
        exact ((Function.update_of_ne owner none s.mTimer).trans (congrFun same _)).trans before
    · rw [here] at ended
      exact (ended (by rwa [Current, same])).elim
  cases takes_of_step taken with
  | start client timeOutInMs =>
      refine (after ?_).elim
      cases ticks : c.mTimer client with
      | some other =>
          have same : c.start client timeOutInMs = c := by simp [start, ticks]
          rwa [same]
      | none =>
          have other : timer.mClient ≠ client := by
            rintro rfl
            cases before.symm.trans ticks
          have mTimer : (c.start client timeOutInMs).mTimer = Function.update c.mTimer client
              (some ⟨c.created, client, c.now.after timeOutInMs⟩) := by
            simp [start, sendMsg, ticks]
          rwa [Current, mTimer, Function.update_of_ne other]
  | stop client =>
      by_cases mine : client = timer.mClient
      · exact .inl (mine ▸ rfl)
      · refine (after ?_).elim
        obtain same | ⟨other, same⟩ := stop_cases client c
        · rwa [same]
        · rw [same]
          exact (Function.update_of_ne (Ne.symm mine) none c.mTimer).trans before
  | advance | poll => exact (after before).elim
  | round now busy =>
      obtain ⟨top, -, -, same⟩ | ⟨-, same⟩ := expireRound_cases now c
      · rw [same] at after ⊢
        exact .inr ⟨rfl, called rfl rfl after⟩
      · refine (after ?_).elim
        rwa [same, Current, (updateSoonestTime_clients none _).1]
  | push other queue =>
      exact (after (by rwa [Current, (pushProc_clients other _).1])).elim
  | remove other queue =>
      exact (after (by rwa [Current, (removeProc_clients other _).1])).elim
  | expire queue =>
      obtain ⟨top, -, same⟩ | ⟨-, same⟩ := expireProc_cases { c with queue }
      · rw [same] at after ⊢
        exact .inr ⟨rfl, called rfl rfl after⟩
      · exact (after (by rwa [same])).elim

variable {e : Execution LocTimerContainer.step} {n : Nat}

theorem eventually_held (msgTask : e.Fair party .msgTask) (sane : Sane (e.state n))
    (current : (e.state n).Current timer) : ∃ m, n ≤ m ∧ Held timer (e.state m) := by
  have known := sane.tracked.known timer.mClient timer current
  obtain pushed | heaped := sane.tracked.placed timer current
  · obtain ⟨m, l, later, moved, mine, idle, first⟩ :=
      serviced.eventually_taken msgTask sane pushed
    have reached : Sane (e.state m) ∧ timer.address < (e.state m).created :=
      e.invariant (I := fun c => Sane c ∧ timer.address < c.created)
        (fun _ _ _ inv taken => ⟨inv.1.step taken,
          Nat.lt_of_lt_of_le inv.2 (created_le_of_step taken)⟩) ⟨sane, known⟩ later
    have taken := e.taken moved
    refine ⟨m + 1, Nat.le_succ_of_le later,
      Nat.lt_of_lt_of_le reached.2 (created_le_of_step taken), fun _ => ?_⟩
    generalize e.state (m + 1) = t at taken
    cases takes_of_step taken with
    | start | stop | advance | poll => cases mine
    | round now busy => exact (idle (by simp [desk, busy])).elim
    | push other queue _ waiting =>
        obtain rfl : other = timer := by simpa [desk, waiting] using first
        have listed : (e.state m |>.heap.push other).elements =
            other ::ₘ (e.state m).heap.elements :=
          (LocHeap.run_serves reached.1.running.check (.push other)).2.2
        rw [(pushProc_fields other _).1]
        exact listed ▸ Multiset.mem_cons_self _ _
    | remove other queue _ waiting | expire queue _ waiting => simp [desk, waiting] at first
  · exact ⟨n, Nat.le_refl n, known, fun _ => heaped⟩

/-- The state of a delegate whose time has come. -/
structure Late (timer : LocTimerDelegate) (c : LocTimerContainer) : Prop where
  sane : Sane c
  held : Held timer c
  late : timer.mFutureTime.tv_sec < c.now.tv_sec

theorem Late.step (h : Late timer c) (taken : c.step l = some t) : Late timer t :=
  ⟨h.sane.step taken, h.held.step h.sane taken,
    Int.lt_of_lt_of_le h.late (now_le_of_step taken)⟩

theorem Late.later (h : Late timer (e.state n)) {m : Nat} (later : n ≤ m) :
    Late timer (e.state m) :=
  e.invariant (fun _ _ _ h taken => h.step taken) h later

theorem eventually_late (time : ∀ sec, ∃ m, sec < (e.state m).now.tv_sec)
    (sane : Sane (e.state n)) (held : Held timer (e.state n)) :
    ∃ m, n ≤ m ∧ Late timer (e.state m) := by
  obtain ⟨k, past⟩ := time timer.mFutureTime.tv_sec
  have passed : timer.mFutureTime.tv_sec < (e.state (max n k)).now.tv_sec :=
    e.invariant (I := fun c => timer.mFutureTime.tv_sec < c.now.tv_sec)
      (fun _ _ _ late taken => Int.lt_of_lt_of_le late (now_le_of_step taken)) past
      (Nat.le_max_right n k)
  have reached : Sane (e.state (max n k)) ∧ Held timer (e.state (max n k)) :=
    e.invariant (I := fun c => Sane c ∧ Held timer c)
      (fun _ _ _ inv taken => ⟨inv.1.step taken, inv.2.step inv.1 taken⟩) ⟨sane, held⟩
      (Nat.le_max_left n k)
  exact ⟨max n k, Nat.le_max_left n k, reached.1, reached.2, passed⟩

/-- A MsgTimerExpire is on its way, or will be when the message task has come to rest. -/
theorem Late.eventually_sent (h : Late timer (e.state n)) (msgTask : e.Fair party .msgTask)
    (pollTask : e.Fair party .pollTask) :
    ∃ m, n ≤ m ∧ (.expire ∈ (e.state m).queue ∨ ¬ (e.state m).Current timer) := by
  obtain ⟨k, later, idle⟩ := serviced.eventually_idle msgTask h.sane
  suffices sent : ∃ m, k ≤ m ∧ (.expire ∈ (e.state m).queue ∨ ¬ (e.state m).Current timer) by
    obtain ⟨m, later', sent⟩ := sent
    exact ⟨m, Nat.le_trans later later', sent⟩
  refine Execution.eventually_of_rank
    (I := fun c => Late timer c ∧ (c.timerOfNow = none ∨ .expire ∈ c.queue))
    (P := fun c => .expire ∈ c.queue ∨ ¬ c.Current timer) (fun _ => 0) (fun _ => Party.pollTask)
    ?_ ?_ ?_ e (fun _ => pollTask) ⟨h.later later, .inl (not_not.mp idle)⟩
  · intro c l t ⟨late, rest⟩ unsent taken
    refine ⟨late.step taken, ?_⟩
    have idle := rest.resolve_right fun mem => unsent (.inl mem)
    cases takes_of_step taken with
    | start client timeOutInMs =>
        obtain same | ⟨new, -, same⟩ := start_cases client timeOutInMs c <;>
          exact .inl (by rw [same, idle])
    | stop client =>
        obtain same | ⟨other, same⟩ := stop_cases client c <;> exact .inl (by rw [same, idle])
    | advance => exact .inl idle
    | poll => exact .inr (List.mem_append_right _ (List.mem_singleton_self _))
    | round now busy => cases idle.symm.trans busy
    | push other queue => exact .inl ((updateSoonestTime_rest _ _).2.1.trans idle)
    | remove other queue =>
        exact .inl ((removeProc_rest (by exact late.sane.running.check) other).2.trans idle)
    | expire queue _ waiting =>
        exact (unsent (.inl (waiting ▸ List.mem_cons_self))).elim
  · intro c ⟨late, rest⟩ unsent
    obtain ⟨absent, current⟩ := not_or.mp unsent
    exact poll_moves late.sane (rest.resolve_right absent)
      (late.held.heaped (not_not.mp current)) late.late absent
  · intro c l t _ _ taken
    by_cases mine : party l = .pollTask
    · refine .inl (.inl ?_)
      cases takes_of_step taken with
      | poll => exact List.mem_append_right _ (List.mem_singleton_self _)
      | start | stop | advance | round | push | remove | expire => cases mine
    · exact .inr (.inr ⟨rfl, rfl, mine⟩)

/-- A MsgTimerExpire that is taken up when the delegate is late pops it. -/
theorem Late.eventually_popped (h : Late timer (e.state n)) (msgTask : e.Fair party .msgTask)
    (sent : .expire ∈ (e.state n).queue) : ∃ m, n ≤ m ∧ ¬ (e.state m).Current timer := by
  obtain ⟨k, l, later, moved, mine, idle, first⟩ :=
    serviced.eventually_taken msgTask h.sane sent
  by_cases current : (e.state k).Current timer
  · have taken := e.taken moved
    have late := h.later later
    have draining : Draining timer (e.state (k + 1)) := by
      refine ⟨late.held.step late.sane taken, fun _ => ?_⟩
      generalize e.state (k + 1) = t at taken
      cases takes_of_step taken with
      | start | stop | advance | poll => cases mine
      | round now busy => exact (idle (by simp [desk, busy])).elim
      | push other queue _ waiting | remove other queue _ waiting => simp [desk, waiting] at first
      | expire queue =>
          obtain ⟨top, -, same⟩ | ⟨empty, -⟩ := expireProc_cases { e.state k with queue }
          · exact ⟨(e.state k).now, same ▸ expireDelegate_busy rfl top _, Int.le_of_lt late.late⟩
          · have mem := late.held.heaped current
            rw [show (e.state k).heap.elements = 0 from LocHeap.peek_eq_none.mp empty] at mem
            exact (Multiset.notMem_zero _ mem).elim
    obtain ⟨m, later', still⟩ :=
      serviced.eventually_idle msgTask (late.later (Nat.le_succ k)).sane
    have drained : Sane (e.state m) ∧ Draining timer (e.state m) :=
      e.invariant (I := fun c => Sane c ∧ Draining timer c)
        (fun _ _ _ inv taken => ⟨inv.1.step taken, inv.2.step inv.1 taken⟩)
        ⟨(late.later (Nat.le_succ k)).sane, draining⟩ later'
    refine ⟨m, by omega, fun current => ?_⟩
    obtain ⟨now, reading, -⟩ := drained.2.reading current
    exact still (by simp [desk, reading])
  · exact ⟨k, later, current⟩

theorem eventually_ended (msgTask : e.Fair party .msgTask) (pollTask : e.Fair party .pollTask)
    (time : ∀ sec, ∃ m, sec < (e.state m).now.tv_sec) (sane : Sane (e.state n))
    (current : (e.state n).Current timer) : ∃ m, n ≤ m ∧ ¬ (e.state m).Current timer := by
  obtain ⟨k, pushed, held⟩ := eventually_held msgTask sane current
  have reached : Sane (e.state k) := e.invariant (fun _ _ _ h taken => h.step taken) sane pushed
  obtain ⟨j, past, late⟩ := eventually_late time reached held
  obtain ⟨i, polled, sent | ended⟩ := late.eventually_sent msgTask pollTask
  · obtain ⟨m, popped, ended⟩ := (late.later polled).eventually_popped msgTask sent
    exact ⟨m, by omega, ended⟩
  · exact ⟨i, by omega, ended⟩

end Progress

/-- A started timer is stopped by its client or calls it back, in every execution in which time
goes on and neither task is left out for good. -/
theorem started_timer_times_out {e : Execution LocTimerContainer.step} {now : Timespec}
    (booted : 0 < now.tv_sec) (initial : e.state 0 = new now)
    (msgTask : e.Fair party .msgTask) (pollTask : e.Fair party .pollTask)
    (time : ∀ sec, ∃ m, sec < (e.state m).now.tv_sec) {n client : Nat} {timer : LocTimerDelegate}
    (ticks : (e.state n).mTimer client = some timer) :
    ∃ m, n ≤ m ∧ (e.state m).mTimer client = some timer ∧
      (e.state (m + 1)).mTimer client ≠ some timer ∧
      (e.label m = some (.stop client) ∨
        e.label m = some .proc ∧
          (e.state (m + 1)).timedOut = (e.state m).timedOut ++ [client]) := by
  have sane (m : Nat) : Sane (e.state m) :=
    e.invariant (fun _ _ _ h taken => h.step taken) (initial ▸ .new now booted) (Nat.zero_le m)
  obtain rfl := (sane n).tracked.owner client timer ticks
  obtain ⟨k, later, ended⟩ := eventually_ended msgTask pollTask time (sane n) ticks
  obtain ⟨m, after, before, stopped⟩ : ∃ m, n ≤ m ∧ (e.state m).Current timer ∧
      ¬ (e.state (m + 1)).Current timer := by
    by_contra never
    refine ended ?_
    clear ended
    induction later with
    | refl => exact ticks
    | @step m later ih =>
        by_contra stopped
        exact never ⟨m, later, ih, stopped⟩
  refine ⟨m, after, before, stopped, ?_⟩
  cases moved : e.label m with
  | none => exact (stopped (e.idle moved ▸ before)).elim
  | some l =>
      obtain rfl | ⟨rfl, called⟩ := ended_of_step (e.taken moved) before stopped
      · exact .inl rfl
      · exact .inr ⟨rfl, called⟩

/-- After the run of a timer to its end only the clock goes on. -/
def runDown : List Label := [.proc, .advance ⟨6, 0⟩, .poll, .proc, .proc, .proc]

theorem single_timer_times_out : ∃ e : Execution LocTimerContainer.step,
    e.state 0 = new ⟨5, 0⟩ ∧ ∃ m timer, (e.state m).mTimer 0 = some timer ∧
      (e.state (m + 1)).mTimer 0 ≠ some timer ∧ (e.label m = some (.stop 0) ∨
        e.label m = some .proc ∧
          (e.state (m + 1)).timedOut = (e.state m).timedOut ++ [0]) := by
  obtain ⟨started, start, ticks⟩ : ∃ c, Run step (new ⟨5, 0⟩) [.start 0 1000] c ∧
      c.mTimer 0 = some ⟨0, 0, ⟨6, 0⟩⟩ := ⟨_, .cons rfl (.nil _), rfl⟩
  obtain ⟨done, run, empty, idle, unpolled, now⟩ : ∃ c, Run step started runDown c ∧
      c.queue = [] ∧ c.timerOfNow = none ∧ c.polled = false ∧ c.now = ⟨6, 0⟩ := by
    cases start with
    | cons first rest =>
        cases first
        cases rest
        exact ⟨_, run_iff_foldlM.mpr rfl, rfl, rfl, rfl, rfl⟩
  let clock : Execution step :=
    { state := fun n => { done with now := ⟨6 + n, 0⟩ }
      label := fun n => some (.advance ⟨6 + (n + 1 : Nat), 0⟩)
      next := fun n => if_pos (.inl (by dsimp only; omega)) }
  have begins : clock.state 0 = done := by
    cases done
    cases now
    rfl
  have msgTask : clock.Fair party .msgTask := Execution.fair_of_stuck fun n => by
    rintro ⟨l, mine, moved⟩
    cases l with
    | proc => simp [clock, step, idle, empty] at moved
    | start | stop | advance | poll => cases mine
  have pollTask : clock.Fair party .pollTask := Execution.fair_of_stuck fun n => by
    rintro ⟨l, mine, moved⟩
    cases l with
    | poll => simp [clock, step, unpolled] at moved
    | start | stop | advance | proc => cases mine
  obtain ⟨late, first, states, labels, -⟩ := run.prepend clock begins
  obtain ⟨e, initial, states', labels', -⟩ := start.prepend late first
  have fair {p : Party} (tail : clock.Fair party p) : e.Fair party p :=
    Execution.fair_of_suffix states' labels' (Execution.fair_of_suffix states labels tail)
  have time (sec : Int) : ∃ m, sec < (e.state m).now.tv_sec := by
    refine ⟨[Label.start 0 1000].length + (runDown.length + sec.toNat), ?_⟩
    rw [states', states]
    dsimp only [clock]
    omega
  have current : (e.state ([Label.start 0 1000].length + 0)).mTimer 0 =
      some ⟨0, 0, ⟨6, 0⟩⟩ := by
    rw [states', first]
    exact ticks
  obtain ⟨m, -, result⟩ := started_timer_times_out (by decide) initial (fair msgTask)
    (fair pollTask) time current
  exact ⟨e, initial, m, _, result⟩

end LocTimerContainer
end Msm8974.Timer
