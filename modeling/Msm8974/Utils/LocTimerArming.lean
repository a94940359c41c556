import Msm8974.Library.Monitors
import Msm8974.Utils.LocTimerExpiry

/-!
Whether the timerfd is armed for the top of the heap. updateSoonestTime keeps it so, with one
exception: called with NULL it takes an empty heap for an unchanged one, so the branch that
disarms the timerfd is never reached. Only the poll task disarms it, when it is ready, and a message
that is processed before the MsgTimerExpire of that may arm it again.
-/

namespace Msm8974.Timer
open Msm8974.Runs Msm8974.PriorityQueue

namespace LocTimerContainer

/-- A MsgTimerExpire is queued or being processed. -/
def ExpirePending (c : LocTimerContainer) : Prop := c.timerOfNow ≠ none ∨ .expire ∈ c.queue

/-- The timerfd is armed for the top of the heap and polled, or neither if there is no top. -/
structure ArmedForTop (c : LocTimerContainer) : Prop where
  armed : c.armed = c.getSoonestTimer.map (·.mFutureTime)
  polled : c.polled = c.getSoonestTimer.isSome

def KernelAgrees (c : LocTimerContainer) : Prop := ¬ c.ExpirePending → c.ArmedForTop

structure Disarmed (c : LocTimerContainer) : Prop where
  armed : c.armed = none
  polled : c.polled = false

/-- The message arms the timerfd: a push that outranks the timers there, the removal of a top with
others behind it, and the end of a MsgTimerExpire that leaves a timer for later. -/
def msgArms (c : LocTimerContainer) : Option Timespec → List TimerMsg → Bool
  | some t, _ => c.getSoonestTimer.any fun top => t.tv_sec < top.mFutureTime.tv_sec
  | none, .push timer :: _ => c.getSoonestTimer.all (outRanks timer ·)
  | none, .remove timer :: _ => c.getSoonestTimer = some timer ∧ c.heap.elements ≠ {timer}
  | none, .expire :: _ | none, [] => false

/-- Whether a message has armed the timerfd since the poll task last called expire(). -/
def noteArming (c : LocTimerContainer) (l : Label) (_ : LocTimerContainer) (rearmed : Bool) : Bool :=
  match l with
  | .poll => false
  | .proc => rearmed || c.msgArms c.timerOfNow c.queue
  | .start _ _ | .stop _ | .advance _ => rearmed

/-- With no MsgTimerExpire behind it, a MsgTimerRemove does not take the only timer out of the
heap, and where a MsgTimerExpire leaves the heap empty nothing has armed the timerfd since. -/
def MsgDisarms (c : LocTimerContainer) (rearmed : Bool) : Option Timespec → List TimerMsg → Prop
  | some _, queue | none, .expire :: queue =>
      .expire ∉ queue → c.getSoonestTimer = none → rearmed = false
  | none, .remove timer :: queue => .expire ∉ queue → c.heap.elements ≠ {timer}
  | none, .push _ :: _ | none, [] => True

def DisarmsWhenEmpty (p : LocTimerContainer × Bool) : Label → Prop
  | .proc => p.1.MsgDisarms p.2 p.1.timerOfNow p.1.queue
  | _ => True

/-- Every deadline is later than the zero that disarms a timerfd. -/
structure Running (c : LocTimerContainer) : Prop where
  check : c.heap.checkTree = true
  now : 0 < c.now.tv_sec
  heap : ∀ timer ∈ c.heap.elements, 0 < timer.mFutureTime.tv_sec
  queue : ∀ timer, .push timer ∈ c.queue → 0 < timer.mFutureTime.tv_sec

theorem settime_armed (c : LocTimerContainer) {value : Timespec} (later : 0 < value.tv_sec) :
    (c.settime value).armed = some value := by
  have other : value ≠ ⟨0, 0⟩ := fun same => by
    rw [same] at later
    exact absurd later (by decide)
  simp [settime, other]

theorem updateSoonestTime_rest (priorTop : Option LocTimerDelegate) (c : LocTimerContainer) :
    (c.updateSoonestTime priorTop).queue = c.queue ∧
      (c.updateSoonestTime priorTop).timerOfNow = c.timerOfNow ∧
      (c.updateSoonestTime priorTop).now = c.now := by
  simp only [updateSoonestTime]
  split
  · exact ⟨rfl, rfl, rfl⟩
  · split
    · exact ⟨rfl, rfl, rfl⟩
    · split <;> exact ⟨rfl, rfl, rfl⟩

theorem updateSoonestTime_same {c : LocTimerContainer} {priorTop : Option LocTimerDelegate}
    (same : c.getSoonestTimer = priorTop) : c.updateSoonestTime priorTop = c := if_pos same

theorem updateSoonestTime_of_higher {c : LocTimerContainer} {cur : LocTimerDelegate}
    {priorTop : Option LocTimerDelegate} (top : c.getSoonestTimer = some cur)
    (higher : ∀ prior ∈ priorTop, outRanks cur prior = true) (later : 0 < cur.mFutureTime.tv_sec) :
    (c.updateSoonestTime priorTop).ArmedForTop := by
  have changed : some cur ≠ priorTop := fun same => by
    have self := higher cur (same ▸ rfl)
    rw [outRanks_irrefl] at self
    cases self
  have arms : c.updateSoonestTime priorTop = c.addPoll.settime cur.mFutureTime := by
    have all : priorTop.all (outRanks cur ·) = true := by
      cases priorTop with
      | none => rfl
      | some prior => exact higher prior rfl
    simp [updateSoonestTime, top, changed, all]
  have same : (c.addPoll.settime cur.mFutureTime).getSoonestTimer = some cur := top
  rw [arms]
  exact ⟨by rw [settime_armed _ later, same]; rfl, by rw [same]; rfl⟩

/-- Called with NULL, updateSoonestTime arms the timerfd for a top and leaves it alone if there
is none. -/
theorem updateSoonestTime_none_iff {c : LocTimerContainer}
    (later : ∀ cur ∈ c.getSoonestTimer, 0 < cur.mFutureTime.tv_sec) :
    (c.updateSoonestTime none).ArmedForTop ↔ (c.getSoonestTimer = none → c.Disarmed) := by
  cases top : c.getSoonestTimer with
  | none =>
      rw [updateSoonestTime_same top]
      refine ⟨fun agrees _ => ⟨?_, ?_⟩, fun disarmed => ⟨?_, ?_⟩⟩
      · rw [agrees.armed, top]; rfl
      · rw [agrees.polled, top]; rfl
      · rw [(disarmed rfl).armed, top]; rfl
      · rw [(disarmed rfl).polled, top]; rfl
  | some cur =>
      have armed : (c.updateSoonestTime none).ArmedForTop :=
        updateSoonestTime_of_higher top (fun prior mem => by cases mem) (later cur top)
      exact iff_of_true armed fun empty => by cases empty

/-- A pushed timer that outranks the top is armed for; any other push leaves the top alone. -/
theorem pushProc_cases (c : LocTimerContainer) {timer : LocTimerDelegate}
    (later : 0 < timer.mFutureTime.tv_sec) :
    ((∀ prior, c.getSoonestTimer = some prior → outRanks timer prior = true) ∧
      (c.pushProc timer).getSoonestTimer = some timer ∧ (c.pushProc timer).ArmedForTop) ∨
    ∃ prior, c.getSoonestTimer = some prior ∧ outRanks timer prior = false ∧
      c.pushProc timer = { c with heap := c.heap.push timer } ∧
      (c.pushProc timer).getSoonestTimer = some prior := by
  have pushed : ({ c with heap := c.heap.push timer } : LocTimerContainer).getSoonestTimer =
      some (c.heap.peek.elim timer fun top => if outRanks timer top then timer else top) :=
    LocHeap.push_peek timer c.heap
  have kept : (c.pushProc timer).getSoonestTimer =
      ({ c with heap := c.heap.push timer } : LocTimerContainer).getSoonestTimer := by
    rw [getSoonestTimer, (pushProc_fields timer c).1, getSoonestTimer]
  cases top : c.heap.peek with
  | none =>
      rw [top] at pushed
      refine .inl ⟨fun prior mem => ?_, kept.trans pushed, ?_⟩
      · cases top.symm.trans mem
      · refine updateSoonestTime_of_higher pushed (fun prior mem => ?_) later
        cases top.symm.trans mem
  | some prior =>
      rw [top] at pushed
      have only : ∀ other, c.getSoonestTimer = some other → prior = other :=
        fun other mem => Option.some.inj (top.symm.trans mem)
      cases higher : outRanks timer prior with
      | true =>
          simp only [Option.elim, higher, if_true] at pushed
          refine .inl ⟨fun other mem => only other mem ▸ higher, kept.trans pushed, ?_⟩
          exact updateSoonestTime_of_higher pushed (fun other mem => only other mem ▸ higher) later
      | false =>
          simp only [Option.elim, higher, Bool.false_eq_true, if_false] at pushed
          refine .inr ⟨prior, top, higher, ?_, kept.trans pushed⟩
          exact updateSoonestTime_same (pushed.trans top.symm)

theorem pushProc_armedForTop {c : LocTimerContainer} (agrees : c.ArmedForTop)
    {timer : LocTimerDelegate} (later : 0 < timer.mFutureTime.tv_sec) :
    (c.pushProc timer).ArmedForTop := by
  obtain ⟨-, -, armed⟩ | ⟨prior, top, -, same, kept⟩ := pushProc_cases c later
  · exact armed
  · refine ⟨?_, ?_⟩
    · rw [kept, ← top, same]
      exact agrees.armed
    · rw [kept, ← top, same]
      exact agrees.polled

/-- A removed top leaves the heap that a pop leaves; any other removal leaves the top. -/
theorem removeProc_cases {c : LocTimerContainer} (check : c.heap.checkTree = true)
    (timer : LocTimerDelegate) :
    (c.getSoonestTimer = some timer ∧
      c.removeProc timer =
        ({ c with heap := c.heap.pop.2 } : LocTimerContainer).updateSoonestTime none) ∨
    (c.getSoonestTimer ≠ some timer ∧
      c.removeProc timer = { c with heap := (c.heap.remove timer).2 } ∧
      (c.removeProc timer).getSoonestTimer = c.getSoonestTimer) := by
  by_cases top : c.getSoonestTimer = some timer
  · refine .inl ⟨top, ?_⟩
    have popped : c.heap.remove timer = c.heap.pop := LocHeap.remove_top top
    have handed : c.getSoonestTimer = c.heap.pop.1 := (LocHeap.pop_peek c.heap).symm
    simp [removeProc, popped, handed]
  · refine .inr ⟨top, ?_⟩
    have kept : (c.heap.remove timer).2.peek = c.heap.peek := LocHeap.remove_peek top
    have same : c.removeProc timer = { c with heap := (c.heap.remove timer).2 } := by
      simp only [removeProc]
      split
      next handed =>
        -- Nothing was removed, so that NULL was compared with NULL.
        refine updateSoonestTime_same (kept.trans ?_)
        cases found : (c.heap.remove timer).1 with
        | none => exact handed.trans found
        | some removed =>
            have serves := (LocHeap.run_serves check (.remove timer)).2
            rw [LocHeap.run, found] at serves
            exact absurd (handed.trans (found.trans (congrArg some serves.1))) top
      · rfl
    exact ⟨same, same ▸ kept⟩

theorem elements_of_top {c : LocTimerContainer} (check : c.heap.checkTree = true)
    {timer : LocTimerDelegate} (top : c.getSoonestTimer = some timer) :
    c.heap.elements = timer ::ₘ c.heap.pop.2.elements := by
  have serves := (LocHeap.run_serves check .pop).2
  rw [LocHeap.run, (LocHeap.pop_peek c.heap).trans top] at serves
  exact serves.2

theorem popped_eq_none_iff {c : LocTimerContainer} (check : c.heap.checkTree = true)
    {timer : LocTimerDelegate} (top : c.getSoonestTimer = some timer) :
    c.heap.pop.2.peek = none ↔ c.heap.elements = {timer} := by
  rw [LocHeap.peek_eq_none, elements_of_top check top, ← Multiset.cons_zero,
    Multiset.cons_inj_right]

theorem removeProc_armedForTop_iff {c : LocTimerContainer} (running : Running c)
    (agrees : c.ArmedForTop) (timer : LocTimerDelegate) :
    (c.removeProc timer).ArmedForTop ↔ c.heap.elements ≠ {timer} := by
  obtain ⟨top, removed⟩ | ⟨other, removed, kept⟩ := removeProc_cases running.check timer
  · have rest := elements_of_top running.check top
    have armed : ¬ c.Disarmed := fun disarmed => by
      have same := agrees.armed
      rw [top, disarmed.armed] at same
      cases same
    have later : ∀ cur ∈ ({ c with heap := c.heap.pop.2 } : LocTimerContainer).getSoonestTimer,
        0 < cur.mFutureTime.tv_sec := fun cur mem => by
      refine running.heap cur (rest ▸ Multiset.mem_cons_of_mem ?_)
      exact LocHeapNode.mem_elements_of_data? mem
    rw [removed, updateSoonestTime_none_iff later]
    refine (forall_congr' fun _ => ?_).trans (not_congr (popped_eq_none_iff running.check top))
    exact ⟨fun disarmed => armed ⟨disarmed.armed, disarmed.polled⟩, False.elim⟩
  · refine iff_of_true ⟨?_, ?_⟩ fun only => ?_
    · rw [kept, removed]
      exact agrees.armed
    · rw [kept, removed]
      exact agrees.polled
    · cases top : c.getSoonestTimer with
      | none =>
          have empty := LocHeap.peek_eq_none.mp top
          rw [empty] at only
          exact Multiset.zero_ne_cons only
      | some cur =>
          have mem : cur ∈ c.heap.elements := LocHeapNode.mem_elements_of_data? top
          rw [only] at mem
          exact other (Multiset.mem_singleton.mp mem ▸ top)

/-- expire() stops a delegate that its client still points to, and then calls the client back. -/
theorem expireDelegate_cases (timer : LocTimerDelegate) (t : Timespec) (c : LocTimerContainer) :
    (c.mTimer timer.mClient = some timer ∧ c.expireDelegate timer t =
      { c with
        mTimer := Function.update c.mTimer timer.mClient none
        queue := c.queue ++ [.remove timer]
        expired := c.expired ++ [(timer, t)]
        timedOut := c.timedOut ++ [timer.mClient] }) ∨
    (c.mTimer timer.mClient ≠ some timer ∧
      c.expireDelegate timer t = { c with expired := c.expired ++ [(timer, t)] }) := by
  by_cases current : c.mTimer timer.mClient = some timer
  · exact .inl ⟨current, by simp [expireDelegate, stop, sendMsg, current]⟩
  · exact .inr ⟨current, if_neg current⟩

theorem stop_cases (client : Nat) (c : LocTimerContainer) :
    (c.stop client).2 = c ∨ ∃ timer, (c.stop client).2 =
      { c with
        mTimer := Function.update c.mTimer client none
        queue := c.queue ++ [.remove timer] } := by
  unfold stop
  split
  · exact .inl rfl
  · exact .inr ⟨_, rfl⟩

theorem start_cases (client : Nat) (timeOutInMs : BitVec 32) (c : LocTimerContainer) :
    c.start client timeOutInMs = c ∨
      ∃ timer : LocTimerDelegate, timer.mFutureTime = c.now.after timeOutInMs ∧
        c.start client timeOutInMs =
          { c with
            mTimer := Function.update c.mTimer client (some timer)
            created := c.created + 1
            queue := c.queue ++ [.push timer] } := by
  unfold start
  split
  · exact .inl rfl
  · exact .inr ⟨_, rfl, rfl⟩

theorem after_later {now : Timespec} (later : 0 < now.tv_sec) (timeOutInMs : BitVec 32) :
    0 < (now.after timeOutInMs).tv_sec := by
  simp only [Timespec.after]
  split
  next carry =>
    have more := Int.ediv_nonneg (a := now.tv_nsec + timeOutInMs.toNat % 1000 * 1000000)
      (b := 1000000000) (by omega) (by decide)
    dsimp only
    omega
  · dsimp only
    omega

theorem expireProc_cases (c : LocTimerContainer) :
    (∃ timer, c.getSoonestTimer = some timer ∧ c.expireProc =
      ({ c with heap := c.heap.pop.2, timerOfNow := some c.now } :
        LocTimerContainer).expireDelegate timer c.now) ∨
    (c.getSoonestTimer = none ∧ c.expireProc = c) := by
  have peeked : c.heap.pop.1 = c.getSoonestTimer := LocHeap.pop_peek c.heap
  cases top : c.getSoonestTimer with
  | some timer =>
      rw [top] at peeked
      exact .inl ⟨timer, rfl, by simp [expireProc, peeked]⟩
  | none =>
      have empty : c.heap.pop = (none, c.heap) := LocHeap.pop_of_empty top
      refine .inr ⟨rfl, ?_⟩
      simp only [expireProc, empty]
      exact updateSoonestTime_same top

namespace Running
variable {c : LocTimerContainer}

theorem top (running : Running c) : ∀ cur ∈ c.getSoonestTimer, 0 < cur.mFutureTime.tv_sec :=
  fun cur mem => running.heap cur (LocHeapNode.mem_elements_of_data? mem)

/-- Only MsgTimerPush puts anything into the heap. -/
theorem of_fields {c' : LocTimerContainer} (running : Running c)
    (check : c'.heap.checkTree = true) (now : c.now.tv_sec ≤ c'.now.tv_sec)
    (heap : ∀ timer ∈ c'.heap.elements, 0 < timer.mFutureTime.tv_sec)
    (queue : ∀ timer, .push timer ∈ c'.queue →
      .push timer ∈ c.queue ∨ 0 < timer.mFutureTime.tv_sec) : Running c' where
  check := check
  now := Int.lt_of_lt_of_le running.now now
  heap := heap
  queue timer mem := (queue timer mem).elim (running.queue timer) id

theorem updateSoonestTime (running : Running c) (priorTop : Option LocTimerDelegate) :
    Running (c.updateSoonestTime priorTop) := by
  obtain ⟨heap, -⟩ := updateSoonestTime_fields priorTop c
  obtain ⟨queue, -, now⟩ := updateSoonestTime_rest priorTop c
  refine running.of_fields (heap ▸ running.check) (Int.le_of_eq (by rw [now]))
    (heap ▸ running.heap) fun timer mem => ?_
  rw [queue] at mem
  exact .inl mem

theorem expireDelegate (running : Running c) (timer : LocTimerDelegate) (t : Timespec) :
    Running (c.expireDelegate timer t) := by
  obtain ⟨-, same⟩ | ⟨-, same⟩ := expireDelegate_cases timer t c
  · rw [same]
    refine running.of_fields running.check (Int.le_refl _) running.heap fun other mem => .inl ?_
    exact (List.mem_append.mp mem).resolve_right fun new => by cases List.mem_singleton.mp new
  · rw [same]
    exact running.of_fields running.check (Int.le_refl _) running.heap fun _ => .inl

theorem serve (running : Running c) (op : Op LocTimerDelegate)
    (later : ∀ timer ∈ op.pushed, 0 < timer.mFutureTime.tv_sec) :
    Running { c with heap := (c.heap.run op).2 } := by
  obtain ⟨check, serves⟩ := LocHeap.run_serves running.check op
  refine running.of_fields check (Int.le_refl _) (fun timer mem => ?_) fun _ => .inl
  have listed : timer ∈ op.pushed + c.heap.elements :=
    serves.conserves ▸ Multiset.mem_add.mpr (.inr mem)
  obtain new | old := Multiset.mem_add.mp listed
  · exact later timer new
  · exact running.heap timer old

theorem pop (running : Running c) : Running { c with heap := c.heap.pop.2 } :=
  running.serve .pop fun timer mem => absurd mem (Multiset.notMem_zero timer)

theorem idle (running : Running c) (t : Option Timespec) : Running { c with timerOfNow := t } :=
  running.of_fields running.check (Int.le_refl _) running.heap fun _ => .inl

theorem behind {msg : TimerMsg} {queue : List TimerMsg} (running : Running c)
    (waiting : c.queue = msg :: queue) : Running { c with queue := queue } :=
  running.of_fields running.check (Int.le_refl _) running.heap fun _ mem =>
    .inl (waiting ▸ List.mem_cons_of_mem msg mem)

theorem step {c' : LocTimerContainer} {l : Label} (running : Running c)
    (taken : c.step l = some c') : Running c' := by
  have check := step_checkTree running.check taken
  cases takes_of_step taken with
  | start client timeOutInMs =>
      obtain same | ⟨timer, deadline, same⟩ := start_cases client timeOutInMs c
      · rwa [same]
      · rw [same] at check ⊢
        refine running.of_fields check (Int.le_refl _) running.heap fun other mem => ?_
        obtain old | new := List.mem_append.mp mem
        · exact .inl old
        · obtain rfl := TimerMsg.push.inj (List.mem_singleton.mp new)
          exact .inr (deadline ▸ after_later running.now timeOutInMs)
  | stop client =>
      obtain same | ⟨timer, same⟩ := stop_cases client c
      · rwa [same]
      · rw [same] at check ⊢
        refine running.of_fields check (Int.le_refl _) running.heap fun other mem => .inl ?_
        simpa using mem
  | advance now later =>
      refine running.of_fields check ?_ running.heap fun _ => .inl
      obtain less | ⟨same, -⟩ := later
      · exact Int.le_of_lt less
      · exact Int.le_of_eq same
  | poll polled due =>
      refine running.of_fields check (Int.le_refl _) running.heap fun timer mem => .inl ?_
      exact (List.mem_append.mp mem).resolve_right fun new => by cases List.mem_singleton.mp new
  | round t busy =>
      obtain ⟨timer, -, -, same⟩ | ⟨-, same⟩ := expireRound_cases t c
      · exact same ▸ running.pop.expireDelegate timer t
      · exact same ▸ (running.idle none).updateSoonestTime none
  | push timer queue idle waiting =>
      have later := running.queue timer (waiting ▸ List.mem_cons_self)
      refine Running.updateSoonestTime (c := { c with queue, heap := c.heap.push timer })
        ((running.behind waiting).serve (.push timer) fun other mem => ?_) _
      rwa [Multiset.mem_singleton.mp mem]
  | remove timer queue idle waiting =>
      have rest := running.behind waiting
      obtain ⟨-, same⟩ | ⟨-, same, -⟩ := removeProc_cases rest.check timer
      · exact same ▸ rest.pop.updateSoonestTime none
      · exact same ▸ rest.serve (.remove timer) fun other mem =>
          absurd mem (Multiset.notMem_zero other)
  | expire queue idle waiting =>
      have rest := running.behind waiting
      obtain ⟨timer, -, same⟩ | ⟨-, same⟩ := expireProc_cases { c with queue }
      · exact same ▸ (rest.pop.idle (some c.now)).expireDelegate timer c.now
      · rwa [same]

end Running

theorem agrees_of_same {c c' : LocTimerContainer} (agrees : c.KernelAgrees)
    (armed : c'.armed = c.armed) (polled : c'.polled = c.polled) (heap : c'.heap = c.heap)
    (pending : c.ExpirePending → c'.ExpirePending) : c'.KernelAgrees := by
  intro none_pending
  have before := agrees (mt pending none_pending)
  have top : c'.getSoonestTimer = c.getSoonestTimer := by rw [getSoonestTimer, heap]; rfl
  exact ⟨by rw [armed, top, before.armed], by rw [polled, top, before.polled]⟩

theorem agrees_of_pending {c : LocTimerContainer} (pending : c.ExpirePending) : c.KernelAgrees :=
  fun none_pending => absurd pending none_pending

theorem expireDelegate_busy {c : LocTimerContainer} {t : Timespec} (busy : c.timerOfNow = some t)
    (timer : LocTimerDelegate) (now : Timespec) :
    (c.expireDelegate timer now).timerOfNow = some t := by
  obtain ⟨-, same⟩ | ⟨-, same⟩ := expireDelegate_cases timer now c
  · rwa [same]
  · rwa [same]

theorem expireDelegate_pending {c : LocTimerContainer} {t : Timespec}
    (running : c.timerOfNow = some t) (timer : LocTimerDelegate) (now : Timespec) :
    (c.expireDelegate timer now).ExpirePending :=
  .inl fun none => by cases (expireDelegate_busy running timer now).symm.trans none

theorem kernelAgrees_iff_of_idle {c : LocTimerContainer} (idle : c.timerOfNow = none) :
    c.KernelAgrees ↔ (.expire ∉ c.queue → c.ArmedForTop) := by
  have pending : c.ExpirePending ↔ .expire ∈ c.queue := or_iff_right (not_not_intro idle)
  rw [KernelAgrees, pending]

/-- The last round of a MsgTimerExpire, at the end of which nothing but the queue is pending. -/
theorem lastRound_kernelAgrees_iff {c : LocTimerContainer} (running : Running c) :
    (({ c with timerOfNow := none } : LocTimerContainer).updateSoonestTime none).KernelAgrees ↔
      (.expire ∉ c.queue → c.getSoonestTimer = none → c.Disarmed) := by
  obtain ⟨queue, idle, -⟩ := updateSoonestTime_rest none { c with timerOfNow := none }
  have armed := updateSoonestTime_none_iff (c := { c with timerOfNow := none }) running.top
  rw [kernelAgrees_iff_of_idle idle, queue]
  refine forall_congr' fun _ => armed.trans (forall_congr' fun _ => ?_)
  exact ⟨fun d => ⟨d.armed, d.polled⟩, fun d => ⟨d.armed, d.polled⟩⟩

/-- What holds behind a message that is taken off holds before it as well. -/
theorem armedForTop_behind {c : LocTimerContainer} {msg : TimerMsg} {queue : List TimerMsg}
    (agrees : c.KernelAgrees) (idle : c.timerOfNow = none) (waiting : c.queue = msg :: queue)
    (other : msg ≠ .expire) (behind : .expire ∉ queue) :
    ({ c with queue } : LocTimerContainer).ArmedForTop := by
  have absent : .expire ∉ c.queue := by
    rw [waiting]
    exact fun mem => (List.mem_cons.mp mem).elim (fun same => other same.symm) behind
  have armed := (kernelAgrees_iff_of_idle idle).mp agrees absent
  exact ⟨armed.armed, armed.polled⟩

theorem removeProc_rest {c : LocTimerContainer} (check : c.heap.checkTree = true)
    (timer : LocTimerDelegate) : (c.removeProc timer).queue = c.queue ∧
      (c.removeProc timer).timerOfNow = c.timerOfNow := by
  obtain ⟨-, same⟩ | ⟨-, same, -⟩ := removeProc_cases check timer
  · rw [same]
    obtain ⟨queue, timerOfNow, -⟩ := updateSoonestTime_rest none { c with heap := c.heap.pop.2 }
    exact ⟨queue, timerOfNow⟩
  · rw [same]
    exact ⟨rfl, rfl⟩

theorem expireProc_kernelAgrees_iff {c : LocTimerContainer} (running : Running c)
    (idle : c.timerOfNow = none) :
    c.expireProc.KernelAgrees ↔ (.expire ∉ c.queue → c.getSoonestTimer = none → c.Disarmed) := by
  obtain ⟨timer, top, same⟩ | ⟨empty, same⟩ := expireProc_cases c
  · rw [same]
    refine iff_of_true (agrees_of_pending (expireDelegate_pending rfl timer _)) ?_
    intro _ none
    cases top.symm.trans none
  · have armed := updateSoonestTime_none_iff running.top
    rw [updateSoonestTime_same empty] at armed
    rw [same, kernelAgrees_iff_of_idle idle]
    exact forall_congr' fun _ => armed

theorem step_kernelAgrees_iff {c c' : LocTimerContainer} {l : Label} {rearmed : Bool}
    (running : Running c) (noted : c.Disarmed ↔ rearmed = false) (agrees : c.KernelAgrees)
    (taken : c.step l = some c') : c'.KernelAgrees ↔ DisarmsWhenEmpty (c, rearmed) l := by
  cases takes_of_step taken with
  | start client timeOutInMs =>
      refine iff_of_true ?_ trivial
      obtain same | ⟨timer, -, same⟩ := start_cases client timeOutInMs c
      · rwa [same]
      · rw [same]
        exact agrees_of_same agrees rfl rfl rfl (Or.imp_right (List.mem_append_left _))
  | stop client =>
      refine iff_of_true ?_ trivial
      obtain same | ⟨timer, same⟩ := stop_cases client c
      · rwa [same]
      · rw [same]
        exact agrees_of_same agrees rfl rfl rfl (Or.imp_right (List.mem_append_left _))
  | advance now later => exact iff_of_true (agrees_of_same agrees rfl rfl rfl id) trivial
  | poll polled due =>
      refine iff_of_true (agrees_of_pending (.inr ?_)) trivial
      exact List.mem_append_right _ (List.mem_singleton_self _)
  | round t busy =>
      have guard : DisarmsWhenEmpty (c, rearmed) .proc ↔
          (.expire ∉ c.queue → c.getSoonestTimer = none → c.Disarmed) := by
        simp only [DisarmsWhenEmpty, MsgDisarms, busy, noted]
      rw [guard]
      obtain ⟨timer, top, -, same⟩ | ⟨-, same⟩ := expireRound_cases t c
      · rw [same]
        refine iff_of_true (agrees_of_pending (expireDelegate_pending (by exact busy) timer t)) ?_
        intro _ none
        cases top.symm.trans none
      · rw [same]
        exact lastRound_kernelAgrees_iff running
  | push timer queue idle waiting =>
      have later := running.queue timer (waiting ▸ List.mem_cons_self)
      obtain ⟨kept, still, -⟩ := updateSoonestTime_rest c.getSoonestTimer
        { c with queue, heap := c.heap.push timer }
      refine iff_of_true ((kernelAgrees_iff_of_idle (still.trans idle)).mpr fun absent => ?_) ?_
      · rw [kept] at absent
        refine pushProc_armedForTop (armedForTop_behind agrees idle waiting ?_ absent) later
        exact fun same => by cases same
      · simp only [DisarmsWhenEmpty, MsgDisarms, idle, waiting]
  | remove timer queue idle waiting =>
      have rest := running.behind waiting
      obtain ⟨kept, still⟩ := removeProc_rest rest.check timer
      have guard : DisarmsWhenEmpty (c, rearmed) .proc ↔
          (.expire ∉ queue → c.heap.elements ≠ {timer}) := by
        simp only [DisarmsWhenEmpty, MsgDisarms, idle, waiting]
      rw [guard, kernelAgrees_iff_of_idle (still.trans idle), kept]
      refine forall_congr' fun absent => removeProc_armedForTop_iff rest ?_ timer
      exact armedForTop_behind agrees idle waiting (fun same => by cases same) absent
  | expire queue idle waiting =>
      have guard : DisarmsWhenEmpty (c, rearmed) .proc ↔
          (.expire ∉ queue → c.getSoonestTimer = none → c.Disarmed) := by
        simp only [DisarmsWhenEmpty, MsgDisarms, idle, waiting, noted]
      rw [guard, expireProc_kernelAgrees_iff (running.behind waiting) idle]
      refine forall_congr' fun _ => forall_congr' fun _ => ?_
      exact ⟨fun d => ⟨d.armed, d.polled⟩, fun d => ⟨d.armed, d.polled⟩⟩

section Noting
variable {c c' : LocTimerContainer} {rearmed : Bool}

theorem not_disarmed_of_armedForTop {top : LocTimerDelegate} (armed : c.ArmedForTop)
    (here : c.getSoonestTimer = some top) : ¬ c.Disarmed := by
  intro disarmed
  have set := armed.armed
  rw [here, disarmed.armed] at set
  cases set

theorem disarmed_of_same (armed : c'.armed = c.armed) (polled : c'.polled = c.polled) :
    c'.Disarmed ↔ c.Disarmed := by
  constructor
  · exact fun d => ⟨armed.symm.trans d.armed, polled.symm.trans d.polled⟩
  · exact fun d => ⟨armed.trans d.armed, polled.trans d.polled⟩

theorem expireDelegate_disarmed (timer : LocTimerDelegate) (t : Timespec) :
    (c.expireDelegate timer t).Disarmed ↔ c.Disarmed := by
  obtain ⟨-, same⟩ | ⟨-, same⟩ := expireDelegate_cases timer t c
  · rw [same]
    exact disarmed_of_same rfl rfl
  · rw [same]
    exact disarmed_of_same rfl rfl

/-- Called with NULL, updateSoonestTime arms the timerfd exactly if there is a timer. -/
theorem updateSoonestTime_none_disarmed
    (later : ∀ cur ∈ c.getSoonestTimer, 0 < cur.mFutureTime.tv_sec) :
    (c.updateSoonestTime none).Disarmed ↔ c.Disarmed ∧ c.getSoonestTimer = none := by
  cases top : c.getSoonestTimer with
  | none =>
      rw [updateSoonestTime_same top]
      exact (and_iff_left rfl).symm
  | some cur =>
      have armed : (c.updateSoonestTime none).ArmedForTop :=
        updateSoonestTime_of_higher top (fun prior mem => by cases mem) (later cur top)
      have kept : (c.updateSoonestTime none).getSoonestTimer = some cur := by
        rw [getSoonestTimer, (updateSoonestTime_fields none c).1]
        exact top
      exact iff_of_false (not_disarmed_of_armedForTop armed kept) fun both => by cases both.2

theorem expireRound_disarmed (running : Running c) (t : Timespec) :
    (c.expireRound t).Disarmed ↔ c.Disarmed ∧
      c.getSoonestTimer.any (fun top => t.tv_sec < top.mFutureTime.tv_sec) = false := by
  obtain ⟨timer, top, due, same⟩ | ⟨later, same⟩ := expireRound_cases t c
  · have none_later : c.getSoonestTimer.any
        (fun top => t.tv_sec < top.mFutureTime.tv_sec) = false := by
      rw [top]
      simpa using due
    rw [same, expireDelegate_disarmed, and_iff_left none_later]
    exact disarmed_of_same rfl rfl
  · rw [same, updateSoonestTime_none_disarmed (c := { c with timerOfNow := none }) running.top]
    refine and_congr (disarmed_of_same rfl rfl) ?_
    change c.getSoonestTimer = none ↔ _
    cases top : c.getSoonestTimer with
    | none => exact iff_of_true rfl rfl
    | some timer => exact iff_of_false nofun (by simpa using later timer top)

theorem pushProc_disarmed {timer : LocTimerDelegate} (later : 0 < timer.mFutureTime.tv_sec) :
    (c.pushProc timer).Disarmed ↔
      c.Disarmed ∧ c.getSoonestTimer.all (outRanks timer ·) = false := by
  obtain ⟨higher, top, armed⟩ | ⟨prior, top, lower, same, -⟩ := pushProc_cases c later
  · have all : c.getSoonestTimer.all (outRanks timer ·) = true := by
      cases here : c.getSoonestTimer with
      | none => rfl
      | some prior => exact higher prior here
    refine iff_of_false (not_disarmed_of_armedForTop armed top) fun both => ?_
    rw [all] at both
    cases both.2
  · have some_lower : c.getSoonestTimer.all (outRanks timer ·) = false := by
      rw [top]
      exact lower
    rw [same, and_iff_left some_lower]
    exact disarmed_of_same rfl rfl

theorem removeProc_disarmed (running : Running c) (timer : LocTimerDelegate) :
    (c.removeProc timer).Disarmed ↔
      c.Disarmed ∧ (c.getSoonestTimer = some timer → c.heap.elements = {timer}) := by
  obtain ⟨top, same⟩ | ⟨other, same, -⟩ := removeProc_cases running.check timer
  · rw [same, updateSoonestTime_none_disarmed running.pop.top, imp_iff_right top]
    exact and_congr (disarmed_of_same rfl rfl) (popped_eq_none_iff running.check top)
  · have unchanged : c.getSoonestTimer = some timer → c.heap.elements = {timer} :=
      fun top => absurd top other
    rw [same, and_iff_left unchanged]
    exact disarmed_of_same rfl rfl

theorem expireProc_disarmed (c : LocTimerContainer) : c.expireProc.Disarmed ↔ c.Disarmed := by
  obtain ⟨timer, -, same⟩ | ⟨-, same⟩ := expireProc_cases c
  · rw [same, expireDelegate_disarmed]
    exact disarmed_of_same rfl rfl
  · rw [same]

/-- The note is right: the timerfd is disarmed as long as nothing has armed it. -/
theorem step_noted {l : Label} (running : Running c) (noted : c.Disarmed ↔ rearmed = false)
    (taken : c.step l = some c') : c'.Disarmed ↔ noteArming c l c' rearmed = false := by
  cases takes_of_step taken with
  | start client timeOutInMs =>
      obtain same | ⟨timer, -, same⟩ := start_cases client timeOutInMs c
      · rwa [same]
      · rw [same]
        refine Iff.trans ?_ noted
        exact disarmed_of_same rfl rfl
  | stop client =>
      obtain same | ⟨timer, same⟩ := stop_cases client c
      · rwa [same]
      · rw [same]
        refine Iff.trans ?_ noted
        exact disarmed_of_same rfl rfl
  | advance now later =>
      refine Iff.trans ?_ noted
      exact disarmed_of_same rfl rfl
  | poll polled due => exact iff_of_true ⟨rfl, rfl⟩ rfl
  | round t busy =>
      have arms : noteArming c .proc (c.expireRound t) rearmed = false ↔ rearmed = false ∧
          c.getSoonestTimer.any (fun top => t.tv_sec < top.mFutureTime.tv_sec) = false := by
        simp only [noteArming, busy, msgArms, Bool.or_eq_false_iff]
      rw [arms, ← noted]
      exact expireRound_disarmed running t
  | push timer queue idle waiting =>
      have arms : noteArming c .proc (({ c with queue } : LocTimerContainer).pushProc timer)
          rearmed = false ↔ rearmed = false ∧ c.getSoonestTimer.all (outRanks timer ·) = false := by
        simp only [noteArming, idle, waiting, msgArms, Bool.or_eq_false_iff]
      rw [arms, ← noted]
      refine (pushProc_disarmed (running.queue timer (waiting ▸ List.mem_cons_self))).trans ?_
      exact and_congr_left' (disarmed_of_same rfl rfl)
  | remove timer queue idle waiting =>
      have arms : noteArming c .proc (({ c with queue } : LocTimerContainer).removeProc timer)
          rearmed = false ↔ rearmed = false ∧
            (c.getSoonestTimer = some timer → c.heap.elements = {timer}) := by
        simp only [noteArming, idle, waiting, msgArms, Bool.or_eq_false_iff, decide_eq_false_iff_not,
          not_and, not_not]
      rw [arms, ← noted]
      refine (removeProc_disarmed (running.behind waiting) timer).trans ?_
      exact and_congr_left' (disarmed_of_same rfl rfl)
  | expire queue idle waiting =>
      have arms : noteArming c .proc ({ c with queue } : LocTimerContainer).expireProc rearmed =
          rearmed := by
        simp only [noteArming, idle, waiting, msgArms, Bool.or_false]
      rw [arms, ← noted, expireProc_disarmed]
      exact disarmed_of_same rfl rfl

end Noting

/-- Whenever no MsgTimerExpire is pending the timerfd agrees with the heap, throughout exactly
the runs in which the timerfd is disarmed by the time the heap is empty. -/
theorem kernel_timer_agrees_iff (now : Timespec) (booted : 0 < now.tv_sec) (ls : List Label)
    (c : LocTimerContainer) (run : Run step (new now) ls c) :
    Throughout step KernelAgrees (new now) ls ↔
      Meets (monitored step noteArming) DisarmsWhenEmpty (new now, false) ls := by
  have lifted : Throughout (monitored step noteArming) (fun p => KernelAgrees p.1) (new now, false)
      ls ↔ Throughout step KernelAgrees (new now) ls := throughout_monitored
  obtain ⟨rearmed, run⟩ : ∃ rearmed, Run (monitored step noteArming) (new now, false) ls
      (c, rearmed) := run.exists_monitored false
  rw [← lifted]
  refine run.throughout_iff_meets
    (I := fun p => Running p.1 ∧ (p.1.Disarmed ↔ p.2 = false)) ?_ ?_ ?_ ?_
  · intro p l q ⟨running, noted⟩ agrees taken
    exact step_kernelAgrees_iff running noted agrees (monitored_iff.mp taken).1
  · intro p l q ⟨running, noted⟩ taken
    obtain ⟨taken, notes⟩ := monitored_iff.mp taken
    exact ⟨running.step taken, notes ▸ step_noted running noted taken⟩
  · refine ⟨⟨rfl, booted, ?_, fun _ mem => by cases mem⟩, iff_of_true ⟨rfl, rfl⟩ rfl⟩
    exact fun timer mem => absurd mem (Multiset.notMem_zero timer)
  · exact fun _ => ⟨rfl, rfl⟩

instance (c : LocTimerContainer) (rearmed : Bool) : (t : Option Timespec) →
    (queue : List TimerMsg) → Decidable (c.MsgDisarms rearmed t queue)
  | some _, queue | none, .expire :: queue =>
      inferInstanceAs (Decidable (.expire ∉ queue → c.getSoonestTimer = none → rearmed = false))
  | none, .remove timer :: queue =>
      inferInstanceAs (Decidable (.expire ∉ queue → c.heap.elements ≠ {timer}))
  | none, .push _ :: _ | none, [] => isTrue trivial

instance (p : LocTimerContainer × Bool) : (l : Label) → Decidable (DisarmsWhenEmpty p l)
  | .proc => inferInstanceAs (Decidable (p.1.MsgDisarms p.2 p.1.timerOfNow p.1.queue))
  | .start _ _ | .stop _ | .advance _ | .poll => isTrue trivial

/-- A timer expires and is removed while another one is started and stopped. -/
theorem expiring_timer_disarms_kernel_timer :
    Throughout step KernelAgrees (new ⟨5, 0⟩)
      [.start 0 1000, .start 1 9000, .proc, .proc, .stop 1, .proc, .advance ⟨6, 0⟩, .poll, .proc,
        .proc, .proc] := by
  exact (kernel_timer_agrees_iff ⟨5, 0⟩ (by decide) _ _ (run_iff_foldlM.mpr rfl)).mpr (by decide)

/-- A timer that is started while the MsgTimerExpire waits arms the timerfd and is popped with it. -/
example : ¬ Meets (monitored step noteArming) DisarmsWhenEmpty (new ⟨5, 0⟩, false)
    [.start 0 1000, .proc, .advance ⟨6, 0⟩, .stop 0, .start 1 1000, .poll, .proc, .proc, .proc,
      .proc] := by decide

/-- The only timer is stopped, and the timerfd stays armed for it. -/
theorem stopped_timer_stays_armed :
    ∃ c, Run step (new ⟨5, 0⟩) [.start 0 1000, .proc, .stop 0, .proc] c ∧
      c.getSoonestTimer = none ∧ c.armed = some ⟨6, 0⟩ ∧ ¬ KernelAgrees c := by
  refine ⟨_, run_iff_foldlM.mpr rfl, rfl, rfl, fun agrees => ?_⟩
  have armed := (agrees fun pending => by cases pending <;> contradiction).armed
  cases armed

end LocTimerContainer
end Msm8974.Timer
