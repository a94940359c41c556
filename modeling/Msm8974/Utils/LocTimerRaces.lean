import Msm8974.Utils.LocTimerLifecycle

/-!
What the lock in expire() does not cover. Its copy of the client pointer outlives stop() and the
destructors of the client, and its stop() takes whatever delegate is current by then. Both are
harmless exactly as long as the client keeps away from the LocTimer meanwhile.
-/

namespace Msm8974.Timer.LocTimers
open Msm8974.Runs Msm8974.Traces TimerEvent

variable {s t : LocTimers} {client : LocTimer}

/-- No LocTimer is used once it is deleted, none is deleted twice, and a callback is made for the
start that created the delegate which expired. -/
structure Safe (s : LocTimers) : Prop where
  alive : AtEach (fun before e => ∀ client, e = .usedClient client →
    .deletedClient client ∉ before) s.log
  once : ∀ client, s.log.count (.deletedClient client) ≤ 1
  own : ∀ timer current, .timeOutCallback timer current ∈ s.log → current = timer

/-- expire() has a copy of the client pointer and is still going to use it. -/
def Holds (s : LocTimers) (client : LocTimer) : Prop :=
  match s.expiring with
  | some (.copied _ holder) | some (.stopped _ holder _) => holder = client
  | some (.calledBack n) => .wrapper n = client
  | some (.called _) | none => False

/-- No LocTimer that expire() holds is destroyed, no wrapper is stopped once it has destroyed
itself, and expire() does not find its client started again. -/
def Orderly (s : LocTimers) : Label → Prop
  | .delete n => ¬ s.Holds (.timer n)
  | .timerStop n => s.handle n = true →
      .deletedClient (.wrapper n) ∉ s.log ∧ ¬ s.Holds (.wrapper n)
  | .proc =>
      match s.expiring with
      | some (.copied timer client) => ∀ current ∈ s.mTimer client, current = timer
      | _ => True
  | .start .. | .stop _ | .timerStart .. | .poll _ | .advance _ => True

/-- Events that tell nothing of clients. -/
def Apart : TimerEvent → Prop
  | .usedClient _ | .deletedClient _ | .timeOutCallback .. => False
  | _ => True

structure Guarded (s : LocTimers) : Prop where
  ledger : Ledger s
  alive : AtEach (fun before e => ∀ client, e = .usedClient client →
    .deletedClient client ∉ before) s.log
  once : ∀ client, s.log.count (.deletedClient client) ≤ 1
  own : ∀ timer current, .timeOutCallback timer current ∈ s.log → current = timer
  current : ∀ timer client current, s.expiring = some (.stopped timer client current) →
    current = timer
  gone : ∀ client, .deletedClient client ∈ s.log → s.mTimer client = none ∧ ¬ s.Holds client
  known : ∀ n, .deletedClient (.wrapper n) ∈ s.log → n < s.wrappers
  made : ∀ n, s.mCb n ≠ none → n < s.wrappers

namespace Guarded

/-- What happens to the delegates alone leaves the clients safe. -/
theorem frame (h : Guarded s) (ledger : Ledger t) (log : Extends Apart s.log t.log)
    (mTimer : ∀ client, .deletedClient client ∈ s.log → s.mTimer client = none →
      t.mTimer client = none)
    (holds : ∀ client, t.Holds client → .deletedClient client ∈ s.log → s.Holds client)
    (current : ∀ timer client current, t.expiring = some (.stopped timer client current) →
      current = timer)
    (wrappers : s.wrappers ≤ t.wrappers) (made : ∀ n, t.mCb n ≠ none → n < t.wrappers) :
    Guarded t := by
  have deleted : ∀ client, .deletedClient client ∈ t.log → .deletedClient client ∈ s.log :=
    fun client mem => log.mem_of_not mem id
  have callbacks : ∀ timer current, .timeOutCallback timer current ∈ t.log →
      .timeOutCallback timer current ∈ s.log := fun _ _ mem => log.mem_of_not mem id
  obtain ⟨new, extended, apart⟩ := log
  constructor
  case ledger => exact ledger
  case alive =>
    rw [extended]
    refine h.alive.append fun e mem before client used => ?_
    subst used
    exact (apart _ mem).elim
  case once =>
    intro client
    have none_new : new.count (.deletedClient client) = 0 :=
      List.count_eq_zero.mpr fun mem => apart _ mem
    rw [extended, List.count_append, none_new]
    exact h.once client
  case own => exact fun timer current called => h.own timer current (callbacks timer current called)
  case current => exact current
  case gone =>
    intro client mem
    obtain ⟨idle, free⟩ := h.gone client (deleted client mem)
    exact ⟨mTimer client (deleted client mem) idle,
      fun held => free (holds client held (deleted client mem))⟩
  case known => exact fun n mem => (h.known n (deleted _ mem)).trans_le wrappers
  case made => exact made

theorem use (h : Guarded s) (alive : .deletedClient client ∉ s.log) :
    Guarded (s.record (.usedClient client)) := by
  have deleted : ∀ other, TimerEvent.deletedClient other ∈ (s.record (.usedClient client)).log →
      .deletedClient other ∈ s.log := by simp [record]
  constructor
  case ledger => exact h.ledger.usedClient client
  case alive =>
    refine atEach_concat.mpr ⟨h.alive, fun other used => ?_⟩
    obtain rfl : client = other := by simpa using used
    exact alive
  case once => simpa [record, List.count_append] using h.once
  case own => simpa [record] using h.own
  case current => exact h.current
  case gone => exact fun other mem => h.gone other (deleted other mem)
  case known => exact fun n mem => h.known n (deleted _ mem)
  case made => exact h.made

theorem stop_frame (h : Guarded s) {ended : Delegate → TimerEvent}
    (kind : ended = .stopped ∨ ∃ expiring, ended = .expired expiring)
    (alive : .deletedClient client ∉ s.log) : Guarded (s.stop ended client).2 ∧
      (s.stop ended client).2.mTimer client = none := by
  have used := h.use alive
  have ledger := h.ledger.stop kind client
  cases ticks : s.mTimer client with
  | none =>
      rw [Ledger.stop_idle ended ticks]
      exact ⟨used, ticks⟩
  | some timer =>
      rw [Ledger.stop_ticking h.ledger ended ticks] at ledger ⊢
      refine ⟨used.frame ledger ?_ ?_ (fun _ held _ => held) h.current le_rfl h.made,
        Function.update_self ..⟩
      · refine ((Extends.refl _ _).concat trivial).concat ?_
        rcases kind with rfl | ⟨expiring, rfl⟩ <;> trivial
      · intro other _ idle
        by_cases same : other = client
        · simp [same]
        · simpa [record, Function.update_of_ne same] using idle

theorem start (h : Guarded s) (alive : .deletedClient client ∉ s.log) (timeOutInMs : BitVec 32)
    (wakeOnExpire : Bool) : Guarded (s.start client timeOutInMs wakeOnExpire) := by
  have used := h.use alive
  have ledger := h.ledger.start client timeOutInMs wakeOnExpire
  cases current : s.mTimer client with
  | some timer => exact Ledger.start_busy current timeOutInMs wakeOnExpire ▸ used
  | none =>
      rw [Ledger.start_idle current rfl] at ledger ⊢
      refine used.frame ledger ((Extends.refl _ _).concat trivial) ?_ (fun _ held _ => held)
        h.current le_rfl h.made
      intro other deleted idle
      have differs : other ≠ client := by
        rintro rfl
        exact alive (by simpa [record] using deleted)
      simpa [record, Function.update_of_ne differs] using idle

theorem delete (h : Guarded s) (alive : .deletedClient client ∉ s.log) (free : ¬ s.Holds client)
    (known : ∀ n, client = .wrapper n → n < s.wrappers) : Guarded (s.delete client) := by
  obtain ⟨stopped, idle⟩ := h.stop_frame (.inl rfl) alive
  have undeleted : Extends (fun e => ∀ other, e ≠ .deletedClient other) s.log
      (s.stop .stopped client).2.log :=
    stop_extends (fun _ => by simp) (fun _ _ => by simp) (fun _ _ => by simp) s
  have still : .deletedClient client ∉ (s.stop .stopped client).2.log :=
    fun mem => alive (undeleted.mem_of_not mem fun none => none client rfl)
  have unheld : ¬ (s.stop .stopped client).2.Holds client := by
    simpa only [Holds, stop_expiring] using free
  constructor
  case ledger => exact stopped.ledger.deletedClient client
  case alive => exact atEach_concat.mpr ⟨stopped.alive, fun other used => by cases used⟩
  case once =>
    intro other
    by_cases same : client = other
    · subst same
      simp [LocTimers.delete, record, List.count_append, List.count_eq_zero.mpr still]
    · simpa [LocTimers.delete, record, List.count_append, List.count_singleton, same] using
        stopped.once other
  case own => simpa [LocTimers.delete, record] using stopped.own
  case current => exact stopped.current
  case gone =>
    intro other mem
    by_cases same : other = client
    · subst same
      exact ⟨idle, unheld⟩
    · exact stopped.gone other (by simpa [LocTimers.delete, record, same] using mem)
  case known =>
    intro n mem
    by_cases same : .wrapper n = client
    · exact (known n same.symm).trans_eq (stop_wrappers _ _ s).symm
    · exact stopped.known n (by simpa [LocTimers.delete, record, same] using mem)
  case made => exact stopped.made

theorem destroy (h : Guarded s) {n : Nat} (alive : .deletedClient (.wrapper n) ∉ s.log)
    (free : ¬ s.Holds (.wrapper n)) : Guarded (s.destroy n) := by
  have used := h.use alive
  have still : .deletedClient (.wrapper n) ∉ (s.record (.usedClient (.wrapper n))).log := by
    simpa [record] using alive
  rw [LocTimers.destroy]
  split
  next callable =>
    have known := h.made n callable.1
    refine Guarded.delete (used.frame ?_ (Extends.refl _ _) (fun _ _ idle => idle)
      (fun _ held _ => held) h.current le_rfl fun m made => ?_) still free ?_
    · exact used.ledger.other s.processing _ _ s.handle s.wrappers s.now
    · by_cases same : m = n
      · exact same ▸ known
      · exact h.made m (by simpa [record, Function.update_of_ne same] using made)
    · rintro m same
      exact LocTimer.wrapper.inj same ▸ known
  next => exact used

/-- A fresh wrapper was not deleted before. -/
theorem timerStart (h : Guarded s) (msec : BitVec 64) (cb_func : Option Nat)
    (wake_on_expire : Bool) : Guarded (s.timerStart msec cb_func wake_on_expire) := by
  cases cb_func with
  | none => exact h
  | some cb =>
      have fresh : .deletedClient (.wrapper s.wrappers) ∉ s.log :=
        fun mem => Nat.lt_irrefl _ (h.known s.wrappers mem)
      have made : ∀ n, Function.update s.mCb s.wrappers (some cb) n ≠ none →
          n < s.wrappers + 1 := by
        intro n made
        by_cases same : n = s.wrappers
        · omega
        · rw [Function.update_of_ne same] at made
          exact (h.made n made).trans (Nat.lt_succ_self _)
      refine Guarded.start (s := { s with
        mCb := _, mMe := _, handle := _, wrappers := s.wrappers + 1 }) ?_ fresh _ _
      exact h.frame (h.ledger.other s.processing _ _ _ _ s.now) (Extends.refl _ _)
        (fun _ _ idle => idle) (fun _ held _ => held) h.current (Nat.le_succ _) made

/-- The message task leaves the clients alone as long as it does not expire a delegate. -/
theorem round (h : Guarded s) (ledger : Ledger t) (log : Extends Apart s.log t.log)
    (mTimer : t.mTimer = s.mTimer) (mCb : t.mCb = s.mCb) (wrappers : t.wrappers = s.wrappers)
    (stage : t.expiring = none ∨ ∃ timer, t.expiring = some (.called timer)) : Guarded t := by
  refine h.frame ledger log (fun _ _ idle => mTimer ▸ idle) (fun client held => ?_)
    (fun timer client current at_stage => ?_) wrappers.ge fun n made => ?_
  · rcases stage with stage | ⟨timer, stage⟩ <;> simp [Holds, stage] at held
  · rcases stage with stage | ⟨timer, stage⟩ <;> simp [stage] at at_stage
  · exact wrappers ▸ h.made n (mCb ▸ made)

theorem loopEnd (h : Guarded s) (container : Bool) (quiet : s.expiring = none) :
    Guarded (s.loopEnd container) :=
  h.round (h.ledger.loopEnd container) ((Extends.refl _ _).concat trivial) rfl rfl rfl (.inl quiet)

theorem popRound (h : Guarded s) (container : Bool) (now : Timespec) (quiet : s.expiring = none) :
    Guarded (s.popRound container now) := by
  have ledger := h.ledger.popRound container now quiet
  rw [LocTimers.popRound] at ledger ⊢
  split
  next => exact h.loopEnd container quiet
  next timer heap popped =>
    rw [popped] at ledger
    exact h.round ledger ((Extends.refl _ _).concat trivial) rfl rfl rfl (.inr ⟨timer, rfl⟩)

theorem stop_leaves (ended : Delegate → TimerEvent) (client : LocTimer) (e : Option Expiring) :
    (({ s with expiring := e } : LocTimers).stop ended client).2 =
      { (s.stop ended client).2 with expiring := e } := by
  cases ticks : s.mTimer client with
  | none => simp [LocTimers.stop, record, ticks]
  | some timer =>
      cases fields : (s.delegates timer.address).mContainer <;>
        simp [LocTimers.stop, record, ticks, destroyLocked, fields, sendMsg]

theorem destroy_leaves (n : Nat) (e : Option Expiring) :
    ({ s with expiring := e } : LocTimers).destroy n = { s.destroy n with expiring := e } := by
  by_cases callable : s.mCb n ≠ none ∧ s.mMe n = some n
  · have here : ∀ u : LocTimers, u.mCb = s.mCb → u.mMe = s.mMe → u.destroy n =
        (({ u.record (.usedClient (.wrapper n)) with
          mCb := Function.update u.mCb n none
          mMe := Function.update u.mMe n none } : LocTimers).stop .stopped (.wrapper n)).2.record
            (.deletedClient (.wrapper n)) := by
      intro u mCb mMe
      exact if_pos (by simpa [record, mCb, mMe] using callable)
    rw [here { s with expiring := e } rfl rfl, here s rfl rfl]
    exact congrArg (record (.deletedClient (.wrapper n))) (stop_leaves (s := {
      s.record (.usedClient (.wrapper n)) with
      mCb := Function.update s.mCb n none
      mMe := Function.update s.mMe n none }) .stopped (.wrapper n) e)
  · have here : ∀ u : LocTimers, u.mCb = s.mCb → u.mMe = s.mMe →
        u.destroy n = u.record (.usedClient (.wrapper n)) := by
      intro u mCb mMe
      exact if_neg (by simpa [record, mCb, mMe] using callable)
    rw [here { s with expiring := e } rfl rfl, here s rfl rfl]
    rfl

/-- The callback for a stopped delegate, after which a wrapper is still held. -/
theorem calledBack (h : Guarded s) {timer current : Delegate}
    (stage : s.expiring = some (.stopped timer client current)) (own : current = timer)
    {e : Option Expiring} (next : e = none ∨ ∃ n, client = .wrapper n ∧ e = some (.calledBack n))
    (ledger : Ledger { s.record (.timeOutCallback timer current) with expiring := e }) :
    Guarded { s.record (.timeOutCallback timer current) with expiring := e } := by
  have held : s.Holds client := by simp [Holds, stage]
  constructor
  case ledger => exact ledger
  case alive => exact atEach_concat.mpr ⟨h.alive, fun other used => by cases used⟩
  case once => simpa [record, List.count_append] using h.once
  case own =>
    intro timer' current' called
    rcases List.mem_append.mp called with old | new
    · exact h.own timer' current' old
    · simp only [List.mem_singleton, TimerEvent.timeOutCallback.injEq] at new
      exact new.2.trans (own.trans new.1.symm)
  case current =>
    intro _ _ _ at_stage
    rcases next with rfl | ⟨n, rfl, rfl⟩ <;> cases at_stage
  case gone =>
    intro other mem
    obtain ⟨idle, free⟩ := h.gone other (by simpa [record] using mem)
    refine ⟨idle, fun holds => ?_⟩
    rcases next with rfl | ⟨n, rfl, rfl⟩
    · exact holds
    · obtain rfl : .wrapper n = other := holds
      exact free held
  case known => exact fun n mem => h.known n (by simpa [record] using mem)
  case made => exact h.made

theorem expireStep (h : Guarded s) (orderly : Orderly s .proc) {expiring : Expiring}
    (stage : s.expiring = some expiring) : Guarded (s.expireStep expiring) := by
  have ledger := h.ledger.expireStep stage
  simp only [Orderly, stage] at orderly
  cases expiring with
  | called timer =>
      refine h.frame ledger ((Extends.refl _ _).concat trivial) (fun _ _ idle => idle) ?_ ?_ le_rfl
        h.made
      · intro client held deleted
        cases link : (s.delegates timer.address).mClient with
        | none => simp [LocTimers.expireStep, Holds, record, link] at held
        | some other =>
            obtain rfl : other = client := by
              simpa [LocTimers.expireStep, Holds, record, link] using held
            obtain ⟨current, ticks, -⟩ := h.ledger.linked timer.address other link
            simp [(h.gone other deleted).1] at ticks
      · intro _ _ _ at_stage
        cases link : (s.delegates timer.address).mClient <;>
          simp [LocTimers.expireStep, record, link] at at_stage
  | copied timer client =>
      have held : s.Holds client := by simp [Holds, stage]
      have alive : .deletedClient client ∉ s.log := fun deleted => (h.gone client deleted).2 held
      have stopped : Guarded (s.stop (.expired timer) client).2 :=
        (h.stop_frame (.inr ⟨timer, rfl⟩) alive).1
      have same := stop_expiring (.expired timer) client s
      cases ticks : s.mTimer client with
      | none =>
          simp only [LocTimers.expireStep, Ledger.stop_idle _ ticks] at ledger ⊢
          exact (h.use alive).frame ledger (Extends.refl _ _) (fun _ _ idle => idle)
            (fun _ held => held.elim) (fun _ _ _ at_stage => by cases at_stage) le_rfl h.made
      | some current =>
          obtain rfl : current = timer := orderly current ticks
          simp only [LocTimers.expireStep, Ledger.stop_ticking h.ledger _ ticks] at ledger stopped ⊢
          refine stopped.frame ledger (Extends.refl _ _) (fun _ _ idle => idle) ?_ ?_ le_rfl h.made
          · intro other at_stage _
            obtain rfl : client = other := at_stage
            exact held
          · intro _ _ _ at_stage
            simp only [Option.some.injEq, Expiring.stopped.injEq] at at_stage
            exact at_stage.2.2.symm.trans at_stage.1
  | stopped timer client current =>
      have held : s.Holds client := by simp [Holds, stage]
      have alive : .deletedClient client ∉ s.log := fun deleted => (h.gone client deleted).2 held
      have called := fun e next => (h.use alive).calledBack (e := e) stage
        (h.current _ _ _ stage) next
      cases client with
      | timer n => exact called none (.inl rfl) ledger
      | wrapper n => exact called (some (.calledBack n)) (.inr ⟨n, rfl, rfl⟩) ledger
  | calledBack n =>
      have held : s.Holds (.wrapper n) := by simp [Holds, stage]
      have alive : .deletedClient (.wrapper n) ∉ s.log := fun deleted => (h.gone _ deleted).2 held
      simp only [LocTimers.expireStep, ← destroy_leaves]
      refine Guarded.destroy (s := { s with expiring := none }) ?_ alive id
      exact h.frame (h.ledger.leave (fun _ => rfl) fun _ => by simp) (Extends.refl _ _)
        (fun _ _ idle => idle) (fun _ held => held.elim)
        (fun _ _ _ at_stage => by cases at_stage) le_rfl h.made

theorem step {l : Label} (h : Guarded s) (orderly : Orderly s l)
    (taken : LocTimers.step s l = some t) : Guarded t := by
  have ledger := h.ledger.step taken
  cases takes_of_step taken with
  | start n timeOutInMs wakeOnExpire own => exact h.start (of_decide_eq_true own) _ _
  | stop n own => exact (h.stop_frame (.inl rfl) (of_decide_eq_true own)).1
  | delete n own => exact h.delete (of_decide_eq_true own) orderly fun _ same => by cases same
  | timerStart msec cb_func wake_on_expire => exact h.timerStart msec cb_func wake_on_expire
  | timerStop n =>
      rw [LocTimers.timerStop]
      split
      next held =>
        obtain ⟨alive, free⟩ := orderly held
        refine Guarded.destroy (s := { s with handle := _ }) ?_ alive free
        exact h.frame (h.ledger.other s.processing s.mCb s.mMe _ s.wrappers s.now)
          (Extends.refl _ _) (fun _ _ idle => idle) (fun _ held _ => held) h.current le_rfl h.made
      next => exact h
  | poll container =>
      exact h.frame ledger (Extends.refl _ _) (fun _ _ idle => idle) (fun _ held _ => held)
        h.current le_rfl h.made
  | advance now later =>
      exact h.frame ledger (Extends.refl _ _) (fun _ _ idle => idle) (fun _ held _ => held)
        h.current le_rfl h.made
  | expireStep expiring stage => exact h.expireStep orderly stage
  | round container now quiet loop =>
      obtain ended | popped := nextRound_cases container now s
      · exact ended ▸ h.loopEnd container quiet
      · exact popped ▸ h.popRound container now quiet
  | push container timer queue quiet idle sent =>
      exact h.round ledger ((Extends.refl _ _).concat trivial) rfl rfl rfl (.inl quiet)
  | remove container timer queue quiet idle sent =>
      exact h.round ledger (((Extends.refl _ _).concat trivial).concat trivial) rfl rfl rfl
        (.inl quiet)
  | expire container queue quiet idle sent =>
      have before : Guarded { s with queue := queue } :=
        h.round (h.ledger.expireProc sent) (Extends.refl _ _) rfl rfl rfl (.inl quiet)
      exact before.popRound container s.now quiet

theorem new (now : Timespec) : Guarded (.new now) := by
  constructor
  case ledger => exact .new now
  case alive => exact atEach_nil _
  all_goals simp [LocTimers.new]

theorem safe (h : Guarded s) : Safe s := ⟨h.alive, h.once, h.own⟩

end Guarded

/-- In every run whose clients keep out of the way of expire(), the LocTimers are safe
throughout. -/
theorem orderly_clients_are_safe {now : Timespec} {ls : List Label}
    (orderly : Meets step Orderly (.new now) ls) : Throughout step Safe (.new now) ls :=
  throughout_of_meets (I := Guarded)
    (fun _ _ _ guarded admitted taken => guarded.step admitted taken)
    (fun _ guarded => guarded.safe) orderly (.new now)

instance (s : LocTimers) (client : LocTimer) : Decidable (s.Holds client) :=
  match h : s.expiring with
  | some (.copied _ holder) | some (.stopped _ holder _) =>
      decidable_of_iff (holder = client) (by simp [Holds, h])
  | some (.calledBack n) => decidable_of_iff (.wrapper n = client) (by simp [Holds, h])
  | some (.called _) | none => isFalse (by simp [Holds, h])

instance (s : LocTimers) : (l : Label) → Decidable (Orderly s l)
  | .delete n => inferInstanceAs (Decidable (¬ s.Holds (.timer n)))
  | .timerStop n => inferInstanceAs (Decidable (s.handle n = true →
      .deletedClient (.wrapper n) ∉ s.log ∧ ¬ s.Holds (.wrapper n)))
  | .proc =>
      match h : s.expiring with
      | some (.copied timer client) =>
          decidable_of_iff (∀ current ∈ s.mTimer client, current = timer) (by simp [Orderly, h])
      | some (.called _) | some (.stopped ..) | some (.calledBack _) | none =>
          isTrue (by simp [Orderly, h])
  | .start .. | .stop _ | .timerStart .. | .poll _ | .advance _ => isTrue trivial

/-- A wrapper and a timer expire, another wrapper is stopped and the timer is destroyed. -/
def orderlyClients : List Label :=
  [.timerStart 1000 (some 7) false, .start 0 2000 true, .timerStart 1000 (some 7) true, .proc,
    .proc, .proc, .timerStop 1, .advance ⟨7, 0⟩, .poll false, .proc, .poll true, .proc, .proc,
    .proc, .proc, .proc, .proc, .proc, .proc, .proc, .start 0 500 true, .proc, .delete 0]

theorem orderly_clients_stay_safe : Throughout step Safe (.new ⟨5, 0⟩) orderlyClients :=
  orderly_clients_are_safe (by decide)

/-- The client is copied, stopped and started again, and called back three seconds early. -/
def restartedWhileExpiring : List Label :=
  [.start 0 1000 false, .proc, .advance ⟨6, 0⟩, .poll false, .proc, .proc, .stop 0,
    .start 0 3000 false, .proc, .proc]

/-- The callback of a wrapper stops it, although it destroys itself afterwards. -/
def stoppedInCallback : List Label :=
  [.timerStart 1000 (some 7) false, .proc, .advance ⟨6, 0⟩, .poll false, .proc, .proc, .proc, .proc,
    .timerStop 0, .proc]

theorem racing_clients_are_not_safe :
    (∃ s, Run step (.new ⟨5, 0⟩) restartedWhileExpiring s ∧ ¬ Safe s ∧ s.now = ⟨6, 0⟩ ∧
      .timeOutCallback ⟨0, .timer 0, ⟨6, 0⟩, false⟩ ⟨1, .timer 0, ⟨9, 0⟩, false⟩ ∈ s.log) ∧
    ∃ s, Run step (.new ⟨5, 0⟩) stoppedInCallback s ∧ ¬ Safe s ∧
      ∃ before, s.log = before ++ [.usedClient (.wrapper 0)] ∧
        .deletedClient (.wrapper 0) ∈ before := by
  constructor
  · refine ⟨_, run_iff_foldlM.mpr (rfl : restartedWhileExpiring.foldlM step _ = some _),
      fun safe => ?_, rfl, by decide⟩
    have same := safe.own ⟨0, .timer 0, ⟨6, 0⟩, false⟩ ⟨1, .timer 0, ⟨9, 0⟩, false⟩ (by decide)
    exact absurd same (by decide)
  · refine ⟨_, run_iff_foldlM.mpr (rfl : stoppedInCallback.foldlM step _ = some _),
      fun safe => ?_, _, rfl, by decide⟩
    exact safe.alive _ _ [] rfl (.wrapper 0) rfl (by decide)

end Msm8974.Timer.LocTimers
