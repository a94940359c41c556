import Msm8974.Utils.LocTimer

/-!
The objects of LocTimer.cpp: LocTimers in their clients' threads, the delegates they share
with the two containers, and the LocTimerWrappers of the C interface. What runs under a lock
is one step. `LocTimerDelegate::expire` holds none and takes one step for each of its calls.
The deadlines of the timerfds play no part here: the poll task may report an expiry at any
time. An address is not used again once its object is deleted.
-/

namespace Msm8974.Timer
open Msm8974.Runs

/-- A LocTimer, alone or as the base of a LocTimerWrapper. -/
inductive LocTimer
  | timer (n : Nat)
  | wrapper (n : Nat)
  deriving DecidableEq, Repr

/-- A delegate, with what its constructor was given. -/
structure Delegate where
  address : Nat
  client : LocTimer
  mFutureTime : Timespec
  wakeOnExpire : Bool
  deriving DecidableEq, Repr

instance : LocRankable Delegate where
  ranks timer other := other.mFutureTime.tv_sec - timer.mFutureTime.tv_sec
  total _ _ := by omega
  trans _ _ _ := by omega

/-- The fields of a delegate that destroyLocked clears. -/
structure DelegateFields where
  mClient : Option LocTimer
  mContainer : Option Bool
  deriving DecidableEq

/-- The messages of the containers, each with its mTimerContainer. -/
inductive ContainerMsg
  | push (container : Bool) (timer : Delegate)
  | remove (container : Bool) (timer : Delegate)
  | expire (container : Bool)
  deriving DecidableEq

/-- How far a call of `LocTimerDelegate::expire` has come: it was made, `client` is copied,
stop() returned true and destroyed `current`, or the callback of a wrapper was made. -/
inductive Expiring
  | called (timer : Delegate)
  | copied (timer : Delegate) (client : LocTimer)
  | stopped (timer : Delegate) (client : LocTimer) (current : Delegate)
  | calledBack (n : Nat)
  deriving DecidableEq

/-- What happens to the objects. `stopped` is a stop() of the client's that returned true,
`expired` one that the expiry of `timer` forced. -/
inductive TimerEvent
  | started (timer : Delegate)
  | stopped (timer : Delegate)
  | expired (timer current : Delegate)
  | timeOutCallback (timer current : Delegate)
  | deleted (timer : Delegate)
  | touched (timers : Multiset Delegate)
  | usedClient (client : LocTimer)
  | deletedClient (client : LocTimer)
  deriving DecidableEq

structure LocTimers where
  heap : Bool → LocHeap Delegate
  /-- The queue of the message task, which both containers share. -/
  queue : List ContainerMsg
  /-- The container and the time of a MsgTimerExpire whose loop runs. -/
  processing : Option (Bool × Timespec)
  expiring : Option Expiring
  delegates : Nat → DelegateFields
  mTimer : LocTimer → Option Delegate
  mCb : Nat → Option Nat
  mMe : Nat → Option Nat
  /-- The handles that loc_timer_start returned and loc_timer_stop has not set to NULL. -/
  handle : Nat → Bool
  created : Nat
  wrappers : Nat
  now : Timespec
  log : List TimerEvent

namespace LocTimers

def new (now : Timespec) : LocTimers where
  heap _ := .new
  queue := []
  processing := none
  expiring := none
  delegates _ := ⟨none, none⟩
  mTimer _ := none
  mCb _ := none
  mMe _ := none
  handle _ := false
  created := 0
  wrappers := 0
  now := now
  log := []

def record (e : TimerEvent) (s : LocTimers) : LocTimers := { s with log := s.log ++ [e] }

def sendMsg (msg : ContainerMsg) (s : LocTimers) : LocTimers := { s with queue := s.queue ++ [msg] }

/-- `LocTimerDelegate::destroyLocked`. -/
def destroyLocked (timer : Delegate) (s : LocTimers) : LocTimers :=
  let s' : LocTimers := { s with
    delegates := Function.update s.delegates timer.address ⟨none, none⟩ }
  match (s.delegates timer.address).mContainer with
  | some container => (s'.record (.touched {timer})).sendMsg (.remove container timer)
  | none => s'.record (.touched {timer})

/-- `LocTimer::stop`, with the delegate it destroyed and what the log says of it. -/
def stop (ended : Delegate → TimerEvent) (client : LocTimer) (s : LocTimers) :
    Option Delegate × LocTimers :=
  let s := s.record (.usedClient client)
  match s.mTimer client with
  | none => (none, s)
  | some timer =>
      let s : LocTimers := { s with mTimer := Function.update s.mTimer client none }
      (some timer, (s.destroyLocked timer).record (ended timer))

/-- `LocTimer::start`. -/
def start (client : LocTimer) (timeOutInMs : BitVec 32) (wakeOnExpire : Bool) (s : LocTimers) :
    LocTimers :=
  let s := s.record (.usedClient client)
  match s.mTimer client with
  | some _ => s
  | none =>
      let timer : Delegate := ⟨s.created, client, s.now.after timeOutInMs, wakeOnExpire⟩
      (({ s with
        mTimer := Function.update s.mTimer client (some timer)
        delegates := Function.update s.delegates s.created ⟨some client, some wakeOnExpire⟩
        created := s.created + 1 } : LocTimers).record (.started timer)).sendMsg
          (.push wakeOnExpire timer)

/-- `LocTimer::~LocTimer`. -/
def delete (client : LocTimer) (s : LocTimers) : LocTimers :=
  (s.stop .stopped client).2.record (.deletedClient client)

/-- `LocTimerWrapper::destroy`, whose delete runs both destructors. -/
def destroy (n : Nat) (s : LocTimers) : LocTimers :=
  let s := s.record (.usedClient (.wrapper n))
  if s.mCb n ≠ none ∧ s.mMe n = some n then
    ({ s with
      mCb := Function.update s.mCb n none
      mMe := Function.update s.mMe n none } : LocTimers).delete (.wrapper n)
  else s

/-- `loc_timer_start`. -/
def timerStart (msec : BitVec 64) (cb_func : Option Nat) (wake_on_expire : Bool) (s : LocTimers) :
    LocTimers :=
  match cb_func with
  | none => s
  | some cb =>
      ({ s with
        mCb := Function.update s.mCb s.wrappers (some cb)
        mMe := Function.update s.mMe s.wrappers (some s.wrappers)
        handle := Function.update s.handle s.wrappers true
        wrappers := s.wrappers + 1 } : LocTimers).start (.wrapper s.wrappers)
          (msec.setWidth 32) wake_on_expire

/-- `loc_timer_stop`. -/
def timerStop (n : Nat) (s : LocTimers) : LocTimers :=
  if s.handle n then
    ({ s with handle := Function.update s.handle n false } : LocTimers).destroy n
  else s

/-- `MsgTimerPush::proc`, which may look at everything in the heap. -/
def pushProc (container : Bool) (timer : Delegate) (s : LocTimers) : LocTimers :=
  ({ s with
    heap := Function.update s.heap container ((s.heap container).push timer) } : LocTimers).record
      (.touched (timer ::ₘ (s.heap container).elements))

/-- `MsgTimerRemove::proc`. -/
def removeProc (container : Bool) (timer : Delegate) (s : LocTimers) : LocTimers :=
  (({ s with
    heap := Function.update s.heap container ((s.heap container).remove timer).2 } :
      LocTimers).record (.touched (timer ::ₘ (s.heap container).elements))).record (.deleted timer)

/-- The end of `MsgTimerExpire::proc`. -/
def loopEnd (container : Bool) (s : LocTimers) : LocTimers :=
  ({ s with processing := none } : LocTimers).record (.touched (s.heap container).elements)

/-- A round of its loop that starts with pop(). -/
def popRound (container : Bool) (now : Timespec) (s : LocTimers) : LocTimers :=
  match (s.heap container).pop with
  | (none, _) => s.loopEnd container
  | (some timer, heap) =>
      ({ s with
        heap := Function.update s.heap container heap
        processing := some (container, now)
        expiring := some (.called timer) } : LocTimers).record
          (.touched (s.heap container).elements)

/-- One that starts with popIfOutRanks. -/
def nextRound (container : Bool) (now : Timespec) (s : LocTimers) : LocTimers :=
  match (s.heap container).peek with
  | none => s.loopEnd container
  | some top =>
      if !outRanks ⟨0, .timer 0, now, false⟩ top then s.popRound container now
      else s.loopEnd container

/-- The next step of `LocTimerDelegate::expire`. The callback of a LocTimer is its last one, a
wrapper calls destroy() on itself after it. -/
def expireStep (s : LocTimers) : Expiring → LocTimers
  | .called timer =>
      ({ s with expiring := (s.delegates timer.address).mClient.map (.copied timer) } :
        LocTimers).record (.touched {timer})
  | .copied timer client =>
      match s.stop (.expired timer) client with
      | (some current, s') => { s' with expiring := some (.stopped timer client current) }
      | (none, s') => { s' with expiring := none }
  | .stopped timer client current =>
      let s := (s.record (.usedClient client)).record (.timeOutCallback timer current)
      match client with
      | .timer _ => { s with expiring := none }
      | .wrapper n => { s with expiring := some (.calledBack n) }
  | .calledBack n => { s.destroy n with expiring := none }

inductive Label
  | start (n : Nat) (timeOutInMs : BitVec 32) (wakeOnExpire : Bool)
  | stop (n : Nat)
  | delete (n : Nat)
  | timerStart (msec : BitVec 64) (cb_func : Option Nat) (wake_on_expire : Bool)
  | timerStop (n : Nat)
  | poll (container : Bool)
  | advance (now : Timespec)
  | proc
  deriving DecidableEq

/-- Whether a client may still call LocTimer `n`, which it destroys itself. -/
def owned (s : LocTimers) (n : Nat) : Bool := .deletedClient (.timer n) ∉ s.log

def step (s : LocTimers) : Label → Option LocTimers
  | .start n timeOutInMs wakeOnExpire =>
      if s.owned n then some (s.start (.timer n) timeOutInMs wakeOnExpire) else none
  | .stop n => if s.owned n then some (s.stop .stopped (.timer n)).2 else none
  | .delete n => if s.owned n then some (s.delete (.timer n)) else none
  | .timerStart msec cb_func wake_on_expire => some (s.timerStart msec cb_func wake_on_expire)
  | .timerStop n => some (s.timerStop n)
  | .poll container => some (s.sendMsg (.expire container))
  | .advance now => if s.now.le now then some { s with now } else none
  | .proc =>
      match s.expiring, s.processing, s.queue with
      | some expiring, _, _ => some (s.expireStep expiring)
      | none, some (container, now), _ => some (s.nextRound container now)
      | none, none, [] => none
      | none, none, msg :: queue =>
          let s : LocTimers := { s with queue }
          match msg with
          | .push container timer => some (s.pushProc container timer)
          | .remove container timer => some (s.removeProc container timer)
          | .expire container => some (s.popRound container s.now)

/-- The steps by what they do. -/
inductive Takes (s : LocTimers) : Label → LocTimers → Prop
  | start (n : Nat) (timeOutInMs : BitVec 32) (wakeOnExpire : Bool) (own : s.owned n = true) :
      Takes s (.start n timeOutInMs wakeOnExpire) (s.start (.timer n) timeOutInMs wakeOnExpire)
  | stop (n : Nat) (own : s.owned n = true) : Takes s (.stop n) (s.stop .stopped (.timer n)).2
  | delete (n : Nat) (own : s.owned n = true) : Takes s (.delete n) (s.delete (.timer n))
  | timerStart (msec : BitVec 64) (cb_func : Option Nat) (wake_on_expire : Bool) :
      Takes s (.timerStart msec cb_func wake_on_expire) (s.timerStart msec cb_func wake_on_expire)
  | timerStop (n : Nat) : Takes s (.timerStop n) (s.timerStop n)
  | poll (container : Bool) : Takes s (.poll container) (s.sendMsg (.expire container))
  | advance (now : Timespec) (later : s.now.le now) : Takes s (.advance now) { s with now }
  | expireStep (expiring : Expiring) (stage : s.expiring = some expiring) :
      Takes s .proc (s.expireStep expiring)
  | round (container : Bool) (now : Timespec) (quiet : s.expiring = none)
      (loop : s.processing = some (container, now)) : Takes s .proc (s.nextRound container now)
  | push (container : Bool) (timer : Delegate) (queue : List ContainerMsg)
      (quiet : s.expiring = none) (idle : s.processing = none)
      (sent : s.queue = .push container timer :: queue) :
      Takes s .proc (({ s with queue } : LocTimers).pushProc container timer)
  | remove (container : Bool) (timer : Delegate) (queue : List ContainerMsg)
      (quiet : s.expiring = none) (idle : s.processing = none)
      (sent : s.queue = .remove container timer :: queue) :
      Takes s .proc (({ s with queue } : LocTimers).removeProc container timer)
  | expire (container : Bool) (queue : List ContainerMsg) (quiet : s.expiring = none)
      (idle : s.processing = none) (sent : s.queue = .expire container :: queue) :
      Takes s .proc (({ s with queue } : LocTimers).popRound container s.now)

theorem takes_of_step {s t : LocTimers} {l : Label} (taken : step s l = some t) :
    Takes s l t := by
  cases l with
  | start n timeOutInMs wakeOnExpire =>
      simp only [step, Option.ite_none_right_eq_some, Option.some.injEq] at taken
      exact taken.2 ▸ .start n timeOutInMs wakeOnExpire taken.1
  | stop n =>
      simp only [step, Option.ite_none_right_eq_some, Option.some.injEq] at taken
      exact taken.2 ▸ .stop n taken.1
  | delete n =>
      simp only [step, Option.ite_none_right_eq_some, Option.some.injEq] at taken
      exact taken.2 ▸ .delete n taken.1
  | timerStart msec cb_func wake_on_expire =>
      exact Option.some.inj taken ▸ .timerStart msec cb_func wake_on_expire
  | timerStop n => exact Option.some.inj taken ▸ .timerStop n
  | poll container => exact Option.some.inj taken ▸ .poll container
  | advance now =>
      simp only [step, Option.ite_none_right_eq_some, Option.some.injEq] at taken
      exact taken.2 ▸ .advance now taken.1
  | proc =>
      simp only [step] at taken
      split at taken
      next expiring stage => exact Option.some.inj taken ▸ .expireStep expiring stage
      next container now quiet loop =>
        exact Option.some.inj taken ▸ .round container now quiet loop
      next => cases taken
      next msg queue quiet idle sent =>
        cases msg with
        | push container timer =>
            exact Option.some.inj taken ▸ .push container timer queue quiet idle sent
        | remove container timer =>
            exact Option.some.inj taken ▸ .remove container timer queue quiet idle sent
        | expire container =>
            exact Option.some.inj taken ▸ .expire container queue quiet idle sent

theorem nextRound_cases (container : Bool) (now : Timespec) (s : LocTimers) :
    s.nextRound container now = s.loopEnd container ∨
      s.nextRound container now = s.popRound container now := by
  rw [nextRound]
  split
  · exact .inl rfl
  · split
    · exact .inr rfl
    · exact .inl rfl

end LocTimers
end Msm8974.Timer
