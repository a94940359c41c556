import Mathlib.Logic.Function.Basic
import Msm8974.Library.Runs
import Msm8974.Utils.LocHeapQueue

/-!
One LocTimerContainer, from LocTimer.cpp: the heap of ticking delegates, the timerfd
and its place in the poll set, and the FIFO queue of the message task. All heap work
happens in messages; clients and the poll task only append to the queue. The loop of
MsgTimerExpire takes one step a round, so the other threads may run in between.
-/

namespace Msm8974.Timer
open Msm8974.Runs

@[ext] structure Timespec where
  tv_sec : Int
  tv_nsec : Int
  deriving DecidableEq, Repr

namespace Timespec

/-- The kernel's order of deadlines. -/
def le (s t : Timespec) : Prop :=
  s.tv_sec < t.tv_sec ∨ (s.tv_sec = t.tv_sec ∧ s.tv_nsec ≤ t.tv_nsec)

instance (s t : Timespec) : Decidable (s.le t) := inferInstanceAs (Decidable (_ ∨ _))

/-- The deadline `LocTimer::start` computes. -/
def after (now : Timespec) (timeOutInMs : BitVec 32) : Timespec :=
  let ms : Int := timeOutInMs.toNat
  let tv_sec := now.tv_sec + ms / 1000
  let tv_nsec := now.tv_nsec + ms % 1000 * 1000000
  if tv_nsec ≥ 1000000000 then ⟨tv_sec + tv_nsec / 1000000000, tv_nsec % 1000000000⟩
  else ⟨tv_sec, tv_nsec⟩

end Timespec

structure LocTimerDelegate where
  address : Nat
  mClient : Nat
  mFutureTime : Timespec
  deriving DecidableEq, Repr

/-- Larger time ranks lower. -/
instance : LocRankable LocTimerDelegate where
  ranks timer other := other.mFutureTime.tv_sec - timer.mFutureTime.tv_sec
  total _ _ := by omega
  trans _ _ _ := by omega

inductive TimerMsg
  | push (timer : LocTimerDelegate)
  | remove (timer : LocTimerDelegate)
  | expire
  deriving DecidableEq, Repr

structure LocTimerContainer where
  heap : LocHeap LocTimerDelegate
  /-- The deadline of the timerfd, `none` while it is disarmed. -/
  armed : Option Timespec
  polled : Bool
  queue : List TimerMsg
  /-- The time MsgTimerExpire::proc read, while its loop runs. -/
  timerOfNow : Option Timespec
  /-- `LocTimer::mTimer` of each client; a delegate's own client pointer is set as long as
  its client points back at it. -/
  mTimer : Nat → Option LocTimerDelegate
  created : Nat
  now : Timespec
  /-- Each delegate that expire() was called on, with the time the message had read. -/
  expired : List (LocTimerDelegate × Timespec)
  timedOut : List Nat

namespace LocTimerContainer

def new (now : Timespec) : LocTimerContainer where
  heap := .new
  armed := none
  polled := false
  queue := []
  timerOfNow := none
  mTimer _ := none
  created := 0
  now := now
  expired := []
  timedOut := []

def getSoonestTimer (c : LocTimerContainer) : Option LocTimerDelegate := c.heap.peek

/-- `timerfd_settime`, which disarms on a zero it_value. -/
def settime (value : Timespec) (c : LocTimerContainer) : LocTimerContainer :=
  { c with armed := if value = ⟨0, 0⟩ then none else some value }

def addPoll (c : LocTimerContainer) : LocTimerContainer := { c with polled := true }

def removePoll (c : LocTimerContainer) : LocTimerContainer := { c with polled := false }

def sendMsg (msg : TimerMsg) (c : LocTimerContainer) : LocTimerContainer :=
  { c with queue := c.queue ++ [msg] }

def updateSoonestTime (priorTop : Option LocTimerDelegate) (c : LocTimerContainer) :
    LocTimerContainer :=
  let curTop := c.getSoonestTimer
  if curTop = priorTop then c
  else
    match curTop with
    | none => c.removePoll.settime ⟨0, 0⟩
    | some cur =>
        if priorTop.all (outRanks cur ·) then c.addPoll.settime cur.mFutureTime else c

/-- `MsgTimerPush::proc`. -/
def pushProc (timer : LocTimerDelegate) (c : LocTimerContainer) : LocTimerContainer :=
  let priorTop := c.getSoonestTimer
  ({ c with heap := c.heap.push timer } : LocTimerContainer).updateSoonestTime priorTop

/-- `MsgTimerRemove::proc`. -/
def removeProc (timer : LocTimerDelegate) (c : LocTimerContainer) : LocTimerContainer :=
  let priorTop := c.getSoonestTimer
  let (removed, heap) := c.heap.remove timer
  let c' : LocTimerContainer := { c with heap }
  if priorTop = removed then c'.updateSoonestTime none else c'

/-- `LocTimer::stop`, which destroys the client's current delegate. -/
def stop (client : Nat) (c : LocTimerContainer) : Bool × LocTimerContainer :=
  match c.mTimer client with
  | none => (false, c)
  | some timer =>
      (true, ({ c with mTimer := Function.update c.mTimer client none } :
        LocTimerContainer).sendMsg (.remove timer))

/-- `LocTimer::start`. -/
def start (client : Nat) (timeOutInMs : BitVec 32) (c : LocTimerContainer) : LocTimerContainer :=
  match c.mTimer client with
  | some _ => c
  | none =>
      let timer : LocTimerDelegate := ⟨c.created, client, c.now.after timeOutInMs⟩
      ({ c with
        mTimer := Function.update c.mTimer client (some timer)
        created := c.created + 1 } : LocTimerContainer).sendMsg (.push timer)

/-- `LocTimerDelegate::expire`, called in a MsgTimerExpire that read `timerOfNow`. -/
def expireDelegate (timer : LocTimerDelegate) (timerOfNow : Timespec) (c : LocTimerContainer) :
    LocTimerContainer :=
  let c' : LocTimerContainer := { c with expired := c.expired ++ [(timer, timerOfNow)] }
  if c.mTimer timer.mClient = some timer then
    let (stopped, c'') := c'.stop timer.mClient
    if stopped then { c'' with timedOut := c''.timedOut ++ [timer.mClient] } else c''
  else c'

def popIfOutRanks (timerOfNow : Timespec) (c : LocTimerContainer) :
    Option LocTimerDelegate × LocTimerContainer :=
  match c.heap.peek with
  | none => (none, c)
  | some top =>
      if !outRanks ⟨0, 0, timerOfNow⟩ top then
        let (popped, heap) := c.heap.pop
        (popped, { c with heap })
      else (none, c)

/-- `MsgTimerExpire::proc` up to the end of its first round. -/
def expireProc (c : LocTimerContainer) : LocTimerContainer :=
  let (timer, heap) := c.heap.pop
  let c' : LocTimerContainer := { c with heap }
  match timer with
  | none => c'.updateSoonestTime none
  | some timer =>
      ({ c' with timerOfNow := some c.now } : LocTimerContainer).expireDelegate timer c.now

/-- One more round of its loop. -/
def expireRound (timerOfNow : Timespec) (c : LocTimerContainer) : LocTimerContainer :=
  match c.popIfOutRanks timerOfNow with
  | (some timer, c') => c'.expireDelegate timer timerOfNow
  | (none, c') => ({ c' with timerOfNow := none } : LocTimerContainer).updateSoonestTime none

/-- `LocTimerContainer::expire`, which the poll task calls when the timerfd is ready. -/
def expire (c : LocTimerContainer) : LocTimerContainer :=
  ((c.settime ⟨0, 0⟩).removePoll).sendMsg .expire

inductive Label
  | start (client : Nat) (timeOutInMs : BitVec 32)
  | stop (client : Nat)
  | advance (now : Timespec)
  | poll
  | proc
  deriving DecidableEq

def step (c : LocTimerContainer) : Label → Option LocTimerContainer
  | .start client timeOutInMs => some (c.start client timeOutInMs)
  | .stop client => some (c.stop client).2
  | .advance now => if c.now.le now then some { c with now } else none
  | .poll => if c.polled ∧ ∃ t ∈ c.armed, t.le c.now then some c.expire else none
  | .proc =>
      match c.timerOfNow with
      | some t => some (c.expireRound t)
      | none =>
          match c.queue with
          | [] => none
          | msg :: queue =>
              let c' : LocTimerContainer := { c with queue }
              match msg with
              | .push timer => some (c'.pushProc timer)
              | .remove timer => some (c'.removeProc timer)
              | .expire => some c'.expireProc

end LocTimerContainer
end Msm8974.Timer
