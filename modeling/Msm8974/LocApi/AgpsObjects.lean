import Mathlib.Logic.Function.Basic
import Msm8974.LocApi.AgpsNotification

/-!
AgpsStateMachine over the objects its list points to. A Subscriber is an address, which is
looked up each time the code goes through a pointer; a notification holds the address of its
receiver. What is read through a pointer to a deleted object is not given a value: the reading
is recorded, and the predicate that made it rejects.
-/

namespace Msm8974.Agps
variable {κ μ : Type}

inductive MemoryEvent
  | notified (s : Nat)
  | deleted (s : Nat)
  | usedDeleted (s : Nat)
  deriving DecidableEq

structure Memory (κ μ : Type) where
  objects : Nat → Option (Subscriber κ)
  world : μ
  log : List MemoryEvent

/-- Notification with its pointer. -/
structure NotificationPtr where
  rcver : Option Nat
  groupID : NotificationGroup
  rsrcStatus : AgpsRsrcStatus
  postNotifyDelete : Bool

def NotificationPtr.broadcast (groupID : NotificationGroup) (status : AgpsRsrcStatus)
    (deleteAfterwards : Bool) : NotificationPtr :=
  ⟨none, groupID, status, deleteAfterwards⟩

def NotificationPtr.to (subscriber : Nat) (status : AgpsRsrcStatus) (deleteAfterwards : Bool) :
    NotificationPtr :=
  ⟨some subscriber, .none, status, deleteAfterwards⟩

namespace Memory

def record (e : MemoryEvent) (mem : Memory κ μ) : Memory κ μ := { mem with log := mem.log ++ [e] }

/-- `delete s` -/
def delete (s : Nat) (mem : Memory κ μ) : Memory κ μ :=
  match mem.objects s with
  | some _ => { mem with objects := Function.update mem.objects s none }.record (.deleted s)
  | none => mem.record (.usedDeleted s)

def read (s : Nat) (mem : Memory κ μ) : Except Nat (Subscriber κ) :=
  match mem.objects s with
  | some subscriber => .ok subscriber
  | none => .error s

/-- The notification as forMe() sees it, through the pointer to its receiver. -/
def deref (n : NotificationPtr) (mem : Memory κ μ) : Except Nat (Notification κ) :=
  match n.rcver with
  | none => .ok ⟨none, n.groupID, n.rsrcStatus, n.postNotifyDelete⟩
  | some rcver => do
      let subscriber ← mem.read rcver
      return ⟨some subscriber, n.groupID, n.rsrcStatus, n.postNotifyDelete⟩

/-- What a method of the subscriber `s` finds when it is called with `n`. -/
def view (n : NotificationPtr) (s : Nat) (mem : Memory κ μ) :
    Except Nat (Subscriber κ × Notification κ) := do
  let s1 ← mem.read s
  let notification ← mem.deref n
  return (s1, notification)

variable [SubscriberKind κ]

def hasSubscriber (n : NotificationPtr) (s : Nat) (mem : Memory κ μ) : Bool × Memory κ μ :=
  match mem.view n s with
  | .ok (s1, notification) => (s1.forMe notification, mem)
  | .error a => (false, mem.record (.usedDeleted a))

variable [AgpsVirtual κ μ]

def notifySubscriber (n : NotificationPtr) (s : Nat) (mem : Memory κ μ) : Bool × Memory κ μ :=
  match mem.view n s with
  | .ok (s1, notification) =>
      let (notify, w) := s1.notifyRsrcStatus notification mem.world
      let mem := { mem with world := w }
      (notify && n.postNotifyDelete, if notify then mem.record (.notified s) else mem)
  | .error a => (false, mem.record (.usedDeleted a))

/-- The loop of `notifySubscribers`: what a search removes is deleted. -/
def notifyLoop (n : NotificationPtr) : Nat → List Nat → Memory κ μ → List Nat × Memory κ μ
  | 0, list, mem => (list, mem)
  | rounds + 1, list, mem =>
      match linkedListSearch (notifySubscriber n) true list mem with
      | (some s, list, mem) => notifyLoop n rounds list (mem.delete s)
      | (none, list, mem) => (list, mem)

end Memory

structure ObjectMachine (κ μ : Type) where
  mStatePtr : AgpsState
  mSubscribers : List Nat
  mEnforceSingleSubscriber : Bool
  memory : Memory κ μ

namespace ObjectMachine

def hasSubscribers (m : ObjectMachine κ μ) : Bool := !m.mSubscribers.isEmpty

variable [SubscriberKind κ]

/-- A search of hasSubscriber() that leaves the list as it is. -/
def findSubscriber (n : NotificationPtr) (m : ObjectMachine κ μ) :
    Option Nat × ObjectMachine κ μ :=
  let (s, _, memory) := linkedListSearch (Memory.hasSubscriber n) false m.mSubscribers m.memory
  (s, { m with memory })

def hasActiveSubscribers (m : ObjectMachine κ μ) : Bool × ObjectMachine κ μ :=
  let (s, m) := m.findSubscriber (.broadcast .broadcastActive .statusMax false)
  (s.isSome, m)

variable [AgpsVirtual κ μ]

def notifySubscribers (n : NotificationPtr) (m : ObjectMachine κ μ) : ObjectMachine κ μ :=
  if n.postNotifyDelete then
    let (list, memory) :=
      Memory.notifyLoop n (m.mSubscribers.length + 1) m.mSubscribers m.memory
    { m with mSubscribers := list, memory }
  else
    let (_, list, memory) :=
      linkedListSearch (Memory.notifySubscriber n) false m.mSubscribers m.memory
    { m with mSubscribers := list, memory }

def sendRsrcRequest (action : AGpsStatusValue) (m : ObjectMachine κ μ) : ObjectMachine κ μ :=
  let (s, m) := m.findSubscriber (.broadcast .broadcastActive .statusMax false)
  let client := (s.bind m.memory.objects).map (·.client)
  { m with memory :=
      { m.memory with world := (AgpsVirtual.sendRsrcRequest action client m.memory.world).2 } }

/-- The branch that the three states share for RSRC_UNSUBSCRIBE. -/
def dropSubscriber (s : Nat) (m : ObjectMachine κ μ) : ObjectMachine κ μ :=
  match m.memory.objects s with
  | none => { m with memory := m.memory.record (.usedDeleted s) }
  | some subscriber =>
      if SubscriberKind.waitForCloseComplete subscriber.client then
        { m with memory :=
            { m.memory with
              objects := Function.update m.memory.objects s (some subscriber.setInactive)
              world := AgpsVirtual.setInactive subscriber.client m.memory.world } }
      else m.notifySubscribers (.to s .unsubscribe true)

def releaseIfUnused (m : ObjectMachine κ μ) : ObjectMachine κ μ :=
  if !m.hasSubscribers then
    ({ m with mStatePtr := .released } : ObjectMachine κ μ).sendRsrcRequest .releaseAgpsDataConn
  else
    let (active, m) := m.hasActiveSubscribers
    if !active then
      ({ m with mStatePtr := .releasing } : ObjectMachine κ μ).sendRsrcRequest
        .releaseAgpsDataConn
    else m

/-- RSRC_UNSUBSCRIBE of a list element in each state. -/
def onUnsubscribe (s : Nat) (m : ObjectMachine κ μ) : ObjectMachine κ μ :=
  let m := { m with memory := { m.memory with
    world := AgpsVirtual.trace (κ := κ) m.mStatePtr .unsubscribe m.memory.world } }
  match m.mStatePtr with
  | .released =>
      -- the result of the virtual method is not looked at
      { m with memory := (Memory.notifySubscriber (.to s .unsubscribe false) s m.memory).2 }
  | .pending | .acquired => (m.dropSubscriber s).releaseIfUnused
  | .releasing =>
      let m := m.dropSubscriber s
      if !m.hasSubscribers then { m with mStatePtr := .released } else m

/-- The request is an object of the caller. -/
def unsubscribeRsrc (request : Nat) (m : ObjectMachine κ μ) : Bool × ObjectMachine κ μ :=
  match m.findSubscriber (.to request .statusMax false) with
  | (some s, m) => (true, m.onUnsubscribe s)
  | (none, m) => (false, m)

/-- The machine without its memory. -/
def toMachine (m : ObjectMachine κ μ) : AgpsStateMachine κ μ where
  mStatePtr := m.mStatePtr
  mSubscribers := m.mSubscribers.filterMap m.memory.objects
  mEnforceSingleSubscriber := m.mEnforceSingleSubscriber
  world := m.memory.world

end ObjectMachine
end Msm8974.Agps
