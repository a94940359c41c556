import Msm8974.Utils.LinkedList

/-!
AgpsStateMachine and its four states, from loc_eng_agps.cpp and loc_eng_agps.h.
The subscriber classes enter through `SubscriberKind`, and the virtual methods
that reach outside the machine through `AgpsVirtual`; the handlers below are the
source's, shared by the AGPS machines and the data-services machine. A pointer to
a list element, as `unsubscribeRsrc` hands it to a state, is an index.
-/

namespace Msm8974.Agps

inductive AgpsRsrcStatus
  | subscribe | unsubscribe | granted | released | denied | statusMax
  deriving DecidableEq, Repr

inductive AgpsState
  | released | pending | acquired | releasing
  deriving DecidableEq, Repr

inductive AGpsStatusValue
  | requestAgpsDataConn | releaseAgpsDataConn
  deriving DecidableEq, Repr

class SubscriberKind (κ : Type) where
  equals : κ → κ → Bool
  waitForCloseComplete : κ → Bool

/-- The virtual methods with effects outside the subscriber list: the `switch` body of
`notifyRsrcStatus`, the override of `setInactive`, `sendRsrcRequest` (given the first
active subscriber it finds), and the trace each state writes on entry. -/
class AgpsVirtual (κ : Type) (μ : Type) where
  notifyRsrcStatus : κ → AgpsRsrcStatus → μ → μ
  setInactive : κ → μ → μ
  sendRsrcRequest : AGpsStatusValue → Option κ → μ → Int × μ
  trace : AgpsState → AgpsRsrcStatus → μ → μ

structure Subscriber (κ : Type) where
  client : κ
  mIsInactive : Bool
  deriving DecidableEq

inductive NotificationGroup
  | none | broadcastAll | broadcastActive | broadcastInactive
  deriving DecidableEq, Repr

structure Notification (κ : Type) where
  rcver : Option (Subscriber κ)
  groupID : NotificationGroup
  rsrcStatus : AgpsRsrcStatus
  postNotifyDelete : Bool

structure AgpsStateMachine (κ μ : Type) where
  mStatePtr : AgpsState
  mSubscribers : List (Subscriber κ)
  mEnforceSingleSubscriber : Bool
  world : μ

variable {κ μ : Type}

def Notification.broadcast (groupID : NotificationGroup) (status : AgpsRsrcStatus)
    (deleteAfterwards : Bool) : Notification κ :=
  ⟨none, groupID, status, deleteAfterwards⟩

def Notification.to (subscriber : Subscriber κ) (status : AgpsRsrcStatus)
    (deleteAfterwards : Bool) : Notification κ :=
  ⟨some subscriber, .none, status, deleteAfterwards⟩

def AgpsRsrcStatus.notified : AgpsRsrcStatus → Bool
  | .unsubscribe | .granted | .released | .denied => true
  | .subscribe | .statusMax => false

section Subscribers
variable [SubscriberKind κ]

namespace Subscriber

def isInactive (s : Subscriber κ) : Bool := s.mIsInactive

def clone (s : Subscriber κ) : Subscriber κ := ⟨s.client, false⟩

def setInactive (s : Subscriber κ) : Subscriber κ :=
  -- only the classes that wait for the close to complete override the empty base method
  if SubscriberKind.waitForCloseComplete s.client then { s with mIsInactive := true } else s

def equals (s t : Subscriber κ) : Bool := SubscriberKind.equals s.client t.client

def forMe (s : Subscriber κ) (n : Notification κ) : Bool :=
  match n.rcver with
  | some rcver => s.equals rcver
  | none =>
      match n.groupID with
      | .broadcastAll => true
      | .broadcastActive => !s.isInactive
      | .broadcastInactive => s.isInactive
      | .none => false

end Subscriber

variable [AgpsVirtual κ μ]

/-- `notifyRsrcStatus` of every subscriber class: nothing unless the notification is
for this subscriber, and `false` from the `default` branch of the switch. -/
def Subscriber.notifyRsrcStatus (s : Subscriber κ) (n : Notification κ) (w : μ) : Bool × μ :=
  if s.forMe n && n.rsrcStatus.notified then
    (true, AgpsVirtual.notifyRsrcStatus s.client n.rsrcStatus w)
  else (false, w)

def notifySubscriber (n : Notification κ) (s : Subscriber κ) (w : μ) : Bool × μ :=
  let (notify, w') := s.notifyRsrcStatus n w
  (notify && n.postNotifyDelete, w')

end Subscribers

namespace AgpsStateMachine

def new (enforceSingleSubscriber : Bool) (world : μ) : AgpsStateMachine κ μ :=
  ⟨.released, [], enforceSingleSubscriber, world⟩

def hasSubscribers (m : AgpsStateMachine κ μ) : Bool := !m.mSubscribers.isEmpty

variable [SubscriberKind κ]

def activeSubscriber (m : AgpsStateMachine κ μ) : Option (Subscriber κ) :=
  m.mSubscribers.find? fun s => s.forMe (.broadcast .broadcastActive .statusMax false)

def hasActiveSubscribers (m : AgpsStateMachine κ μ) : Bool := m.activeSubscriber.isSome

def addSubscriber (subscriber : Subscriber κ) (m : AgpsStateMachine κ μ) :
    AgpsStateMachine κ μ :=
  match m.mSubscribers.find? fun s => s.forMe (.to subscriber .statusMax false) with
  | some _ => m
  | none => { m with mSubscribers := linkedListAdd m.mSubscribers subscriber.clone }

variable [AgpsVirtual κ μ]

/-- The loop of `notifySubscribers` under `postNotifyDelete`: each search removes one
node, so the list's length bounds the number of rounds. -/
def notifyLoop (n : Notification κ) : Nat → List (Subscriber κ) → μ → List (Subscriber κ) × μ
  | 0, list, w => (list, w)
  | rounds + 1, list, w =>
      match linkedListSearch (notifySubscriber n) true list w with
      | (some _, list', w') => notifyLoop n rounds list' w'
      | (none, list', w') => (list', w')

def notifySubscribers (n : Notification κ) (m : AgpsStateMachine κ μ) : AgpsStateMachine κ μ :=
  if n.postNotifyDelete then
    let (list, w) := notifyLoop n (m.mSubscribers.length + 1) m.mSubscribers m.world
    { m with mSubscribers := list, world := w }
  else
    let (_, list, w) := linkedListSearch (notifySubscriber n) false m.mSubscribers m.world
    { m with mSubscribers := list, world := w }

def sendRsrcRequest (action : AGpsStatusValue) (m : AgpsStateMachine κ μ) :
    Int × AgpsStateMachine κ μ :=
  let (ret, w) := AgpsVirtual.sendRsrcRequest action (m.activeSubscriber.map (·.client)) m.world
  (ret, { m with world := w })

def setInactiveAt (i : Nat) (subscriber : Subscriber κ) (m : AgpsStateMachine κ μ) :
    AgpsStateMachine κ μ :=
  { m with
    mSubscribers := m.mSubscribers.modify i Subscriber.setInactive
    world := AgpsVirtual.setInactive subscriber.client m.world }

def dropSubscriber (i : Nat) (m : AgpsStateMachine κ μ) : AgpsStateMachine κ μ :=
  match m.mSubscribers[i]? with
  | none => m
  | some subscriber =>
      if SubscriberKind.waitForCloseComplete subscriber.client then
        m.setInactiveAt i subscriber
      else m.notifySubscribers (.to subscriber .unsubscribe true)

def releaseIfUnused (m : AgpsStateMachine κ μ) : AgpsStateMachine κ μ :=
  if !m.hasSubscribers then
    (({ m with mStatePtr := .released } : AgpsStateMachine κ μ).sendRsrcRequest
      .releaseAgpsDataConn).2
  else if !m.hasActiveSubscribers then
    (({ m with mStatePtr := .releasing } : AgpsStateMachine κ μ).sendRsrcRequest
      .releaseAgpsDataConn).2
  else m

inductive RsrcEvent (κ : Type)
  | subscribe (subscriber : Subscriber κ)
  | unsubscribe (i : Nat)
  | granted
  | released
  | denied

def RsrcEvent.status : RsrcEvent κ → AgpsRsrcStatus
  | .subscribe _ => .subscribe
  | .unsubscribe _ => .unsubscribe
  | .granted => .granted
  | .released => .released
  | .denied => .denied

def releasedOnRsrcEvent (event : RsrcEvent κ) (m : AgpsStateMachine κ μ) :
    AgpsStateMachine κ μ :=
  match event with
  | .subscribe subscriber =>
      let (ret, m') := (m.addSubscriber subscriber).sendRsrcRequest .requestAgpsDataConn
      -- a start that failed is to be retried from Released
      if ret = 0 then { m' with mStatePtr := .pending } else m'
  | .unsubscribe i =>
      match m.mSubscribers[i]? with
      | none => m
      | some subscriber =>
          { m with world := (subscriber.notifyRsrcStatus (.to subscriber .unsubscribe false)
              m.world).2 }
  | .granted | .released | .denied => m

def pendingOnRsrcEvent (event : RsrcEvent κ) (m : AgpsStateMachine κ μ) :
    AgpsStateMachine κ μ :=
  match event with
  | .subscribe subscriber => m.addSubscriber subscriber
  | .unsubscribe i => (m.dropSubscriber i).releaseIfUnused
  | .granted =>
      ({ m with mStatePtr := .acquired } : AgpsStateMachine κ μ).notifySubscribers
        (.broadcast .broadcastActive .granted false)
  | .released => m
  | .denied =>
      ({ m with mStatePtr := .released } : AgpsStateMachine κ μ).notifySubscribers
        (.broadcast .broadcastAll .denied true)

def acquiredOnRsrcEvent (event : RsrcEvent κ) (m : AgpsStateMachine κ μ) :
    AgpsStateMachine κ μ :=
  match event with
  | .subscribe subscriber =>
      -- granted right away, and only then added
      ({ m with world := (subscriber.notifyRsrcStatus (.to subscriber .granted false)
          m.world).2 } : AgpsStateMachine κ μ).addSubscriber subscriber
  | .unsubscribe i => (m.dropSubscriber i).releaseIfUnused
  | .granted => m
  | .released =>
      ({ m with mStatePtr := .released } : AgpsStateMachine κ μ).notifySubscribers
        (.broadcast .broadcastAll .released true)
  | .denied => m

/-- AgpsReleasingState::onRsrcEvent. RELEASED and DENIED share a branch, and the result
of the new request is not looked at. -/
def releasingOnRsrcEvent (event : RsrcEvent κ) (m : AgpsStateMachine κ μ) :
    AgpsStateMachine κ μ :=
  match event with
  | .subscribe subscriber => m.addSubscriber subscriber
  | .unsubscribe i =>
      let m' := m.dropSubscriber i
      if !m'.hasSubscribers then { m' with mStatePtr := .released } else m'
  | .granted => m
  | .released | .denied =>
      let m' := m.notifySubscribers (.broadcast .broadcastInactive event.status true)
      if m'.hasActiveSubscribers then
        (({ m' with mStatePtr := .pending } : AgpsStateMachine κ μ).sendRsrcRequest
          .requestAgpsDataConn).2
      else { m' with mStatePtr := .released }

def dispatch (event : RsrcEvent κ) (m : AgpsStateMachine κ μ) : AgpsStateMachine κ μ :=
  let m' := { m with world := AgpsVirtual.trace (κ := κ) m.mStatePtr event.status m.world }
  match m.mStatePtr with
  | .released => releasedOnRsrcEvent event m'
  | .pending => pendingOnRsrcEvent event m'
  | .acquired => acquiredOnRsrcEvent event m'
  | .releasing => releasingOnRsrcEvent event m'

def subscribeRsrc (subscriber : Subscriber κ) (m : AgpsStateMachine κ μ) :
    AgpsStateMachine κ μ :=
  if m.mEnforceSingleSubscriber && m.hasSubscribers then
    { m with world :=
        (notifySubscriber (.broadcast .broadcastAll .denied true) subscriber m.world).2 }
  else m.dispatch (.subscribe subscriber)

def unsubscribeRsrc (subscriber : Subscriber κ) (m : AgpsStateMachine κ μ) :
    Bool × AgpsStateMachine κ μ :=
  match m.mSubscribers.findIdx? fun s => s.forMe (.to subscriber .statusMax false) with
  | some i => (true, m.dispatch (.unsubscribe i))
  | none => (false, m)

def onRsrcEvent (event : AgpsRsrcStatus) (m : AgpsStateMachine κ μ) : AgpsStateMachine κ μ :=
  match event with
  | .granted => m.dispatch .granted
  | .released => m.dispatch .released
  | .denied => m.dispatch .denied
  | .subscribe | .unsubscribe | .statusMax => m

end AgpsStateMachine
end Msm8974.Agps
