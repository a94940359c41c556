import Msm8974.LocApi.AgpsNotification

/-!
The base AgpsStateMachine, whose requests go to the framework's agps_cb. The world
of the machine records, oldest first, what leaves it: the notification each
subscriber gets, the agps_cb callbacks, and every event a state is entered with.
-/

namespace Msm8974.Agps

structure AGpsExtStatus (κ : Type) where
  type : Int
  status : AGpsStatusValue
  subscriber : Option κ
  deriving DecidableEq

inductive NifEvent (κ : Type)
  | onRsrcEvent (state : AgpsState) (event : AgpsRsrcStatus)
  | notified (client : κ) (status : AgpsRsrcStatus)
  | agpsCb (nifRequest : AGpsExtStatus κ)
  deriving DecidableEq

structure Nif (κ : Type) where
  mType : Int
  log : List (NifEvent κ)

variable {κ : Type}

def Nif.record (e : NifEvent κ) (nif : Nif κ) : Nif κ := { nif with log := nif.log ++ [e] }

/-- `AgpsStateMachine::sendRsrcRequest`: a request is sent on only while an active
subscriber is found, a release only while none is. -/
instance : AgpsVirtual κ (Nif κ) where
  notifyRsrcStatus client status nif := nif.record (.notified client status)
  setInactive _ nif := nif
  sendRsrcRequest action s nif :=
    if s.isNone == decide (action = .releaseAgpsDataConn) then
      (0, nif.record (.agpsCb ⟨nif.mType, action, s⟩))
    else (0, nif)
  trace state event nif := nif.record (.onRsrcEvent state event)

inductive AgpsOp (κ : Type)
  | subscribe (client : κ)
  | unsubscribe (client : κ)
  | event (status : AgpsRsrcStatus)
  deriving DecidableEq

namespace AgpsStateMachine
variable [SubscriberKind κ]

def step (m : AgpsStateMachine κ (Nif κ)) : AgpsOp κ → AgpsStateMachine κ (Nif κ)
  | .subscribe client => m.subscribeRsrc ⟨client, false⟩
  | .unsubscribe client => (m.unsubscribeRsrc ⟨client, false⟩).2
  | .event status => m.onRsrcEvent status

def exec (enforceSingleSubscriber : Bool) (mType : Int) (ops : List (AgpsOp κ)) :
    AgpsStateMachine κ (Nif κ) :=
  ops.foldl step (new enforceSingleSubscriber ⟨mType, []⟩)

end AgpsStateMachine
end Msm8974.Agps
