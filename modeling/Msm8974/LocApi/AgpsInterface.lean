import Mathlib.Logic.Function.Basic
import Msm8974.LocApi.AgpsAccounting
import Msm8974.LocApi.DSMachine

/-!
The AGPS state machines of loc_eng_data as loc_eng.cpp creates and finds them, the messages
that reach them from the modem and the daemon, and the replies of the framework, which come
in through the wrappers of loc.cpp. A machine pointer is the name of the machine; the
data-services machine is a machine of its own and only its presence counts here.
-/

namespace Msm8974.Agps
open Msm8974.Runs

def AGPS_TYPE_WWAN_ANY : Int := 3
def AGPS_TYPE_WIFI : Int := 4
def AGPS_TYPE_SUPL_ES : Int := 5

def GPS_CAPABILITY_MSB : BitVec 32 := 0x2
def GPS_CAPABILITY_MSA : BitVec 32 := 0x4

structure ATLSubscriber where
  ID : BitVec 32
  deriving DecidableEq, Repr

instance : SubscriberKind ATLSubscriber where
  equals a b := a.ID == b.ID
  waitForCloseComplete _ := false

/-- The machines that loc_eng_agps_init creates. -/
inductive NifId
  | agnss | internet | wifi
  deriving DecidableEq, Repr

inductive StateMachinePtr
  | nif (k : NifId)
  | ds
  deriving DecidableEq, Repr

inductive AtlMsg
  | openSuccess (mStateMachine : Option StateMachinePtr)
  | closed (mStateMachine : Option StateMachinePtr)
  | openFailed (mStateMachine : Option StateMachinePtr)
  deriving DecidableEq, Repr

namespace AtlMsg

def mStateMachine : AtlMsg → Option StateMachinePtr
  | .openSuccess sm | .closed sm | .openFailed sm => sm

/-- The event `proc` hands to the machine. -/
def event : AtlMsg → AgpsRsrcStatus
  | .openSuccess _ => .granted
  | .closed _ => .released
  | .openFailed _ => .denied

end AtlMsg

/-- What loc_eng itself tells the modem when no machine takes a request or a release. -/
inductive AtlStatus (κ : Type)
  | atlOpenStatus (client : κ) (agpsType : Int)
  | atlCloseStatus (client : κ)
  deriving DecidableEq

structure LocEngAgps (κ : Type) where
  agps_status_cb : Bool
  nifs : NifId → Option (AgpsStateMachine κ (Nif κ))
  ds_nif : Bool
  msgs : List AtlMsg
  log : List (AtlStatus κ)

variable {κ : Type}

def AgpsStateMachine.dropAllSubscribers {μ : Type} (m : AgpsStateMachine κ μ) :
    AgpsStateMachine κ μ :=
  { m with mSubscribers := [] }

/-- The framework was asked for a data connection of this type. -/
def Nif.requested (type : Int) (nif : Nif κ) : Bool :=
  nif.log.any fun
    | .agpsCb nifRequest => nifRequest.status = .requestAgpsDataConn && nifRequest.type = type
    | _ => false

/-- loc_eng_agps_init, with a status_cb, on an instance that has none yet. -/
def agpsInit (CAPABILITIES : BitVec 32) : LocEngAgps κ where
  agps_status_cb := true
  nifs
    | .internet => some (.new false ⟨AGPS_TYPE_WWAN_ANY, []⟩)
    | .wifi => some (.new true ⟨AGPS_TYPE_WIFI, []⟩)
    | .agnss =>
        if CAPABILITIES &&& GPS_CAPABILITY_MSA ≠ 0 ∨ CAPABILITIES &&& GPS_CAPABILITY_MSB ≠ 0 then
          some (.new false ⟨AGPS_TYPE_SUPL, []⟩)
        else none
  ds_nif := false
  msgs := []
  log := []

namespace LocEngAgps

def ptr (s : LocEngAgps κ) (k : NifId) : Option StateMachinePtr := (s.nifs k).map fun _ => .nif k

def getAgpsStateMachine (s : LocEngAgps κ) (agpsType : Int) : Option StateMachinePtr :=
  if agpsType = AGPS_TYPE_WIFI then s.ptr .wifi
  else if agpsType = AGPS_TYPE_INVALID ∨ agpsType = AGPS_TYPE_SUPL then s.ptr .agnss
  else if agpsType = AGPS_TYPE_SUPL_ES then
    if s.ds_nif then some .ds else s.ptr .agnss
  else s.ptr .internet

def update (k : NifId)
    (f : AgpsStateMachine κ (Nif κ) → AgpsStateMachine κ (Nif κ)) (s : LocEngAgps κ) :
    LocEngAgps κ :=
  { s with nifs := Function.update s.nifs k ((s.nifs k).map f) }

theorem of_update {s : LocEngAgps κ} {k k' : NifId}
    {f : AgpsStateMachine κ (Nif κ) → AgpsStateMachine κ (Nif κ)} {m' : AgpsStateMachine κ (Nif κ)}
    (h : (s.update k f).nifs k' = some m') :
    (k' = k ∧ ∃ m, s.nifs k = some m ∧ m' = f m) ∨ (k' ≠ k ∧ s.nifs k' = some m') := by
  by_cases same : k' = k
  · subst same
    obtain ⟨m, found, rfl⟩ : ∃ m, s.nifs k' = some m ∧ f m = m' := by simpa [update] using h
    exact .inl ⟨rfl, m, found, rfl⟩
  · exact .inr ⟨same, by simpa [update, same] using h⟩

def record (e : AtlStatus κ) (s : LocEngAgps κ) : LocEngAgps κ := { s with log := s.log ++ [e] }

def sendMsg (msg : AtlMsg) (s : LocEngAgps κ) : LocEngAgps κ := { s with msgs := s.msgs ++ [msg] }

variable [SubscriberKind κ]

def subscribe (client : κ) (sm : StateMachinePtr) (s : LocEngAgps κ) : LocEngAgps κ :=
  match sm with
  | .nif k => s.update k (·.subscribeRsrc ⟨client, false⟩)
  | .ds => s

def unsubscribe (client : κ) (k : NifId) (s : LocEngAgps κ) : LocEngAgps κ :=
  s.update k fun m => (m.unsubscribeRsrc ⟨client, false⟩).2

/-- Whether `unsubscribeRsrc` finds the client on the machine's list. -/
def listed (client : κ) (k : NifId) (s : LocEngAgps κ) : Bool :=
  (s.nifs k).any fun m => (m.unsubscribeRsrc ⟨client, false⟩).1

def requestATL (client : κ) (mType : Int) (s : LocEngAgps κ) : LocEngAgps κ :=
  match s.getAgpsStateMachine mType with
  | some sm => s.subscribe client sm
  | none => s.record (.atlOpenStatus client mType)

def requestSuplEs (client : κ) (s : LocEngAgps κ) : LocEngAgps κ :=
  if s.ds_nif then s
  else if (s.nifs .agnss).isSome then s.subscribe client (.nif .agnss)
  else s.record (.atlOpenStatus client AGPS_TYPE_INVALID)

/-- `onDs` says whether the data-services machine lists the client. -/
def releaseATL (client : κ) (onDs : Bool) (s : LocEngAgps κ) : LocEngAgps κ :=
  if s.listed client .agnss then s.unsubscribe client .agnss
  else if s.listed client .internet then s.unsubscribe client .internet
  else if s.ds_nif ∧ onDs then s
  else s.record (.atlCloseStatus client)

/-- The machine is not compared with NULL. -/
def reqRelBIT (client : κ) (mType : Int) (mIsReq : Bool) (s : LocEngAgps κ) :
    Option (LocEngAgps κ) :=
  match s.getAgpsStateMachine mType with
  | some (.nif k) => if mIsReq then s.subscribe client (.nif k) else s.unsubscribe client k
  | some .ds => some s
  | none => none

def reqRelWifi (client : κ) (mType : Int) (mIsReq : Bool) (s : LocEngAgps κ) : LocEngAgps κ :=
  if (s.nifs .wifi).isSome then
    if mIsReq then s.subscribe client (.nif .wifi) else s.unsubscribe client .wifi
  else s.record (.atlOpenStatus client mType)

/-- loc_eng_agps_open, loc_eng_agps_closed and loc_eng_agps_open_failed on an initialised
instance. -/
def reply (msg : Option StateMachinePtr → AtlMsg) (agpsType : Int) (s : LocEngAgps κ) :
    LocEngAgps κ :=
  if s.agps_status_cb then s.sendMsg (msg (s.getAgpsStateMachine agpsType)) else s

def locEngAgpsOpen (agpsType : Int) (apn : Option String) (s : LocEngAgps κ) : LocEngAgps κ :=
  if apn.isSome then s.reply .openSuccess agpsType else s

def locEngAgpsClosed (agpsType : Int) (s : LocEngAgps κ) : LocEngAgps κ :=
  s.reply .closed agpsType

def locEngAgpsOpenFailed (agpsType : Int) (s : LocEngAgps κ) : LocEngAgps κ :=
  s.reply .openFailed agpsType

/-- loc_agps_open and loc_agps_open_with_apniptype, which differ in the bearer. -/
def locAgpsOpen (apn : Option String) (s : LocEngAgps κ) : LocEngAgps κ :=
  s.locEngAgpsOpen AGPS_TYPE_SUPL apn

def locAgpsClosed (s : LocEngAgps κ) : LocEngAgps κ := s.locEngAgpsClosed AGPS_TYPE_SUPL

def locAgpsOpenFailed (s : LocEngAgps κ) : LocEngAgps κ := s.locEngAgpsOpenFailed AGPS_TYPE_SUPL

/-- The next queued reply reaches its machine; the pointer is used unchecked. -/
def deliver (s : LocEngAgps κ) : Option (LocEngAgps κ) :=
  match s.msgs with
  | [] => none
  | msg :: rest =>
      let s := { s with msgs := rest }
      match msg.mStateMachine with
      | some (.nif k) => some (s.update k (·.onRsrcEvent msg.event))
      | some .ds => some s
      | none => none

/-- The AGPS part of loc_eng_handle_engine_up, loc_eng_agps_reinit aside. -/
def handleEngineUp (s : LocEngAgps κ) : LocEngAgps κ :=
  if s.agps_status_cb then
    (s.update .agnss (·.dropAllSubscribers)).update .internet (·.dropAllSubscribers)
  else s

def requested (type : Int) (s : LocEngAgps κ) : Bool :=
  [NifId.agnss, .internet, .wifi].any fun k => (s.nifs k).any (·.world.requested type)

end LocEngAgps

/-- A reply answers a REQUEST that advertised the type `answers`. -/
inductive AgpsLabel (κ : Type)
  | requestATL (client : κ) (mType : Int)
  | requestSuplEs (client : κ)
  | releaseATL (client : κ) (onDs : Bool)
  | reqRelBIT (client : κ) (mType : Int) (mIsReq : Bool)
  | reqRelWifi (client : κ) (mType : Int) (mIsReq : Bool)
  | dataClientInit (ret : Int)
  | agpsOpen (answers : Int) (apn : Option String)
  | agpsClosed (answers : Int)
  | agpsOpenFailed (answers : Int)
  | deliver
  deriving DecidableEq

namespace LocEngAgps
variable [SubscriberKind κ]

def step (s : LocEngAgps κ) : AgpsLabel κ → Option (LocEngAgps κ)
  | .requestATL client mType => some (s.requestATL client mType)
  | .requestSuplEs client => some (s.requestSuplEs client)
  | .releaseATL client onDs => some (s.releaseATL client onDs)
  | .reqRelBIT client mType mIsReq => s.reqRelBIT client mType mIsReq
  | .reqRelWifi client mType mIsReq => some (s.reqRelWifi client mType mIsReq)
  | .dataClientInit ret => some (if ret = 0 then { s with ds_nif := true } else s)
  | .agpsOpen answers apn => if s.requested answers then some (s.locAgpsOpen apn) else none
  | .agpsClosed answers => if s.requested answers then some s.locAgpsClosed else none
  | .agpsOpenFailed answers => if s.requested answers then some s.locAgpsOpenFailed else none
  | .deliver => s.deliver

end LocEngAgps

/-- Any event on any of the machines, whoever sends it, and engine restarts. -/
inductive NifLabel (κ : Type)
  | op (k : NifId) (op : AgpsOp κ)
  | engineUp
  deriving DecidableEq

namespace LocEngAgps
variable [SubscriberKind κ]

def nifStep (s : LocEngAgps κ) : NifLabel κ → Option (LocEngAgps κ)
  | .op k op => if (s.nifs k).isSome then some (s.update k (·.step op)) else none
  | .engineUp => some s.handleEngineUp

end LocEngAgps
end Msm8974.Agps
