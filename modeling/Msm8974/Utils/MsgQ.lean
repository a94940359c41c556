import Msm8974.Library.Fifo
import Msm8974.Library.Runs
import Msm8974.Library.Traces
import Msm8974.Utils.LinkedList

/-!
msg_q.cpp. The functions come first, each as what it does while it holds list_mutex; then any
number of producers and consumers that call them in any order. A consumer blocked in
pthread_cond_wait has given up the mutex and takes its next step when it is woken, for
whatever reason. Every call of msg_q_snd is numbered, which tells equal messages apart.
-/

namespace Msm8974.MsgQ
open Msm8974.Runs Msm8974.Traces Msm8974.Fifo

inductive LinkedListErrType
  | success | failureGeneral | invalidParameter | invalidHandle | unavailableResource
  | insufficientBuffer
  deriving DecidableEq, Repr

inductive MsqQErrType
  | success | failureGeneral | invalidParameter | invalidHandle | unavailableResource
  | insufficientBuffer
  deriving DecidableEq, Repr

def convertLinkedListErrType : LinkedListErrType → MsqQErrType
  | .success => .success
  | .invalidParameter => .invalidParameter
  | .invalidHandle => .invalidHandle
  | .unavailableResource => .unavailableResource
  | .insufficientBuffer => .insufficientBuffer
  | .failureGeneral => .failureGeneral

variable {M D C : Type}

structure ListElement (M D : Type) where
  data_ptr : M
  dealloc_func : Option D
  deriving DecidableEq, Repr

/-- The queue behind a handle that is not NULL. -/
structure Queue (M D : Type) where
  msg_list : List (ListElement M D)
  unblocked : Bool

def init : Queue M D := ⟨[], false⟩

/-- linked_list_add with the message of msg_q_snd, where malloc may fail. -/
def add (msg_obj : M) (dealloc : Option D) (allocated : Bool) (q : Queue M D) :
    LinkedListErrType × Queue M D :=
  if allocated then
    (.success, { q with msg_list := linkedListAdd q.msg_list ⟨msg_obj, dealloc⟩ })
  else (.failureGeneral, q)

def snd (msg_q_data : Option (Queue M D)) (msg_obj : Option M) (dealloc : Option D)
    (allocated : Bool) : MsqQErrType × Option (Queue M D) :=
  match msg_q_data, msg_obj with
  | none, _ => (.invalidHandle, none)
  | some q, none => (.invalidParameter, some q)
  | some q, some msg_obj =>
      if q.unblocked then (.unavailableResource, some q)
      else
        let (rv, q) := add msg_obj dealloc allocated q
        (convertLinkedListErrType rv, some q)

/-- What msg_q_rcv gives back: its result, the message it copied out and the queue. -/
structure Received (M D : Type) where
  rv : MsqQErrType
  msg_obj : Option M
  q : Option (Queue M D)

/-- The loop of msg_q_rcv and what follows it; `none` is another pthread_cond_wait. -/
def rcvLoop (q : Queue M D) : Option (Received M D) :=
  if linkedListEmpty q.msg_list && !q.unblocked then none
  else
    match linkedListRemove q.msg_list with
    | none => some ⟨convertLinkedListErrType .unavailableResource, none, some q⟩
    | some (elem, msg_list) =>
        some ⟨convertLinkedListErrType .success, some elem.data_ptr,
          some { q with msg_list := msg_list }⟩

/-- `msg_obj` says that there is a place to copy the message to. -/
def rcv (msg_q_data : Option (Queue M D)) (msg_obj : Bool) : Option (Received M D) :=
  match msg_q_data with
  | none => some ⟨.invalidHandle, none, none⟩
  | some q =>
      if !msg_obj then some ⟨.invalidParameter, none, some q⟩
      else if q.unblocked then some ⟨.unavailableResource, none, some q⟩
      else rcvLoop q

/-- The calls linked_list_flush makes, from the head on. -/
def deallocs (msg_list : List (ListElement M D)) : List (D × M) :=
  msg_list.filterMap fun elem => elem.dealloc_func.map (·, elem.data_ptr)

def flush (msg_q_data : Option (Queue M D)) :
    MsqQErrType × List (D × M) × Option (Queue M D) :=
  match msg_q_data with
  | none => (.invalidHandle, [], none)
  | some q =>
      (convertLinkedListErrType .success, deallocs q.msg_list, some { q with msg_list := [] })

def unblock (msg_q_data : Option (Queue M D)) : MsqQErrType × Option (Queue M D) :=
  match msg_q_data with
  | none => (.invalidHandle, none)
  | some q =>
      if q.unblocked then (.unavailableResource, some q)
      else (.success, some { q with unblocked := true })

/-- The handle is NULL afterwards. -/
def destroy (q : Queue M D) : MsqQErrType × List (D × M) × Option (Queue M D) :=
  (.success, deallocs q.msg_list, none)

/-- A call of msg_q_snd. -/
structure Send (M D : Type) where
  number : Nat
  msg_obj : M
  dealloc : Option D
  deriving DecidableEq, Repr

/-- What the callers see, and which messages a flush or a destroy takes off the list. -/
inductive QEvent (M D C : Type)
  | snd (msg : Option (Send M D)) (rv : MsqQErrType)
  | rcv (consumer : C) (msg : Option (Send M D)) (rv : MsqQErrType)
  | removed (msg : Send M D)
  | dealloc (dealloc : D) (msg : Send M D)
  | unblock (rv : MsqQErrType)
  deriving DecidableEq

structure World (M D C : Type) where
  q : Option (Queue (Send M D) D)
  waiting : C → Bool
  sends : Nat
  log : List (QEvent M D C)

/-- A producer, a consumer that enters msg_q_rcv or is woken in it, and the rest. -/
inductive Label (M D C : Type)
  | snd (msg_obj : Option M) (dealloc : Option D) (allocated : Bool)
  | rcv (consumer : C) (msg_obj : Bool)
  | wake (consumer : C)
  | flush
  | unblock
  | destroy
  deriving DecidableEq

namespace World
variable [DecidableEq C]

def setWaiting (consumer : C) (waits : Bool) (w : World M D C) : World M D C :=
  { w with waiting := Function.update w.waiting consumer waits }

/-- The consumer returns from msg_q_rcv, or goes to wait. -/
def finish (consumer : C) (result : Option (Received (Send M D) D)) (w : World M D C) :
    World M D C :=
  match result with
  | none => w.setWaiting consumer true
  | some ⟨rv, msg, q⟩ =>
      { w.setWaiting consumer false with q := q, log := w.log ++ [.rcv consumer msg rv] }

/-- The list is emptied with these calls of dealloc functions. -/
def empty (calls : List (D × Send M D)) (q' : Option (Queue (Send M D) D)) (w : World M D C) :
    World M D C :=
  let gone := (w.q.map (·.msg_list)).getD []
  { w with
    q := q'
    log := w.log ++ gone.map (.removed ·.data_ptr) ++ calls.map fun call => .dealloc call.1 call.2 }

end World

def step [DecidableEq C] (w : World M D C) : Label M D C → Option (World M D C)
  | .snd msg_obj dealloc allocated =>
      let msg := msg_obj.map (⟨w.sends, ·, dealloc⟩)
      let (rv, q) := snd w.q msg dealloc allocated
      some { w with q := q, sends := w.sends + 1, log := w.log ++ [.snd msg rv] }
  | .rcv consumer msg_obj =>
      if w.waiting consumer then none else some (w.finish consumer (rcv w.q msg_obj))
  | .wake consumer =>
      match w.q with
      | some q => if w.waiting consumer then some (w.finish consumer (rcvLoop q)) else none
      | none => none
  | .flush =>
      let (_, calls, q) := flush w.q
      some (w.empty calls q)
  | .unblock =>
      let (rv, q) := unblock w.q
      some { w with q := q, log := w.log ++ [.unblock rv] }
  | .destroy =>
      match w.q with
      | some q =>
          let (_, calls, q) := destroy q
          some (w.empty calls q)
      | none => none

/-- msg_q_init. -/
structure IsInit (w : World M D C) : Prop where
  q : w.q = some init
  waiting : ∀ consumer, w.waiting consumer = false
  log : w.log = []

end Msm8974.MsgQ
