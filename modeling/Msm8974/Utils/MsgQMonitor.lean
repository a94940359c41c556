import Msm8974.Utils.ListMemory

/-!
msg_q.cpp on the memory of linked_list.cpp, with its condition variable. A consumer that finds the
list empty is blocked in pthread_cond_wait until a signal, a broadcast or no reason at all releases
it; it then waits for list_mutex and looks again. What a thread does while it holds list_mutex is
one step, which is undefined where linked_list.cpp follows a pointer to no element.
-/

namespace Msm8974.MsgQ
open Chains ListMemory

variable {π M D C : Type}

/-- convert_linked_list_err_type on the int that linked_list.cpp returned. -/
def convert : Int → MsqQErrType
  | 0 => .success
  | -2 => .invalidParameter
  | -3 => .invalidHandle
  | -4 => .unavailableResource
  | -5 => .insufficientBuffer
  | _ => .failureGeneral

structure MsgQData (π M D : Type) where
  msg_list : Memory π (Send M D) D Unit
  unblocked : Bool

/-- msg_q_init, where nothing fails. -/
def msgQInit (heap : Heap π (ListElement (Send M D) D)) : MsgQData π M D :=
  ⟨((Memory.initial heap ()).linkedListInit true true).2, false⟩

/-- The consumers in `list_cond` are blocked on the condition variable, those in `woken` were
released from it and wait for list_mutex. -/
structure Monitor (π M D C : Type) where
  msg_q_data : Option (MsgQData π M D)
  list_cond : List C
  woken : List C
  sends : Nat
  log : List (QEvent M D C)

/-- `malloc` is the answer of malloc() and `woken` the consumer that pthread_cond_signal releases;
it may release more, as pthread_cond_wait may return for no reason. -/
inductive Call (π M D C : Type)
  | snd (msg_obj : Option M) (dealloc : Option D) (malloc : Option π) (woken : Option C)
  | rcv (consumer : C) (msg_obj : Bool)
  | wake (consumer : C)
  | spurious (consumer : C)
  | flush
  | unblock
  | destroy
deriving DecidableEq

/-- The elements from the head on. -/
def elements (m : Memory π (Send M D) D Unit) : List (ListElement (Send M D) D) :=
  match m.list_data with
  | none => []
  | some p_list => readBack Node.next m.heap m.allocated p_list.head

namespace Monitor

def initial (heap : Heap π (ListElement (Send M D) D)) : Monitor π M D C :=
  ⟨some (msgQInit heap), [], [], 0, []⟩

def report (e : QEvent M D C) (w : Monitor π M D C) : Monitor π M D C :=
  { w with log := w.log ++ [e] }

/-- The list is emptied by the calls of dealloc functions that it notes in the meantime. -/
def emptied (before after : Memory π (Send M D) D Unit) (w : Monitor π M D C) :
    Monitor π M D C :=
  { w with
    log := w.log ++ (elements before).map (.removed ·.data_ptr) ++
      (after.deallocs.drop before.deallocs.length).map fun call => .dealloc call.1 call.2 }

variable [DecidableEq π] [DecidableEq C]

def signal (woken : Option C) (w : Monitor π M D C) : Monitor π M D C :=
  match woken with
  | none => w
  | some consumer =>
      { w with list_cond := w.list_cond.erase consumer, woken := w.woken ++ [consumer] }

def broadcast (w : Monitor π M D C) : Monitor π M D C :=
  { w with list_cond := [], woken := w.woken ++ w.list_cond }

def snd (msg_obj : Option M) (dealloc : Option D) (malloc : Option π) (woken : Option C)
    (w : Monitor π M D C) : Option (Monitor π M D C) :=
  let msg : Option (Send M D) := msg_obj.map (⟨w.sends, ·, dealloc⟩)
  let numbered := { w with sends := w.sends + 1 }
  match w.msg_q_data, msg with
  | none, _ => some (numbered.report (.snd msg .invalidHandle))
  | some _, none => some (numbered.report (.snd msg .invalidParameter))
  | some q, some _ =>
      if q.unblocked then some (numbered.report (.snd msg .unavailableResource))
      else do
        let (reply, msg_list) ← q.msg_list.linkedListAdd msg dealloc malloc
        let added := { numbered with msg_q_data := some { q with msg_list } }
        return (added.signal woken).report (.snd msg (convert reply.rv))

/-- The loop of msg_q_rcv and what follows it. -/
def rcvLoop (consumer : C) (q : MsgQData π M D) (w : Monitor π M D C) :
    Option (Monitor π M D C) :=
  if q.msg_list.linkedListEmpty.rv ≠ 0 ∧ q.unblocked = false then
    some { w with list_cond := w.list_cond ++ [consumer] }
  else do
    let (reply, msg_list) ← q.msg_list.linkedListRemove true
    let removed := { w with msg_q_data := some { q with msg_list } }
    return removed.report (.rcv consumer reply.out.join (convert reply.rv))

def rcv (consumer : C) (msg_obj : Bool) (w : Monitor π M D C) : Option (Monitor π M D C) :=
  match w.msg_q_data with
  | none => some (w.report (.rcv consumer none .invalidHandle))
  | some q =>
      if !msg_obj then some (w.report (.rcv consumer none .invalidParameter))
      else if q.unblocked then some (w.report (.rcv consumer none .unavailableResource))
      else w.rcvLoop consumer q

def flush (w : Monitor π M D C) : Option (Monitor π M D C) :=
  match w.msg_q_data with
  | none => some w
  | some q => do
      let (_, msg_list) ← q.msg_list.linkedListFlush
      return { w.emptied q.msg_list msg_list with msg_q_data := some { q with msg_list } }

def unblock (w : Monitor π M D C) : Monitor π M D C :=
  match w.msg_q_data with
  | none => w.report (.unblock .invalidHandle)
  | some q =>
      if q.unblocked then w.report (.unblock .unavailableResource)
      else
        let unblocked := { w with msg_q_data := some { q with unblocked := true } }
        unblocked.broadcast.report (.unblock .success)

/-- The handle is not checked. -/
def destroy (w : Monitor π M D C) : Option (Monitor π M D C) := do
  let q ← w.msg_q_data
  let (_, msg_list) ← q.msg_list.linkedListDestroy true
  return { w.emptied q.msg_list msg_list with msg_q_data := none }

def act (w : Monitor π M D C) : Call π M D C → Option (Monitor π M D C)
  | .snd msg_obj dealloc malloc woken => w.snd msg_obj dealloc malloc woken
  | .rcv consumer msg_obj => w.rcv consumer msg_obj
  | .wake consumer => do
      let q ← w.msg_q_data
      { w with woken := w.woken.erase consumer }.rcvLoop consumer q
  | .spurious consumer => some (w.signal (some consumer))
  | .flush => w.flush
  | .unblock => some w.unblock
  | .destroy => w.destroy

omit [DecidableEq π] [DecidableEq C] in
/-- malloc() gives memory that is not allocated, pthread_cond_signal releases a consumer if one is
blocked, and the queue is destroyed once, when nobody is in msg_q_rcv. -/
def Enabled (w : Monitor π M D C) : Call π M D C → Prop
  | .snd _ _ malloc woken =>
      (∀ q ∈ w.msg_q_data, ∀ elem ∈ malloc, (q.msg_list.heap elem).isNone) ∧
        (woken = none → w.list_cond = []) ∧ ∀ consumer ∈ woken, consumer ∈ w.list_cond
  | .rcv consumer _ => consumer ∉ w.list_cond ∧ consumer ∉ w.woken
  | .wake consumer => consumer ∈ w.woken
  | .spurious consumer => consumer ∈ w.list_cond
  | .flush | .unblock => True
  | .destroy => w.msg_q_data.isSome ∧ w.list_cond = [] ∧ w.woken = []

omit [DecidableEq π] in
instance (w : Monitor π M D C) : (call : Call π M D C) → Decidable (w.Enabled call)
  | .snd .. | .rcv .. | .destroy => inferInstanceAs (Decidable (_ ∧ _))
  | .wake _ | .spurious _ => inferInstanceAs (Decidable (_ ∈ _))
  | .flush | .unblock => .isTrue trivial

def step (w : Monitor π M D C) (call : Call π M D C) : Option (Monitor π M D C) :=
  if w.Enabled call then w.act call else none

end Monitor
end Msm8974.MsgQ
