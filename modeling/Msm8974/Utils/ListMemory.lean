import Msm8974.Library.Chains
import Msm8974.Library.Runs
import Msm8974.Utils.MsgQ

/-!
linked_list.c on its pointers: the list_element structures that malloc() gave and the list_state
behind the caller's handle. A function is undefined where it follows a pointer to an element that
is not allocated. A dealloc function is only called here, which is noted; an equal function may
change the world of its caller, but not the list.
-/

namespace Msm8974.ListMemory
open Chains Runs MsgQ

/-- linked_list_err_type as an int. -/
def code : LinkedListErrType → Int
  | .success => 0
  | .failureGeneral => -1
  | .invalidParameter => -2
  | .invalidHandle => -3
  | .unavailableResource => -4
  | .insufficientBuffer => -5

/-- What a call returns, and what it writes through its out parameter; NULL is `none`. -/
structure Reply (α : Type) where
  rv : Int
  out : Option (Option α)
deriving DecidableEq, Repr

/-- `allocated` counts the elements that malloc() ever gave, which bounds every loop. -/
structure Memory (π α φ μ : Type) where
  heap : Heap π (ListElement α φ)
  list_data : Option (Ends π)
  allocated : Nat
  deallocs : List (φ × α)
  replies : List (Reply α)
  world : μ

variable {π α φ μ : Type}

namespace Memory

def initial (heap : Heap π (ListElement α φ)) (world : μ) : Memory π α φ μ :=
  ⟨heap, none, 0, [], [], world⟩

def linkedListInit (list_data calloc : Bool) (m : Memory π α φ μ) : Reply α × Memory π α φ μ :=
  if !list_data then (⟨code .invalidParameter, none⟩, m)
  else if !calloc then (⟨code .failureGeneral, none⟩, m)
  else (⟨code .success, none⟩, { m with list_data := some ⟨none, none⟩ })

/-- Calls the dealloc function of an element, if it has one. -/
def dealloc (elem : ListElement α φ) (m : Memory π α φ μ) : Memory π α φ μ :=
  match elem.dealloc_func with
  | none => m
  | some dealloc_func => { m with deallocs := m.deallocs ++ [(dealloc_func, elem.data_ptr)] }

variable [DecidableEq π]

/-- `malloc` is the answer of malloc(). -/
def linkedListAdd (data_obj : Option α) (dealloc : Option φ) (malloc : Option π)
    (m : Memory π α φ μ) : Option (Reply α × Memory π α φ μ) :=
  match m.list_data, data_obj, malloc with
  | none, _, _ => some (⟨code .invalidHandle, none⟩, m)
  | some _, none, _ => some (⟨code .invalidParameter, none⟩, m)
  | some _, some _, none => some (⟨code .failureGeneral, none⟩, m)
  | some p_list, some data_obj, some elem => do
      let tmp := p_list.head
      let heap := m.heap.write elem ⟨tmp, none, ⟨data_obj, dealloc⟩⟩
      let (heap, p_list) ← linkPrev tmp (some elem) heap { p_list with head := some elem }
      return (⟨code .success, none⟩,
        { m with heap, list_data := some p_list, allocated := m.allocated + 1 })

def linkedListRemove (data_obj : Bool) (m : Memory π α φ μ) :
    Option (Reply α × Memory π α φ μ) :=
  match m.list_data with
  | none => some (⟨code .invalidHandle, none⟩, m)
  | some p_list =>
      if !data_obj then some (⟨code .invalidParameter, none⟩, m)
      else
        match p_list.tail with
        | none => some (⟨code .unavailableResource, none⟩, m)
        | some tmp => do
            let elem ← m.heap tmp
            let (heap, p_list) ← linkNext elem.prev none m.heap { p_list with tail := elem.prev }
            return (⟨code .success, some (some elem.value.data_ptr)⟩,
              { m with heap := heap.free tmp, list_data := some p_list })

def linkedListEmpty (m : Memory π α φ μ) : Reply α :=
  match m.list_data with
  | none => ⟨code .invalidHandle, none⟩
  | some p_list => ⟨if p_list.head.isNone then 1 else 0, none⟩

def flushLoop : Nat → Option π → Memory π α φ μ → Option (Memory π α φ μ)
  | _, none, m => some m
  | 0, some _, _ => none
  | rounds + 1, some p_head, m => do
      let elem ← m.heap p_head
      let m := m.dealloc elem.value
      flushLoop rounds elem.next { m with heap := m.heap.free p_head }

def linkedListFlush (m : Memory π α φ μ) : Option (Reply α × Memory π α φ μ) :=
  match m.list_data with
  | none => some (⟨code .invalidHandle, none⟩, m)
  | some p_list => do
      let m ← flushLoop m.allocated p_list.head m
      return (⟨code .success, none⟩, { m with list_data := some ⟨none, none⟩ })

def linkedListDestroy (list_data : Bool) (m : Memory π α φ μ) :
    Option (Reply α × Memory π α φ μ) :=
  if !list_data then some (⟨code .invalidHandle, none⟩, m)
  else do
    let (_, m) ← m.linkedListFlush
    return (⟨code .success, none⟩, { m with list_data := none })

/-- The loop of linked_list_search from `tmp` on, and the data it found. `data_p` says that there
is a place to copy the data to. -/
def searchLoop (data_p : Bool) (equal : α → μ → Bool × μ) (rm_if_found : Bool) :
    Nat → Option π → Memory π α φ μ → Option (Option α × Memory π α φ μ)
  | _, none, m => some (none, m)
  | 0, some _, _ => none
  | rounds + 1, some tmp, m => do
      let elem ← m.heap tmp
      match equal elem.value.data_ptr m.world with
      | (false, world) =>
          searchLoop data_p equal rm_if_found rounds elem.next { m with world }
      | (true, world) =>
          let m := { m with world }
          if rm_if_found then
            let p_list ← m.list_data
            let (heap, p_list) ← linkNext elem.prev elem.next m.heap p_list
            let elem ← heap tmp
            let (heap, p_list) ← linkPrev elem.next elem.prev heap p_list
            let heap := heap.write tmp { elem with next := none, prev := none }
            -- dealloc data if it is not copied out
            let m := if data_p then m else m.dealloc elem.value
            return (some elem.value.data_ptr,
              { m with heap := heap.free tmp, list_data := some p_list })
          else return (some elem.value.data_ptr, m)

def linkedListSearch (data_p : Bool) (equal : Option (α → μ → Bool × μ)) (rm_if_found : Bool)
    (m : Memory π α φ μ) : Option (Reply α × Memory π α φ μ) :=
  match m.list_data, equal with
  | some p_list, some equal =>
      if p_list.tail.isNone then some (⟨code .unavailableResource, none⟩, m)
      else do
        let (found, m) ← searchLoop data_p equal rm_if_found m.allocated p_list.head m
        return (⟨code .success, if data_p then some found else none⟩, m)
  | _, _ => some (⟨code .invalidHandle, none⟩, m)

end Memory

inductive Op (π α φ μ : Type)
  | init (list_data calloc : Bool)
  | add (data_obj : Option α) (dealloc : Option φ) (malloc : Option π)
  | remove (data_obj : Bool)
  | empty
  | search (data_p : Bool) (equal : Option (α → μ → Bool × μ)) (rm_if_found : Bool)
  | flush
  | destroy (list_data : Bool)

namespace Memory
variable [DecidableEq π]

def call (m : Memory π α φ μ) : Op π α φ μ → Option (Reply α × Memory π α φ μ)
  | .init list_data calloc => some (m.linkedListInit list_data calloc)
  | .add data_obj dealloc malloc => m.linkedListAdd data_obj dealloc malloc
  | .remove data_obj => m.linkedListRemove data_obj
  | .empty => some (m.linkedListEmpty, m)
  | .search data_p equal rm_if_found => m.linkedListSearch data_p equal rm_if_found
  | .flush => m.linkedListFlush
  | .destroy list_data => m.linkedListDestroy list_data

def step (m : Memory π α φ μ) (op : Op π α φ μ) : Option (Memory π α φ μ) :=
  (m.call op).map fun (reply, m) => { m with replies := m.replies ++ [reply] }

omit [DecidableEq π] in
/-- malloc() gives memory that is not allocated. -/
def Fresh (m : Memory π α φ μ) : Op π α φ μ → Prop
  | .add _ _ (some elem) => m.heap elem = none
  | _ => True

omit [DecidableEq π] in
instance (m : Memory π α φ μ) : (op : Op π α φ μ) → Decidable (m.Fresh op)
  | .add _ _ (some elem) => decidable_of_iff (m.heap elem).isNone Option.isNone_iff_eq_none
  | .init _ _ | .add _ _ none | .remove _ | .empty | .search _ _ _ | .flush | .destroy _ =>
      .isTrue trivial

end Memory
end Msm8974.ListMemory
