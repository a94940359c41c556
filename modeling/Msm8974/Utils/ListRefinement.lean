import Msm8974.Utils.ListMemory

/-!
linked_list.c refines a list. The list is what its callers see: elements come in at the head and
leave at the tail or wherever a search finds them, and every element that left was handed out or
destroyed. The elements in memory form one chain whose two directions mirror each other.
-/

namespace Msm8974.ListMemory
open Chains Runs MsgQ
variable {π α φ μ : Type}

/-- The list behind the handle, and what became of all the elements that were ever added.
An abandoned element is on a list whose handle was overwritten by linked_list_init. -/
structure Contents (α φ μ : Type) where
  list : Option (List (ListElement α φ))
  added : List (ListElement α φ)
  handedOut : List (ListElement α φ)
  destroyed : List (ListElement α φ)
  abandoned : List (ListElement α φ)
  replies : List (Reply α)
  world : μ

namespace Contents

def initial (world : μ) : Contents α φ μ := ⟨none, [], [], [], [], [], world⟩

def reply (rv : LinkedListErrType) (out : Option (Option α)) (s : Contents α φ μ) :
    Contents α φ μ :=
  { s with replies := s.replies ++ [⟨code rv, out⟩] }

def search (data_p : Bool) (equal : α → μ → Bool × μ) (rm_if_found : Bool)
    (list : List (ListElement α φ)) (s : Contents α φ μ) : Contents α φ μ :=
  let (found, list, world) :=
    linkedListSearch (fun elem => equal elem.data_ptr) rm_if_found list s.world
  let gone := if rm_if_found then found.toList else []
  ({ s with
      list := some list, world
      handedOut := s.handedOut ++ if data_p then gone else []
      destroyed := s.destroyed ++ if data_p then [] else gone } : Contents α φ μ).reply .success
    (if data_p then some (found.map (·.data_ptr)) else none)

def step (s : Contents α φ μ) : Op π α φ μ → Contents α φ μ
  | .init list_data calloc =>
      if !list_data then s.reply .invalidParameter none
      else if !calloc then s.reply .failureGeneral none
      else
        ({ s with list := some [], abandoned := s.abandoned ++ s.list.getD [] } :
          Contents α φ μ).reply .success none
  | .add data_obj dealloc malloc =>
      match s.list, data_obj, malloc with
      | none, _, _ => s.reply .invalidHandle none
      | some _, none, _ => s.reply .invalidParameter none
      | some _, some _, none => s.reply .failureGeneral none
      | some list, some data_obj, some _ =>
          ({ s with
              list := some (linkedListAdd list ⟨data_obj, dealloc⟩)
              added := s.added ++ [⟨data_obj, dealloc⟩] } : Contents α φ μ).reply .success none
  | .remove data_obj =>
      match s.list with
      | none => s.reply .invalidHandle none
      | some list =>
          if !data_obj then s.reply .invalidParameter none
          else
            match linkedListRemove list with
            | none => s.reply .unavailableResource none
            | some (elem, list) =>
                ({ s with list := some list, handedOut := s.handedOut ++ [elem] } :
                  Contents α φ μ).reply .success (some (some elem.data_ptr))
  | .empty =>
      match s.list with
      | none => s.reply .invalidHandle none
      | some list =>
          { s with replies := s.replies ++ [⟨if linkedListEmpty list then 1 else 0, none⟩] }
  | .search data_p equal rm_if_found =>
      match s.list, equal with
      | some [], some _ => s.reply .unavailableResource none
      | some list, some equal => s.search data_p equal rm_if_found list
      | _, _ => s.reply .invalidHandle none
  | .flush =>
      match s.list with
      | none => s.reply .invalidHandle none
      | some list =>
          ({ s with list := some [], destroyed := s.destroyed ++ list } :
            Contents α φ μ).reply .success none
  | .destroy list_data =>
      if !list_data then s.reply .invalidHandle none
      else
        ({ s with list := none, destroyed := s.destroyed ++ s.list.getD [] } :
          Contents α φ μ).reply .success none

/-- Every element that was ever added is in exactly one place. -/
def Accounted (s : Contents α φ μ) : Prop :=
  s.added.Perm (s.list.getD [] ++ s.handedOut ++ s.destroyed ++ s.abandoned)

end Contents

/-- The call of the dealloc function that destroying an element makes. -/
def deallocCall (elem : ListElement α φ) : Option (φ × α) :=
  elem.dealloc_func.map fun dealloc_func => (dealloc_func, elem.data_ptr)

/-- From the head one passes the elements of the list, from the tail the same in reverse. -/
def Mirrored (heap : Heap π (ListElement α φ)) (p_list : Ends π) (list : List (ListElement α φ)) :
    Prop :=
  ∃ cells : List (π × ListElement α φ), cells.map Prod.snd = list ∧ (addresses cells).Nodup ∧
    Visits Node.next heap p_list.head cells ∧ Visits Node.prev heap p_list.tail cells.reverse

structure Refines (m : Memory π α φ μ) (s : Contents α φ μ) : Prop where
  world : m.world = s.world
  replies : m.replies = s.replies
  deallocs : m.deallocs = s.destroyed.filterMap deallocCall
  list : Option.Rel (Mirrored m.heap) m.list_data s.list

/-- The chain that stores a list, within the bound of the loops. -/
def Stored (heap : Heap π (ListElement α φ)) (allocated : Nat) (p_list : Ends π)
    (list : List (ListElement α φ)) : Prop :=
  ∃ cells, Chain heap p_list cells ∧ cells.map Prod.snd = list ∧ cells.length ≤ allocated

theorem Stored.mirrored {heap : Heap π (ListElement α φ)} {allocated : Nat} {p_list : Ends π}
    {list : List (ListElement α φ)} (h : Stored heap allocated p_list list) :
    Mirrored heap p_list list := by
  obtain ⟨cells, chain, elements, -⟩ := h
  exact ⟨cells, elements, chain.distinct, chain.forward, chain.backward⟩

/-- The simulation relation: `Refines` with the whole chain. -/
structure Represents (m : Memory π α φ μ) (s : Contents α φ μ) : Prop where
  world : m.world = s.world
  replies : m.replies = s.replies
  deallocs : m.deallocs = s.destroyed.filterMap deallocCall
  list : Option.Rel (Stored m.heap m.allocated) m.list_data s.list

theorem Represents.refines {m : Memory π α φ μ} {s : Contents α φ μ} (h : Represents m s) :
    Refines m s where
  world := h.world
  replies := h.replies
  deallocs := h.deallocs
  list :=
    match m.list_data, s.list, h.list with
    | _, _, .none => .none
    | _, _, .some stored => .some stored.mirrored

namespace Memory
variable {m : Memory π α φ μ} {elem : ListElement α φ}

theorem dealloc_eq : m.dealloc elem =
    { m with deallocs := m.deallocs ++ [elem].filterMap deallocCall } := by
  cases func : elem.dealloc_func <;> simp [dealloc, deallocCall, func]

variable [DecidableEq π]

theorem flushLoop_eq {before : Option π} {cells : List (π × ListElement α φ)}
    (linked : Linked m.heap before cells none) (distinct : (addresses cells).Nodup)
    {rounds : Nat} (enough : cells.length ≤ rounds) :
    ∃ heap, flushLoop rounds (first cells none) m = some { m with
      heap
      deallocs := m.deallocs ++ (cells.map Prod.snd).filterMap deallocCall } := by
  induction cells generalizing m before rounds with
  | nil => exact ⟨m.heap, by cases rounds <;> simp [flushLoop]⟩
  | cons cell cells ih =>
      obtain ⟨a, x⟩ := cell
      cases rounds with
      | zero => simp at enough
      | succ rounds =>
          obtain ⟨fresh, distinct⟩ := List.nodup_cons.mp distinct
          obtain ⟨heap, rest⟩ := ih (m := { m.dealloc x with heap := m.heap.free a })
            (linked.2.free fresh) distinct (Nat.le_of_succ_le_succ enough)
          refine ⟨heap, ?_⟩
          simp only [first_cons, flushLoop, linked.1, Option.bind_eq_bind, Option.bind_some]
          rw [dealloc_eq] at rest ⊢
          rw [rest]
          cases call : deallocCall x <;> simp [call]

/-- The search of the list, from any element of its chain on. -/
theorem searchLoop_eq (data_p : Bool) {rm_if_found : Bool} {equal : α → μ → Bool × μ}
    {p_list : Ends π} (pre : List (π × ListElement α φ)) {post : List (π × ListElement α φ)}
    (list_data : m.list_data = some p_list)
    (chain : Chain m.heap p_list (pre ++ post)) {rounds : Nat} (enough : post.length ≤ rounds)
    {found : Option (ListElement α φ)} {rest : List (ListElement α φ)} {world : μ}
    (search : Msm8974.linkedListSearch (fun elem => equal elem.data_ptr) rm_if_found
      (post.map Prod.snd) m.world = (found, rest, world)) :
    ∃ heap p_list cells, searchLoop data_p equal rm_if_found rounds (first post none) m =
        some (found.map (·.data_ptr), { m with
          heap, world
          list_data := some p_list
          deallocs := m.deallocs ++
            if rm_if_found && !data_p then found.toList.filterMap deallocCall else [] }) ∧
      Chain heap p_list cells ∧ cells.map Prod.snd = pre.map Prod.snd ++ rest ∧
      cells.length ≤ (pre ++ post).length := by
  induction post generalizing m pre rounds rest with
  | nil =>
      simp only [List.map_nil, Msm8974.linkedListSearch, Prod.mk.injEq] at search
      obtain ⟨rfl, rfl, rfl⟩ := search
      refine ⟨m.heap, p_list, pre, ?_, by simpa using chain, by simp, by simp⟩
      cases rounds <;> simp [searchLoop, ← list_data]
  | cons cell post ih =>
      obtain ⟨a, x⟩ := cell
      obtain ⟨here, heap₁, ends₁, heap₂, ends₂, linked₁, frame, linked₂, unlinked⟩ := chain.unlink
      cases rounds with
      | zero => simp at enough
      | succ rounds =>
          simp only [first_cons, searchLoop, here, Option.bind_eq_bind, Option.bind_some]
          simp only [List.map_cons, Msm8974.linkedListSearch] at search
          cases verdict : equal x.data_ptr m.world with
          | mk matched world' =>
              simp only [verdict] at search ⊢
              cases matched with
              | false =>
                  simp only [Prod.mk.injEq] at search
                  obtain ⟨rfl, rfl, rfl⟩ := search
                  have chain' : Chain m.heap p_list ((pre ++ [(a, x)]) ++ post) := by
                    simpa using chain
                  obtain ⟨heap, p_list', cells, found, chain'', elements, bound⟩ :=
                    ih (m := { m with world := world' }) _ list_data chain'
                      (Nat.le_of_succ_le_succ enough) rfl
                  refine ⟨heap, p_list', cells, found, chain'', ?_, ?_⟩
                  · simp [elements]
                  · simpa using bound
              | true =>
                  simp only [Prod.mk.injEq] at search
                  obtain ⟨rfl, rfl, rfl⟩ := search
                  cases rm_if_found with
                  | false =>
                      refine ⟨m.heap, p_list, _, ?_, chain, by simp, Nat.le_refl _⟩
                      simp [list_data]
                  | true =>
                      refine ⟨heap₂.free a, ends₂, pre ++ post, ?_, unlinked, by simp, by simp⟩
                      simp only [list_data, Option.bind_some, linked₁, frame, here, linked₂]
                      cases data_p <;> simp [dealloc_eq]

end Memory

variable {m : Memory π α φ μ} {s : Contents α φ μ}

theorem Represents.handle (h : Represents m s) :
    (m.list_data = none ∧ s.list = none) ∨
      ∃ p_list cells, m.list_data = some p_list ∧ s.list = some (cells.map Prod.snd) ∧
        Chain m.heap p_list cells ∧ cells.length ≤ m.allocated := by
  match list_data : m.list_data, list : s.list, h.list with
  | _, _, .none => exact .inl ⟨rfl, rfl⟩
  | _, _, .some ⟨cells, chain, elements, bound⟩ =>
      exact .inr ⟨_, cells, rfl, elements ▸ rfl, chain, bound⟩

/-- An answer that leaves the list as it is. -/
theorem Represents.reply (h : Represents m s) (rv : LinkedListErrType) (out : Option (Option α)) :
    Represents { m with replies := m.replies ++ [⟨code rv, out⟩] } (s.reply rv out) where
  world := h.world
  replies := by rw [Contents.reply, h.replies]
  deallocs := h.deallocs
  list := h.list

variable [DecidableEq π]

/-- The call is defined and does what the list does. -/
def Follows (m : Memory π α φ μ) (s : Contents α φ μ) (op : Op π α φ μ) : Prop :=
  ∃ reply m', m.call op = some (reply, m') ∧
    Represents { m' with replies := m'.replies ++ [reply] } (s.step op)

theorem follows_init (h : Represents m s) (list_data calloc : Bool) :
    Follows m s (.init list_data calloc) := by
  refine ⟨_, _, rfl, ?_⟩
  cases list_data with
  | false => exact h.reply .invalidParameter none
  | true =>
      cases calloc with
      | false => exact h.reply .failureGeneral none
      | true =>
          refine ⟨h.world, congrArg (· ++ _) h.replies, h.deallocs, .some ?_⟩
          exact ⟨[], Chain.nil m.heap, rfl, Nat.zero_le _⟩

theorem follows_add (h : Represents m s) (data_obj : Option α) (dealloc : Option φ)
    (malloc : Option π) (fresh : m.Fresh (.add data_obj dealloc malloc)) :
    Follows m s (.add data_obj dealloc malloc) := by
  obtain ⟨handle, list⟩ | ⟨p_list, cells, handle, list, chain, bound⟩ := h.handle
  · refine ⟨⟨code .invalidHandle, none⟩, m, by simp [Memory.call, Memory.linkedListAdd, handle], ?_⟩
    simpa [Contents.step, list] using h.reply .invalidHandle none
  cases data_obj with
  | none =>
      refine ⟨⟨code .invalidParameter, none⟩, m, ?_, ?_⟩
      · simp [Memory.call, Memory.linkedListAdd, handle]
      · simpa [Contents.step, list] using h.reply .invalidParameter none
  | some data_obj =>
      cases malloc with
      | none =>
          refine ⟨⟨code .failureGeneral, none⟩, m, ?_, ?_⟩
          · simp [Memory.call, Memory.linkedListAdd, handle]
          · simpa [Contents.step, list] using h.reply .failureGeneral none
      | some elem =>
          obtain ⟨heap, p_list', linked, chain'⟩ := chain.push fresh ⟨data_obj, dealloc⟩
          refine ⟨⟨code .success, none⟩, { m with
            heap, list_data := some p_list', allocated := m.allocated + 1 }, ?_, ?_⟩
          · simp [Memory.call, Memory.linkedListAdd, handle, linked]
          · simp only [Contents.step, list]
            refine ⟨h.world, congrArg (· ++ _) h.replies, h.deallocs, .some ?_⟩
            exact ⟨_, chain', rfl, Nat.succ_le_succ bound⟩

theorem follows_remove (h : Represents m s) (data_obj : Bool) :
    Follows m s (.remove data_obj) := by
  obtain ⟨handle, list⟩ | ⟨p_list, cells, handle, list, chain, bound⟩ := h.handle
  · refine ⟨⟨code .invalidHandle, none⟩, m, ?_, ?_⟩
    · simp [Memory.call, Memory.linkedListRemove, handle]
    · simpa [Contents.step, list] using h.reply .invalidHandle none
  cases data_obj with
  | false =>
      refine ⟨⟨code .invalidParameter, none⟩, m, ?_, ?_⟩
      · simp [Memory.call, Memory.linkedListRemove, handle]
      · simpa [Contents.step, list] using h.reply .invalidParameter none
  | true =>
      cases cells using List.reverseRecOn with
      | nil =>
          refine ⟨⟨code .unavailableResource, none⟩, m, ?_, ?_⟩
          · simp [Memory.call, Memory.linkedListRemove, handle, chain.tail]
          · simpa [Contents.step, list, linkedListRemove] using h.reply .unavailableResource none
      | append_singleton cells cell =>
          obtain ⟨a, x⟩ := cell
          obtain ⟨here, heap, p_list', linked, chain'⟩ := chain.pop
          refine ⟨⟨code .success, some (some x.data_ptr)⟩, { m with
            heap := heap.free a, list_data := some p_list' }, ?_, ?_⟩
          · simp [Memory.call, Memory.linkedListRemove, handle, chain.tail, here, linked]
          · simp only [Contents.step, list, List.map_append, List.map_cons, List.map_nil,
              linkedListRemove_concat]
            refine ⟨h.world, congrArg (· ++ _) h.replies, h.deallocs, .some ?_⟩
            exact ⟨cells, chain', rfl, Nat.le_trans (by simp) bound⟩

theorem follows_empty (h : Represents m s) : Follows m s .empty := by
  refine ⟨_, m, rfl, ?_⟩
  obtain ⟨handle, list⟩ | ⟨p_list, cells, handle, list, chain, -⟩ := h.handle
  · simpa [Contents.step, list, Memory.linkedListEmpty, handle] using h.reply .invalidHandle none
  · have same : p_list.head.isNone = linkedListEmpty (cells.map Prod.snd) := by
      rw [chain.head]
      cases cells <;> rfl
    have stored := h.list
    rw [handle, list] at stored
    simp only [Contents.step, list, Memory.linkedListEmpty, handle, same]
    exact ⟨h.world, congrArg (· ++ _) h.replies, h.deallocs, stored⟩

theorem follows_search (h : Represents m s) (data_p : Bool) (equal : Option (α → μ → Bool × μ))
    (rm_if_found : Bool) : Follows m s (.search data_p equal rm_if_found) := by
  have invalid : (m.list_data = none ∧ s.list = none) ∨ equal = none →
      Follows m s (.search data_p equal rm_if_found) := by
    intro null
    refine ⟨⟨code .invalidHandle, none⟩, m, ?_, ?_⟩
    · cases null with
      | inl handle => simp [Memory.call, Memory.linkedListSearch, handle.1]
      | inr equal => simp [Memory.call, Memory.linkedListSearch, equal]
    · cases null with
      | inl handle => simpa [Contents.step, handle.2] using h.reply .invalidHandle none
      | inr equal => simpa [Contents.step, equal] using h.reply .invalidHandle none
  obtain handle | ⟨p_list, cells, handle, list, chain, bound⟩ := h.handle
  · exact invalid (.inl handle)
  cases equal with
  | none => exact invalid (.inr rfl)
  | some equal =>
      cases cells with
      | nil =>
          refine ⟨⟨code .unavailableResource, none⟩, m, ?_, ?_⟩
          · simp [Memory.call, Memory.linkedListSearch, handle, chain.tail]
          · simpa [Contents.step, list] using h.reply .unavailableResource none
      | cons cell cells =>
          have tail : p_list.tail.isNone = false := by
            rw [chain.tail]
            simp [last]
          obtain ⟨found, rest, world, result⟩ : ∃ found rest world,
              linkedListSearch (fun elem => equal elem.data_ptr) rm_if_found
                ((cell :: cells).map Prod.snd) m.world = (found, rest, world) := ⟨_, _, _, rfl⟩
          obtain ⟨heap, p_list', cells', search, chain', elements, bound'⟩ :=
            Memory.searchLoop_eq data_p [] handle chain bound result
          rw [← chain.head] at search
          refine ⟨⟨code .success, if data_p then some (found.map (·.data_ptr)) else none⟩, { m with
            heap, world
            list_data := some p_list'
            deallocs := m.deallocs ++
              if rm_if_found && !data_p then found.toList.filterMap deallocCall else [] }, ?_, ?_⟩
          · simp [Memory.call, Memory.linkedListSearch, handle, tail, search]
          · rw [h.world] at result
            simp only [Contents.step, list, List.map_cons] at result ⊢
            simp only [Contents.search, result]
            refine ⟨rfl, ?_, ?_, .some ?_⟩
            · simp [Contents.reply, h.replies]
            · simp only [Contents.reply, h.deallocs, List.filterMap_append]
              cases rm_if_found <;> cases data_p <;> simp
            · exact ⟨cells', chain', elements, Nat.le_trans bound' bound⟩

/-- What flushing and destroying share. -/
theorem flush_eq (h : Represents m s) :
    ∃ reply m', m.linkedListFlush = some (reply, m') ∧
      m'.world = s.world ∧ m'.replies = s.replies ∧
      m'.deallocs = (s.destroyed ++ s.list.getD []).filterMap deallocCall ∧
      m'.list_data = s.list.map (fun _ => ⟨none, none⟩) ∧
      reply = ⟨code (if s.list.isNone then .invalidHandle else .success), none⟩ := by
  obtain ⟨handle, list⟩ | ⟨p_list, cells, handle, list, chain, bound⟩ := h.handle
  · refine ⟨⟨code .invalidHandle, none⟩, m, ?_, h.world, h.replies, ?_, ?_, ?_⟩
    · simp [Memory.linkedListFlush, handle]
    · simp [list, h.deallocs]
    · simp [list, handle]
    · simp [list]
  · obtain ⟨heap, flushed⟩ := Memory.flushLoop_eq chain.linked chain.distinct bound
    rw [← chain.head] at flushed
    refine ⟨⟨code .success, none⟩, { m with
      heap
      list_data := some ⟨none, none⟩
      deallocs := m.deallocs ++ (cells.map Prod.snd).filterMap deallocCall },
      ?_, h.world, h.replies, ?_, ?_, ?_⟩
    · simp [Memory.linkedListFlush, handle, flushed]
    · simp [list, h.deallocs]
    · simp [list]
    · simp [list]

theorem follows_flush (h : Represents m s) : Follows m s .flush := by
  obtain ⟨reply, m', flush, world, replies, deallocs, handle, rfl⟩ := flush_eq h
  refine ⟨_, m', flush, ?_⟩
  cases list : s.list with
  | none =>
      simp only [list, Option.map_none, Option.getD_none, List.append_nil] at handle deallocs
      simp only [Contents.step, list]
      refine ⟨world, congrArg (· ++ _) replies, deallocs, ?_⟩
      simp only [handle, Contents.reply, list]
      exact .none
  | some elements =>
      simp only [list, Option.map_some, Option.getD_some] at handle deallocs
      simp only [Contents.step, list]
      refine ⟨world, congrArg (· ++ _) replies, deallocs, ?_⟩
      simp only [handle]
      exact .some ⟨[], Chain.nil _, rfl, Nat.zero_le _⟩

theorem follows_destroy (h : Represents m s) (list_data : Bool) :
    Follows m s (.destroy list_data) := by
  cases list_data with
  | false => exact ⟨⟨code .invalidHandle, none⟩, m, rfl, h.reply .invalidHandle none⟩
  | true =>
      obtain ⟨reply, m', flush, world, replies, deallocs, -, -⟩ := flush_eq h
      refine ⟨⟨code .success, none⟩, { m' with list_data := none }, ?_, ?_⟩
      · simp [Memory.call, Memory.linkedListDestroy, flush]
      · exact ⟨world, congrArg (· ++ _) replies, deallocs, .none⟩

theorem represents_step (h : Represents m s) {op : Op π α φ μ} (fresh : m.Fresh op) :
    ∃ m', m.step op = some m' ∧ Represents m' (s.step op) := by
  have follows : Follows m s op := by
    cases op with
    | init list_data calloc => exact follows_init h list_data calloc
    | add data_obj dealloc malloc => exact follows_add h data_obj dealloc malloc fresh
    | remove data_obj => exact follows_remove h data_obj
    | empty => exact follows_empty h
    | search data_p equal rm_if_found => exact follows_search h data_p equal rm_if_found
    | flush => exact follows_flush h
    | destroy list_data => exact follows_destroy h list_data
  obtain ⟨reply, m', call, represents⟩ := follows
  exact ⟨_, by rw [Memory.step, call, Option.map_some], represents⟩

omit [DecidableEq π] in
theorem linkedListSearch_perm {equal : ListElement α φ → μ → Bool × μ}
    {list rest : List (ListElement α φ)} {world world' : μ} {found : Option (ListElement α φ)}
    {rm_if_found : Bool}
    (h : linkedListSearch equal rm_if_found list world = (found, rest, world')) :
    list.Perm (rest ++ if rm_if_found then found.toList else []) := by
  induction list generalizing world rest with
  | nil =>
      obtain ⟨rfl, rfl, rfl⟩ : none = found ∧ [] = rest ∧ world = world' := by
        simpa [linkedListSearch] using h
      cases rm_if_found <;> exact .refl _
  | cons elem list ih =>
      simp only [linkedListSearch] at h
      split at h
      next =>
        simp only [Prod.mk.injEq] at h
        obtain ⟨rfl, rfl, rfl⟩ := h
        cases rm_if_found with
        | false => simp
        | true => simpa using (List.perm_append_singleton elem list).symm
      next =>
        simp only [Prod.mk.injEq] at h
        obtain ⟨rfl, rfl, rfl⟩ := h
        exact (ih rfl).cons elem

namespace Contents

omit [DecidableEq π] in
/-- Elements that move from one place to another, or are added, stay accounted for. -/
theorem Accounted.move [DecidableEq (ListElement α φ)] {t : Contents α φ μ} (h : s.Accounted)
    (new : List (ListElement α φ)) (added : t.added = s.added ++ new)
    (moved : ∀ x, (t.list.getD [] ++ t.handedOut ++ t.destroyed ++ t.abandoned).count x =
      (s.list.getD [] ++ s.handedOut ++ s.destroyed ++ s.abandoned ++ new).count x) :
    t.Accounted := by
  unfold Accounted at h ⊢
  rw [added]
  exact (h.append_right new).trans (List.perm_iff_count.mpr moved).symm

omit [DecidableEq π] in
theorem accounted_search (h : s.Accounted) {list : List (ListElement α φ)}
    (found : s.list = some list) (data_p : Bool) (equal : α → μ → Bool × μ) (rm_if_found : Bool) :
    (s.search data_p equal rm_if_found list).Accounted := by
  classical
  obtain ⟨elem, rest, world, result⟩ : ∃ elem rest world, linkedListSearch
      (fun elem => equal elem.data_ptr) rm_if_found list s.world = (elem, rest, world) :=
    ⟨_, _, _, rfl⟩
  have split := linkedListSearch_perm result
  simp only [search, result]
  apply h.move []
  · simp [reply]
  · intro x
    have here := List.perm_iff_count.mp split x
    simp only [reply, found, Option.getD_some, List.count_append, List.count_nil] at here ⊢
    cases data_p <;> cases rm_if_found <;> simp at here ⊢ <;> omega

omit [DecidableEq π] in
theorem accounted_step (h : s.Accounted) (op : Op π α φ μ) : (s.step op).Accounted := by
  classical
  have same : ∀ rv out, (s.reply rv out).Accounted := fun rv out => h.move [] (by simp [reply])
    (by simp [reply])
  cases op with
  | init list_data calloc =>
      simp only [step]
      split_ifs
      · exact same _ _
      · exact same _ _
      · apply h.move []
        · simp [reply]
        · intro x
          simp only [reply, Option.getD_some, List.count_append, List.count_nil]
          omega
  | add data_obj dealloc malloc =>
      simp only [step]
      split
      · exact same _ _
      · exact same _ _
      · exact same _ _
      · next list data_obj elem found =>
        apply h.move [⟨data_obj, dealloc⟩]
        · simp [reply]
        · intro x
          simp only [reply, found, linkedListAdd, Option.getD_some, List.count_append,
            List.count_cons, List.count_nil]
          omega
  | remove data_obj =>
      cases found : s.list with
      | none => simpa only [step, found] using same .invalidHandle none
      | some list =>
          simp only [step, found]
          split_ifs
          · exact same _ _
          · cases list using List.reverseRecOn with
            | nil => exact same .unavailableResource none
            | append_singleton list elem =>
                rw [linkedListRemove_concat]
                apply h.move []
                · simp [reply]
                · intro x
                  simp only [reply, found, Option.getD_some, List.count_append, List.count_nil]
                  omega
  | empty =>
      cases found : s.list with
      | none => simpa only [step, found] using same .invalidHandle none
      | some list =>
          simp only [step, found]
          exact h.move [] (by simp) (by simp [found])
  | search data_p equal rm_if_found =>
      cases found : s.list with
      | none => simpa only [step, found] using same .invalidHandle none
      | some list =>
          cases equal with
          | none => simpa only [step, found] using same .invalidHandle none
          | some equal =>
              simp only [step, found]
              cases list with
              | nil => exact same _ _
              | cons elem list => exact accounted_search h found _ _ _
  | flush =>
      cases found : s.list with
      | none => simpa only [step, found] using same .invalidHandle none
      | some list =>
          simp only [step, found]
          apply h.move []
          · simp [reply]
          · intro x
            simp only [reply, found, Option.getD_some, List.count_append, List.count_nil]
            omega
  | destroy list_data =>
      simp only [step]
      split_ifs
      · exact same _ _
      · apply h.move []
        · simp [reply]
        · intro x
          simp only [reply, Option.getD_none, List.count_append, List.count_nil]
          omega

end Contents

/-- Whatever calls are made, in whatever order, they are defined, answer as on a list, leave the
elements of the list in one chain that mirrors itself, and call the dealloc function of exactly
the elements that were destroyed; every element is on the list, handed out, destroyed or
abandoned. -/
theorem linked_list_refines_list (heap : Heap π (ListElement α φ)) (world : μ)
    (ops : List (Op π α φ μ)) (fresh : Meets Memory.step Memory.Fresh (.initial heap world) ops) :
    ∃ m, Run Memory.step (.initial heap world) ops m ∧
      Refines m (ops.foldl Contents.step (.initial world)) ∧
      (ops.foldl Contents.step (.initial world)).Accounted := by
  have initial : Represents (.initial heap world : Memory π α φ μ) (.initial world) :=
    ⟨rfl, rfl, rfl, .none⟩
  have follows : ∀ (m : Memory π α φ μ) s op, Represents m s → m.Fresh op →
      ∃ m', m.step op = some m' ∧ Represents m' (s.step op) :=
    fun _ _ _ related admitted => represents_step related admitted
  obtain ⟨m, run, represents⟩ := exists_run_of_simulation follows initial fresh
  refine ⟨m, run, represents.refines, ?_⟩
  exact List.foldlRecOn ops _ (.refl _) fun s accounted op _ => Contents.accounted_step accounted op

/-- Two elements are added; a search destroys the first of them and the other is removed. -/
theorem two_elements_leave_the_list :
    ∃ m, Run Memory.step (.initial (fun _ => none) ())
        [.init true true, .add (some 5) (some 'd') (some 100), .add (some 6) none (some 200),
          .search false (some fun data _ => (data == 5, ())) true, .remove true, .destroy true]
        (m : Memory Nat Nat Char Unit) ∧
      m.deallocs = [('d', 5)] ∧
      m.replies.map Reply.out = [none, none, none, none, some (some 6), none] := by
  obtain ⟨m, run, refines, -⟩ := linked_list_refines_list (fun _ => none) ()
    [.init true true, .add (some 5) (some 'd') (some 100), .add (some 6) none (some 200),
      .search false (some fun data _ => (data == 5, ())) true, .remove true, .destroy true]
    (by decide)
  exact ⟨m, run, refines.deallocs, by rw [refines.replies]; rfl⟩

end Msm8974.ListMemory
