import Msm8974.Dtbtool.ChipList
import Msm8974.Library.Chains
import Msm8974.Library.Runs

/-!
chip_add on its pointers. Before the call next and prev of the new entry are whatever malloc() or
an earlier use left there. A function is undefined where it follows a pointer to memory that is
not allocated.
-/

namespace Msm8974.Dtbtool
open Chains Runs

inductive Rc
  | success
  | error
  deriving DecidableEq, Repr

/-- The entries in memory, and `chip_list`. -/
structure ChipMemory where
  heap : Heap Nat ChipInfo
  chip_list : Option Nat

namespace ChipMemory

/-- The loop of chip_add at `x`. -/
def chipAddLoop (c : Nat) : Nat → Nat → ChipMemory → Option (Rc × ChipMemory)
  | 0, _, _ => none
  | rounds + 1, x, m => do
      let new ← m.heap c
      let here ← m.heap x
      if new.value.precedes here.value.toChipTuple then
        match here.prev with
        | none =>
            let heap ← m.heap.setNext c (some x)
            let heap ← heap.setPrev c none
            let heap ← heap.setPrev x (some c)
            return (.success, ⟨heap, some c⟩)
        | some before =>
            let heap ← m.heap.setNext c (some x)
            let heap ← heap.setPrev c (some before)
            let heap ← heap.setNext before (some c)
            let heap ← heap.setPrev x (some c)
            return (.success, { m with heap })
      else if new.value.toChipTuple = here.value.toChipTuple then return (.error, m)
      else
        match here.next with
        | none =>
            let heap ← m.heap.setPrev c (some x)
            let heap ← heap.setNext c none
            let heap ← heap.setNext x (some c)
            return (.success, { m with heap })
        | some next => chipAddLoop c rounds next m

/-- `chip_add`, with a bound on the rounds of its loop. -/
def chip_add (rounds c : Nat) (m : ChipMemory) : Option (Rc × ChipMemory) :=
  match m.chip_list with
  | none => do
      let heap ← m.heap.setNext c none
      let heap ← heap.setPrev c none
      return (.success, ⟨heap, some c⟩)
  | some x => chipAddLoop c rounds x m

/-- The cells of a list of entries. -/
def cells (chips : List ChipInfo) : List (Nat × ChipInfo) := chips.map fun c => (c.address, c)

/-- chip_list leads through these entries, linked both ways. -/
def Holds (m : ChipMemory) (chips : List ChipInfo) : Prop :=
  Chain m.heap ⟨m.chip_list, last none (cells chips)⟩ (cells chips)

/-- `c` is in memory, whatever its links are. -/
def Allocated (m : ChipMemory) (c : ChipInfo) : Prop :=
  ∃ node, m.heap c.address = some node ∧ node.value = c

section Values

/-- Links apart, nothing that is in memory changes. -/
def Keeps (heap heap' : Heap Nat ChipInfo) : Prop :=
  ∀ a, (heap' a).map (·.value) = (heap a).map (·.value)

variable {heap heap' heap'' : Heap Nat ChipInfo}

theorem Keeps.trans (h : Keeps heap heap') (h' : Keeps heap' heap'') : Keeps heap heap'' :=
  fun a => (h' a).trans (h a)

theorem keeps_write {a : Nat} {node : Node Nat ChipInfo} (h : heap a = some node)
    (next prev : Option Nat) : Keeps heap (heap.write a ⟨next, prev, node.value⟩) := by
  intro b
  by_cases same : b = a
  · rw [same, Heap.write_self, h]
    rfl
  · rw [Heap.write_of_ne same]

theorem keeps_setNext {a : Nat} {next : Option Nat} (h : heap.setNext a next = some heap') :
    Keeps heap heap' := by
  obtain ⟨node, here, rfl⟩ := Option.map_eq_some_iff.mp h
  exact keeps_write here next node.prev

theorem keeps_setPrev {a : Nat} {prev : Option Nat} (h : heap.setPrev a prev = some heap') :
    Keeps heap heap' := by
  obtain ⟨node, here, rfl⟩ := Option.map_eq_some_iff.mp h
  exact keeps_write here node.next prev

theorem keeps_linkNext {p next : Option Nat} {ends ends' : Ends Nat}
    (h : linkNext p next heap ends = some (heap', ends')) : Keeps heap heap' := by
  cases p with
  | none =>
      obtain ⟨rfl, -⟩ := Prod.mk.inj (Option.some.inj h)
      exact fun _ => rfl
  | some a =>
      obtain ⟨_, set, same⟩ := Option.map_eq_some_iff.mp h
      obtain ⟨rfl, -⟩ := Prod.mk.inj same
      exact keeps_setNext set

theorem keeps_linkPrev {p prev : Option Nat} {ends ends' : Ends Nat}
    (h : linkPrev p prev heap ends = some (heap', ends')) : Keeps heap heap' := by
  cases p with
  | none =>
      obtain ⟨rfl, -⟩ := Prod.mk.inj (Option.some.inj h)
      exact fun _ => rfl
  | some a =>
      obtain ⟨_, set, same⟩ := Option.map_eq_some_iff.mp h
      obtain ⟨rfl, -⟩ := Prod.mk.inj same
      exact keeps_setPrev set

theorem Allocated.keeps {m m' : ChipMemory} {c : ChipInfo} (h : m.Allocated c)
    (keeps : Keeps m.heap m'.heap) : m'.Allocated c := by
  obtain ⟨node, here, rfl⟩ := h
  have value := keeps node.value.address
  rw [here] at value
  exact Option.map_eq_some_iff.mp value

end Values

section Add
variable {m : ChipMemory} {c x : ChipInfo} {pre post : List ChipInfo}

@[simp] theorem cells_append (chips others : List ChipInfo) :
    cells (chips ++ others) = cells chips ++ cells others := List.map_append

@[simp] theorem cells_cons : cells (c :: post) = (c.address, c) :: cells post := rfl

theorem addresses_cells (chips : List ChipInfo) :
    addresses (cells chips) = chips.map ChipInfo.address := by
  simp [addresses, cells]

/-- What the entry at `x` says about its neighbours. -/
theorem Holds.node (holds : m.Holds (pre ++ x :: post)) :
    m.heap x.address = some ⟨first (cells post) none, last none (cells pre), x⟩ := by
  have linked := holds.linked
  rw [cells_append, cells_cons] at linked
  exact (linked_append.mp linked).2.1

/-- An entry in memory that is at the place of a listed one is that one. -/
theorem Holds.fresh {chips : List ChipInfo} (holds : m.Holds chips) (here : m.Allocated c)
    (absent : c ∉ chips) : c.address ∉ addresses (cells chips) := by
  rw [addresses_cells]
  intro mem
  obtain ⟨d, listed, same⟩ := List.mem_map.mp mem
  obtain ⟨pre, post, rfl⟩ := List.append_of_mem listed
  obtain ⟨node, at_c, value⟩ := here
  have at_d := holds.node
  rw [same, at_c] at at_d
  have equal : c = d := by rw [← value, Option.some.inj at_d]
  exact absent (equal ▸ listed)

/-- The writes of chip_add in front of `post`: the entry's own links, and those that lead to it
from both sides. -/
theorem Holds.insert (holds : m.Holds (pre ++ post)) (here : m.Allocated c)
    (absent : c ∉ pre ++ post) :
    ∃ heap₁ ends₁ heap₂ ends₂,
      linkNext (last none (cells pre)) (some c.address)
        (m.heap.write c.address ⟨first (cells post) none, last none (cells pre), c⟩)
        ⟨m.chip_list, last none (cells (pre ++ post))⟩ = some (heap₁, ends₁) ∧
      linkPrev (first (cells post) none) (some c.address) heap₁ ends₁ = some (heap₂, ends₂) ∧
      Keeps m.heap heap₂ ∧ Holds ⟨heap₂, ends₂.head⟩ (pre ++ c :: post) := by
  have fresh := holds.fresh here absent
  rw [Holds, cells_append] at holds
  rw [cells_append] at fresh
  obtain ⟨heap₁, ends₁, heap₂, ends₂, linked₁, linked₂, chain⟩ := Chain.insert holds fresh c
  refine ⟨heap₁, ends₁, heap₂, ends₂, by rw [cells_append]; exact linked₁, linked₂, ?_, ?_⟩
  · obtain ⟨node, at_c, rfl⟩ := here
    exact ((keeps_write at_c _ _).trans (keeps_linkNext linked₁)).trans (keeps_linkPrev linked₂)
  · rw [Holds, cells_append, cells_cons, ← chain.tail]
    exact chain

theorem setPrev_write {heap : Heap Nat ChipInfo} {a : Nat} {node : Node Nat ChipInfo}
    {prev : Option Nat} :
    (heap.write a node).setPrev a prev = some (heap.write a { node with prev }) := by
  simp [Heap.setPrev]

theorem setNext_write {heap : Heap Nat ChipInfo} {a : Nat} {node : Node Nat ChipInfo}
    {next : Option Nat} :
    (heap.write a node).setNext a next = some (heap.write a { node with next }) := by
  simp [Heap.setNext]

/-- The branch for an entry that comes before the one at `x`. -/
theorem chipAddLoop_before (holds : m.Holds (pre ++ x :: post)) (here : m.Allocated c)
    (absent : c ∉ pre ++ x :: post) (before : c.precedes x.toChipTuple) (rounds : Nat) :
    ∃ m', chipAddLoop c.address (rounds + 1) x.address m = some (.success, m') ∧
      Keeps m.heap m'.heap ∧ m'.Holds (pre ++ c :: x :: post) := by
  obtain ⟨heap₁, ends₁, heap₂, ends₂, linked₁, linked₂, keeps, holds'⟩ := holds.insert here absent
  refine ⟨⟨heap₂, ends₂.head⟩, ?_, keeps, holds'⟩
  obtain ⟨node, at_c, rfl⟩ := here
  have at_x := holds.node
  obtain ⟨_, behind, same⟩ := Option.map_eq_some_iff.mp linked₂
  obtain ⟨rfl, rfl⟩ := Prod.mk.inj same
  have own : m.heap.setNext node.value.address (some x.address) =
      some (m.heap.write node.value.address { node with next := some x.address }) := by
    simp [Heap.setNext, at_c]
  rw [chipAddLoop]
  cases front : last none (cells pre) with
  | none =>
      rw [front] at at_x linked₁
      obtain ⟨rfl, rfl⟩ := Prod.mk.inj (Option.some.inj linked₁)
      simp only [at_c, at_x, Option.bind_eq_bind, Option.bind_some, before, if_true, own,
        setPrev_write]
      exact congrArg (· >>= _) behind
  | some b =>
      rw [front] at at_x linked₁
      obtain ⟨_, ahead, same⟩ := Option.map_eq_some_iff.mp linked₁
      obtain ⟨rfl, rfl⟩ := Prod.mk.inj same
      simp only [at_c, at_x, Option.bind_eq_bind, Option.bind_some, before, if_true, own,
        setPrev_write]
      refine (congrArg (· >>= _) ahead).trans ?_
      exact congrArg (· >>= _) behind

/-- The branch for an entry that comes after all others. -/
theorem chipAddLoop_end (holds : m.Holds (pre ++ [x])) (here : m.Allocated c)
    (absent : c ∉ pre ++ [x]) (before : ¬ c.precedes x.toChipTuple)
    (differs : c.toChipTuple ≠ x.toChipTuple) (rounds : Nat) :
    ∃ m', chipAddLoop c.address (rounds + 1) x.address m = some (.success, m') ∧
      Keeps m.heap m'.heap ∧ m'.Holds (pre ++ [x, c]) := by
  have whole : m.Holds ((pre ++ [x]) ++ []) := by rwa [List.append_nil]
  obtain ⟨heap₁, ends₁, heap₂, ends₂, linked₁, linked₂, keeps, holds'⟩ :=
    whole.insert here (by rwa [List.append_nil])
  rw [List.append_assoc] at holds'
  refine ⟨⟨heap₂, ends₂.head⟩, ?_, keeps, holds'⟩
  obtain ⟨node, at_c, rfl⟩ := here
  have at_x := holds.node
  obtain ⟨rfl, rfl⟩ := Prod.mk.inj (Option.some.inj linked₂)
  rw [show last none (cells (pre ++ [x])) = some x.address by simp [cells]] at linked₁
  obtain ⟨_, ahead, same⟩ := Option.map_eq_some_iff.mp linked₁
  obtain ⟨rfl, rfl⟩ := Prod.mk.inj same
  have own : m.heap.setPrev node.value.address (some x.address) =
      some (m.heap.write node.value.address { node with prev := some x.address }) := by
    simp [Heap.setPrev, at_c]
  rw [chipAddLoop]
  simp only [at_c, at_x, Option.bind_eq_bind, Option.bind_some, before, if_false, differs, own,
    setNext_write, cells, List.map_nil, first_nil]
  exact congrArg (· >>= _) ahead

theorem chipAddLoop_same (holds : m.Holds (pre ++ x :: post)) (here : m.Allocated c)
    (before : ¬ c.precedes x.toChipTuple) (same : c.toChipTuple = x.toChipTuple) (rounds : Nat) :
    chipAddLoop c.address (rounds + 1) x.address m = some (.error, m) := by
  obtain ⟨node, at_c, rfl⟩ := here
  rw [same] at before
  rw [chipAddLoop]
  simp only [at_c, holds.node, Option.bind_eq_bind, Option.bind_some, same, before, if_false,
    if_true]
  rfl

theorem chipAddLoop_next {y : ChipInfo} (holds : m.Holds (pre ++ x :: y :: post))
    (here : m.Allocated c) (before : ¬ c.precedes x.toChipTuple)
    (differs : c.toChipTuple ≠ x.toChipTuple) (rounds : Nat) :
    chipAddLoop c.address (rounds + 1) x.address m = chipAddLoop c.address rounds y.address m := by
  obtain ⟨node, at_c, rfl⟩ := here
  rw [chipAddLoop]
  simp only [at_c, holds.node, Option.bind_eq_bind, Option.bind_some, before, if_false, differs,
    cells_cons, first_cons]

/-- The loop does what chipAdd does to the entries from `x` on. -/
theorem chipAddLoop_spec {rounds : Nat} (holds : m.Holds (pre ++ x :: post))
    (here : m.Allocated c) (absent : chipAdd c (x :: post) ≠ none → c ∉ pre ++ x :: post)
    (enough : post.length < rounds) :
    (chipAdd c (x :: post) = none ∧
      chipAddLoop c.address rounds x.address m = some (.error, m)) ∨
    ∃ added m', chipAdd c (x :: post) = some added ∧
      chipAddLoop c.address rounds x.address m = some (.success, m') ∧
      Keeps m.heap m'.heap ∧ m'.Holds (pre ++ added) := by
  obtain ⟨r, rfl⟩ : ∃ r, rounds = r + 1 := ⟨rounds - 1, by omega⟩
  induction post generalizing pre x r with
  | nil =>
      by_cases before : c.precedes x.toChipTuple
      · have added : chipAdd c [x] = some [c, x] := if_pos before
        obtain ⟨m', rest⟩ := chipAddLoop_before holds here (absent (by simp [added])) before r
        exact .inr ⟨_, m', added, rest⟩
      · by_cases same : c.toChipTuple = x.toChipTuple
        · exact .inl ⟨by rw [chipAdd, if_neg before, if_pos same],
            chipAddLoop_same holds here before same r⟩
        · have added : chipAdd c [x] = some [x, c] := by simp [chipAdd, before, same]
          obtain ⟨m', rest⟩ := chipAddLoop_end holds here (absent (by simp [added])) before same r
          exact .inr ⟨_, m', added, rest⟩
  | cons y post ih =>
      by_cases before : c.precedes x.toChipTuple
      · have added : chipAdd c (x :: y :: post) = some (c :: x :: y :: post) := if_pos before
        obtain ⟨m', rest⟩ := chipAddLoop_before holds here (absent (by simp [added])) before r
        exact .inr ⟨_, m', added, rest⟩
      · by_cases same : c.toChipTuple = x.toChipTuple
        · exact .inl ⟨by rw [chipAdd, if_neg before, if_pos same],
            chipAddLoop_same holds here before same r⟩
        · have later : chipAdd c (x :: y :: post) = (chipAdd c (y :: post)).map (x :: ·) := by
            rw [chipAdd, if_neg before, if_neg same]
          obtain ⟨q, rfl⟩ : ∃ q, r = q + 1 :=
            ⟨r - 1, by simp only [List.length_cons] at enough; omega⟩
          have shifted : pre ++ x :: y :: post = (pre ++ [x]) ++ y :: post := by simp
          rw [chipAddLoop_next holds here before same, later]
          rw [shifted] at holds absent
          obtain ⟨duplicate, fails⟩ | ⟨added, m', into, done, keeps, holds'⟩ := ih holds
            (fun some => absent (by simpa [later] using some)) q
            (by simp only [List.length_cons] at enough; omega)
          · exact .inl ⟨by rw [duplicate]; rfl, fails⟩
          · rw [List.append_assoc] at holds'
            exact .inr ⟨x :: added, m', by rw [into]; rfl, done, keeps, holds'⟩

/-- `chip_add` in memory does what chipAdd does to the sorted list that memory holds. -/
theorem chip_add_spec {chips : List ChipInfo} (rounds : Nat) (holds : m.Holds chips)
    (sorted : Sorted chips) (here : m.Allocated c) (enough : chips.length ≤ rounds) :
    (chipAdd c chips = none ∧ m.chip_add rounds c.address = some (.error, m)) ∨
    ∃ added m', chipAdd c chips = some added ∧
      m.chip_add rounds c.address = some (.success, m') ∧
      Keeps m.heap m'.heap ∧ m'.Holds added := by
  cases chips with
  | nil =>
      have head : m.chip_list = none := holds.head
      obtain ⟨heap₁, ends₁, heap₂, ends₂, linked₁, linked₂, keeps, holds'⟩ :=
        @Holds.insert m c [] [] holds here (by simp)
      obtain ⟨rfl, rfl⟩ := Prod.mk.inj (Option.some.inj linked₁)
      obtain ⟨rfl, rfl⟩ := Prod.mk.inj (Option.some.inj linked₂)
      refine .inr ⟨[c], _, rfl, ?_, keeps, holds'⟩
      obtain ⟨node, at_c, rfl⟩ := here
      have own : m.heap.setNext node.value.address none =
          some (m.heap.write node.value.address { node with next := none }) := by
        simp [Heap.setNext, at_c]
      rw [chip_add, head]
      simp only [own, Option.bind_eq_bind, Option.bind_some, setPrev_write]
      rfl
  | cons x post =>
      have head : m.chip_list = some x.address := holds.head
      have absent : chipAdd c (x :: post) ≠ none → c ∉ [] ++ x :: post := by
        intro some mem
        exact some ((chipAdd_eq_none sorted).mpr (List.mem_map_of_mem mem))
      have step := @chipAddLoop_spec m c x [] post _ holds here absent enough
      rw [chip_add, head]
      exact step

end Add

/-- A call of chip_add as a step. -/
def step (rounds : Nat) (m : ChipMemory) (c : ChipInfo) : Option ChipMemory :=
  (m.chip_add rounds c.address).map Prod.snd

/-- From chip_list one passes the entries by next, from the last one in the opposite order by
prev, and the one link undoes the other. -/
structure WellLinked (m : ChipMemory) (chips : List ChipInfo) : Prop where
  distinct : (chips.map ChipInfo.address).Nodup
  forward : Visits Node.next m.heap m.chip_list (cells chips)
  backward : Visits Node.prev m.heap (last none (cells chips)) (cells chips).reverse
  inverse : ∀ a ∈ chips, ∀ b ∈ chips,
    (∃ node, m.heap a.address = some node ∧ node.next = some b.address) ↔
      ∃ node, m.heap b.address = some node ∧ node.prev = some a.address

/-- The four fields of the entries increase from each to the next. -/
def Increasing (chips : List ChipInfo) : Prop :=
  chips.Pairwise fun c x => c.key < x.key

theorem Holds.wellLinked {m : ChipMemory} {chips : List ChipInfo} (holds : m.Holds chips) :
    m.WellLinked chips where
  distinct := addresses_cells chips ▸ holds.distinct
  forward := holds.forward
  backward := holds.backward
  inverse _ mem _ mem' := holds.next_iff_prev
    (addresses_cells chips ▸ List.mem_map_of_mem mem)
    (addresses_cells chips ▸ List.mem_map_of_mem mem')

theorem increasing_of_sorted {chips : List ChipInfo} (sorted : Sorted chips) :
    Increasing chips :=
  (List.pairwise_map.mp sorted).imp ChipTuple.precedes_iff.mp

theorem exists_run (rounds : Nat) {m : ChipMemory} {chips calls : List ChipInfo}
    (holds : m.Holds chips) (sorted : Sorted chips) (allocated : ∀ c ∈ calls, m.Allocated c)
    (enough : chips.length + calls.length ≤ rounds) :
    ∃ m' chips', Run (step rounds) m calls m' ∧ m'.Holds chips' ∧ Sorted chips' ∧
      Keeps m.heap m'.heap ∧ chips'.length ≤ chips.length + calls.length := by
  induction calls generalizing m chips with
  | nil => exact ⟨m, chips, .nil m, holds, sorted, fun _ => rfl, le_refl _⟩
  | cons c calls ih =>
      rw [List.length_cons] at enough ⊢
      have here := allocated c List.mem_cons_self
      have others := fun d mem => allocated d (List.mem_cons_of_mem c mem)
      obtain ⟨-, fails⟩ | ⟨added, m₁, into, done, keeps, holds₁⟩ :=
        chip_add_spec rounds holds sorted here (by omega)
      · obtain ⟨m', chips', run, holds', sorted', keeps', length⟩ :=
          ih holds sorted others (by omega)
        refine ⟨m', chips', .cons ?_ run, holds', sorted', keeps', by omega⟩
        rw [step, fails]
        rfl
      · have longer : added.length = chips.length + 1 := (chipAdd_perm into).length_eq
        obtain ⟨m', chips', run, holds', sorted', keeps', length⟩ :=
          ih holds₁ (chipAdd_sorted sorted into) (fun d mem => (others d mem).keeps keeps)
            (by omega)
        refine ⟨m', chips', .cons ?_ run, holds', sorted', keeps.trans keeps', by omega⟩
        rw [step, done]
        rfl

/-- Before and after every call of a sequence of calls on the empty list, of entries whose links
may be anything, memory holds a strictly increasing list that is linked both ways; a
call fails and changes nothing just where the four fields are listed already, and
otherwise the new entry is all that is added. -/
theorem chip_add_keeps_increasing_list (heap : Heap Nat ChipInfo) (calls : List ChipInfo)
    (allocated : ∀ c ∈ calls, Allocated ⟨heap, none⟩ c) (rounds : Nat)
    (enough : calls.length ≤ rounds) (before after : List ChipInfo)
    (split : calls = before ++ after) :
    ∃ m chips, Run (step rounds) ⟨heap, none⟩ before m ∧ m.WellLinked chips ∧ Increasing chips ∧
      ∀ c rest, after = c :: rest → ∃ rc m' chips', m.chip_add rounds c.address = some (rc, m') ∧
        m'.WellLinked chips' ∧ Increasing chips' ∧
        (rc = .error ↔ c.toChipTuple ∈ tuples chips) ∧ (rc = .error → m' = m) ∧
        (rc = .success → chips'.Perm (c :: chips)) := by
  subst split
  rw [List.length_append] at enough
  have empty : Holds ⟨heap, none⟩ [] := Chain.nil heap
  obtain ⟨m, chips, run, holds, sorted, keeps, length⟩ := exists_run rounds empty List.Pairwise.nil
    (fun c mem => allocated c (List.mem_append_left _ mem)) (by simp; omega)
  refine ⟨m, chips, run, holds.wellLinked, increasing_of_sorted sorted, ?_⟩
  rintro c rest rfl
  have here : m.Allocated c := (allocated c (by simp)).keeps keeps
  simp only [List.length_nil, List.length_cons] at length enough
  obtain ⟨duplicate, fails⟩ | ⟨added, m', into, done, -, holds'⟩ :=
    chip_add_spec rounds holds sorted here (by omega)
  · refine ⟨.error, m, chips, fails, holds.wellLinked, increasing_of_sorted sorted, ?_, ?_, ?_⟩
    · simpa using (chipAdd_eq_none sorted).mp duplicate
    · exact fun _ => rfl
    · simp
  · refine ⟨.success, m', added, done, holds'.wellLinked,
      increasing_of_sorted (chipAdd_sorted sorted into), ?_, by simp, fun _ => chipAdd_perm into⟩
    have new : c.toChipTuple ∉ tuples chips := fun mem => by
      cases into.symm.trans ((chipAdd_eq_none sorted).mpr mem)
    simpa using new

/-- Three entries as malloc() left them, the third one equal to the first. -/
def scattered : Heap Nat ChipInfo
  | 1 => some ⟨some 7, some 8, ⟨⟨194, 1, 0, 2⟩, 1, 1⟩⟩
  | 2 => some ⟨none, some 2, ⟨⟨126, 8, 0, 1⟩, 2, 2⟩⟩
  | 3 => some ⟨some 3, none, ⟨⟨194, 1, 0, 2⟩, 3, 3⟩⟩
  | _ => none

theorem scattered_entries_are_listed :
    ∃ m chips, Run (step 3) ⟨scattered, none⟩
        [⟨⟨194, 1, 0, 2⟩, 1, 1⟩, ⟨⟨126, 8, 0, 1⟩, 2, 2⟩] m ∧
      m.WellLinked chips ∧ Increasing chips ∧
      ∃ rc m' chips', m.chip_add 3 3 = some (rc, m') ∧ m'.WellLinked chips' ∧
        Increasing chips' := by
  have allocated : ∀ c ∈ [⟨⟨194, 1, 0, 2⟩, 1, 1⟩, ⟨⟨126, 8, 0, 1⟩, 2, 2⟩, ⟨⟨194, 1, 0, 2⟩, 3, 3⟩],
      Allocated ⟨scattered, none⟩ c := by
    intro c mem
    simp only [List.mem_cons, List.not_mem_nil, or_false] at mem
    obtain rfl | rfl | rfl := mem
    · exact ⟨_, rfl, rfl⟩
    · exact ⟨_, rfl, rfl⟩
    · exact ⟨_, rfl, rfl⟩
  obtain ⟨m, chips, run, linked, increasing, next⟩ :=
    chip_add_keeps_increasing_list scattered _ allocated 3 (by decide)
      [⟨⟨194, 1, 0, 2⟩, 1, 1⟩, ⟨⟨126, 8, 0, 1⟩, 2, 2⟩] [⟨⟨194, 1, 0, 2⟩, 3, 3⟩] rfl
  obtain ⟨rc, m', chips', added, linked', increasing', -⟩ := next _ _ rfl
  exact ⟨m, chips, run, linked, increasing, rc, m', chips', added, linked', increasing'⟩

end ChipMemory
end Msm8974.Dtbtool
