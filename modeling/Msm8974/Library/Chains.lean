import Mathlib.Data.List.Induction
import Mathlib.Data.List.Nodup
import Mathlib.Logic.Function.Basic

/-!
Doubly linked chains in a heap of nodes. A cell is an address with the value stored there, and a
chain is a sequence of cells that is linked both ways between two outer links. A write to the
outermost link of a chain is one lemma for each end; pushing, popping and unlinking a node are
composed from these.
-/

namespace Msm8974.Chains
universe u v
variable {π : Type u} {ν : Type v}

structure Node (π : Type u) (ν : Type v) where
  next : Option π
  prev : Option π
  value : ν
deriving DecidableEq

/-- What is stored at each address that is allocated. -/
abbrev Heap (π : Type u) (ν : Type v) := π → Option (Node π ν)

structure Ends (π : Type u) where
  head : Option π
  tail : Option π
deriving DecidableEq

/-- Where `next` leads to from in front of the cells, when it leads to `after` behind them. -/
def first (cells : List (π × ν)) (after : Option π) : Option π :=
  (cells.head?.map Prod.fst).or after

/-- Where `prev` leads to from behind the cells, when it leads to `before` in front of them. -/
def last (before : Option π) (cells : List (π × ν)) : Option π :=
  (cells.getLast?.map Prod.fst).or before

def addresses (cells : List (π × ν)) : List π := cells.map Prod.fst

def Linked (heap : Heap π ν) : Option π → List (π × ν) → Option π → Prop
  | _, [], _ => True
  | before, (a, x) :: cells, after =>
      heap a = some ⟨first cells after, before, x⟩ ∧ Linked heap (some a) cells after

/-- One passes these cells, and nothing else, when one follows `link` from `p` to NULL. -/
def Visits (link : Node π ν → Option π) (heap : Heap π ν) : Option π → List (π × ν) → Prop
  | p, [] => p = none
  | p, (a, x) :: cells =>
      p = some a ∧ ∃ node, heap a = some node ∧ node.value = x ∧
        Visits link heap (link node) cells

/-- The values one passes when one follows `link` from `p`, up to a bound on their number. -/
def readBack (link : Node π ν → Option π) (heap : Heap π ν) : Nat → Option π → List ν
  | bound + 1, some a =>
      match heap a with
      | some node => node.value :: readBack link heap bound (link node)
      | none => []
  | _, _ => []

/-- A whole chain: the cells between the two ends, no address twice. -/
structure Chain (heap : Heap π ν) (ends : Ends π) (cells : List (π × ν)) : Prop where
  distinct : (addresses cells).Nodup
  linked : Linked heap none cells none
  head : ends.head = first cells none
  tail : ends.tail = last none cells

namespace Heap
variable [DecidableEq π]

def write (heap : Heap π ν) (a : π) (node : Node π ν) : Heap π ν :=
  Function.update heap a (some node)

def free (heap : Heap π ν) (a : π) : Heap π ν := Function.update heap a none

/-- Only a node that is allocated can be written. -/
def setNext (heap : Heap π ν) (a : π) (next : Option π) : Option (Heap π ν) :=
  (heap a).map fun node => heap.write a { node with next }

def setPrev (heap : Heap π ν) (a : π) (prev : Option π) : Option (Heap π ν) :=
  (heap a).map fun node => heap.write a { node with prev }

@[simp] theorem write_of_ne {heap : Heap π ν} {a b : π} {node : Node π ν} (h : b ≠ a) :
    heap.write a node b = heap b := Function.update_of_ne h _ _

@[simp] theorem free_of_ne {heap : Heap π ν} {a b : π} (h : b ≠ a) : heap.free a b = heap b :=
  Function.update_of_ne h _ _

@[simp] theorem free_write {heap : Heap π ν} {a : π} {node : Node π ν} :
    (heap.write a node).free a = heap.free a := Function.update_idem ..

@[simp] theorem write_write {heap : Heap π ν} {a : π} {node node' : Node π ν} :
    (heap.write a node).write a node' = heap.write a node' := Function.update_idem ..

@[simp] theorem write_self {heap : Heap π ν} {a : π} {node : Node π ν} :
    heap.write a node a = some node := Function.update_self ..

end Heap

section Ends
variable [DecidableEq π]

/-- Redirects what leads forward from `p`, which is the head where there is no `p`. -/
def linkNext (p next : Option π) (heap : Heap π ν) (ends : Ends π) :
    Option (Heap π ν × Ends π) :=
  match p with
  | none => some (heap, { ends with head := next })
  | some a => (heap.setNext a next).map fun heap => (heap, ends)

/-- Redirects what leads backward from `p`, which is the tail where there is no `p`. -/
def linkPrev (p prev : Option π) (heap : Heap π ν) (ends : Ends π) :
    Option (Heap π ν × Ends π) :=
  match p with
  | none => some (heap, { ends with tail := prev })
  | some a => (heap.setPrev a prev).map fun heap => (heap, ends)

end Ends

section Shape
variable {heap : Heap π ν} {before after : Option π} {a : π} {x : ν} {xs ys : List (π × ν)}

@[simp] theorem first_nil : first ([] : List (π × ν)) after = after := rfl

@[simp] theorem first_cons : first ((a, x) :: xs) after = some a := rfl

@[simp] theorem last_nil : last before ([] : List (π × ν)) = before := rfl

@[simp] theorem last_concat : last before (xs ++ [(a, x)]) = some a := by simp [last]

theorem first_append : first (xs ++ ys) after = first xs (first ys after) := by
  cases xs <;> rfl

theorem last_append : last before (xs ++ ys) = last (last before xs) ys := by
  cases ys using List.reverseRecOn with
  | nil => simp
  | append_singleton ys y =>
      obtain ⟨b, z⟩ := y
      rw [← List.append_assoc, last_concat, last_concat]

theorem last_cons : last before ((a, x) :: xs) = last (some a) xs :=
  (last_append : last before ([(a, x)] ++ xs) = last (last before [(a, x)]) xs)

theorem linked_append :
    Linked heap before (xs ++ ys) after ↔
      Linked heap before xs (first ys after) ∧ Linked heap (last before xs) ys after := by
  induction xs generalizing before with
  | nil => simp [Linked]
  | cons cell xs ih =>
      obtain ⟨a, x⟩ := cell
      simp only [List.cons_append, Linked, ih, first_append, last_cons, and_assoc]

theorem Linked.congr {heap' : Heap π ν} (same : ∀ a ∈ addresses xs, heap' a = heap a)
    (h : Linked heap before xs after) : Linked heap' before xs after := by
  induction xs generalizing before with
  | nil => trivial
  | cons cell xs ih =>
      obtain ⟨a, x⟩ := cell
      refine ⟨(same a List.mem_cons_self).trans h.1, ih ?_ h.2⟩
      intro b mem
      exact same b (List.mem_cons_of_mem _ mem)

theorem Linked.allocated (h : Linked heap before xs after) : ∀ a ∈ addresses xs, heap a ≠ none := by
  induction xs generalizing before with
  | nil => simp [addresses]
  | cons cell xs ih =>
      obtain ⟨a, x⟩ := cell
      intro b mem
      cases mem with
      | head => simp [h.1]
      | tail _ mem => exact ih h.2 b mem

theorem Linked.forward (h : Linked heap before xs none) :
    Visits Node.next heap (first xs none) xs := by
  induction xs generalizing before with
  | nil => rfl
  | cons cell xs ih =>
      obtain ⟨a, x⟩ := cell
      exact ⟨rfl, _, h.1, rfl, ih h.2⟩

theorem Linked.backward (h : Linked heap none xs after) :
    Visits Node.prev heap (last none xs) xs.reverse := by
  induction xs using List.reverseRecOn generalizing after with
  | nil => rfl
  | append_singleton xs cell ih =>
      obtain ⟨a, x⟩ := cell
      obtain ⟨earlier, final, -⟩ := linked_append.mp h
      rw [List.reverse_append, last_concat]
      exact ⟨rfl, _, final, rfl, ih earlier⟩

end Shape

theorem Chain.forward {heap : Heap π ν} {ends : Ends π} {cells : List (π × ν)}
    (h : Chain heap ends cells) : Visits Node.next heap ends.head cells :=
  h.head ▸ h.linked.forward

theorem Chain.backward {heap : Heap π ν} {ends : Ends π} {cells : List (π × ν)}
    (h : Chain heap ends cells) : Visits Node.prev heap ends.tail cells.reverse :=
  h.tail ▸ h.linked.backward

theorem Visits.readBack {link : Node π ν → Option π} {heap : Heap π ν} {p : Option π}
    {cells : List (π × ν)} (h : Visits link heap p cells) {bound : Nat}
    (enough : cells.length ≤ bound) : readBack link heap bound p = cells.map Prod.snd := by
  induction cells generalizing p bound with
  | nil =>
      obtain rfl : p = none := h
      cases bound <;> rfl
  | cons cell cells ih =>
      obtain ⟨a, x⟩ := cell
      obtain ⟨rfl, node, here, rfl, rest⟩ := h
      cases bound with
      | zero => simp at enough
      | succ bound => simp [Chains.readBack, here, ih rest (Nat.le_of_succ_le_succ enough)]

/-- Of two cells of a chain the first leads forward to the second just where the second leads
back to the first. -/
theorem Chain.next_iff_prev {heap : Heap π ν} {ends : Ends π} {cells : List (π × ν)} {a b : π}
    (h : Chain heap ends cells) (mem : a ∈ addresses cells) (mem' : b ∈ addresses cells) :
    (∃ node, heap a = some node ∧ node.next = some b) ↔
      ∃ node, heap b = some node ∧ node.prev = some a := by
  constructor
  · intro ⟨node, here, next⟩
    obtain ⟨⟨_, x⟩, cell, rfl⟩ := List.mem_map.mp mem
    obtain ⟨pre, post, rfl⟩ := List.append_of_mem cell
    obtain ⟨-, this, later⟩ := linked_append.mp h.linked
    obtain rfl := Option.some.inj (here.symm.trans this)
    cases post with
    | nil => cases next
    | cons following post =>
        obtain rfl : following.1 = b := Option.some.inj next
        exact ⟨_, later.1, rfl⟩
  · intro ⟨node, here, prev⟩
    obtain ⟨⟨_, y⟩, cell, rfl⟩ := List.mem_map.mp mem'
    obtain ⟨pre, post, rfl⟩ := List.append_of_mem cell
    obtain ⟨earlier, this, -⟩ := linked_append.mp h.linked
    obtain rfl := Option.some.inj (here.symm.trans this)
    obtain rfl | ⟨pre, ⟨c, x⟩, rfl⟩ := List.eq_nil_or_concat pre
    · cases prev
    · rw [List.concat_eq_append] at earlier
      simp only [List.concat_eq_append, last_concat, Option.some.injEq] at prev
      exact ⟨_, prev ▸ (linked_append.mp earlier).2.1, rfl⟩

theorem Chain.nil (heap : Heap π ν) : Chain heap ⟨none, none⟩ [] :=
  ⟨List.nodup_nil, trivial, rfl, rfl⟩

theorem Chain.not_mem {heap : Heap π ν} {ends : Ends π} {cells : List (π × ν)} {a : π}
    (h : Chain heap ends cells) (free : heap a = none) : a ∉ addresses cells :=
  fun mem => h.linked.allocated a mem free

section Writes
variable [DecidableEq π] {heap : Heap π ν} {ends : Ends π} {before after : Option π} {a : π}
  {x : ν} {xs ys : List (π × ν)}

theorem Linked.write (h : Linked heap before xs after) (other : a ∉ addresses xs)
    (node : Node π ν) : Linked (heap.write a node) before xs after :=
  h.congr fun _ mem => Heap.write_of_ne fun same => other (same ▸ mem)

theorem Linked.free (h : Linked heap before xs after) (other : a ∉ addresses xs) :
    Linked (heap.free a) before xs after :=
  h.congr fun _ mem => Heap.free_of_ne fun same => other (same ▸ mem)

/-- The link behind the last cell of a chain can be redirected. -/
theorem Linked.linkNext (h : Linked heap none xs after) (ends : Ends π)
    (distinct : (addresses xs).Nodup) (head : ends.head = first xs after) (next : Option π) :
    ∃ heap' ends', linkNext (last none xs) next heap ends = some (heap', ends') ∧
      Linked heap' none xs next ∧ ends'.head = first xs next ∧ ends'.tail = ends.tail ∧
      ∀ b ∉ addresses xs, heap' b = heap b := by
  cases xs using List.reverseRecOn with
  | nil => exact ⟨heap, _, rfl, trivial, rfl, rfl, fun _ _ => rfl⟩
  | append_singleton xs cell =>
      obtain ⟨a, x⟩ := cell
      obtain ⟨earlier, final, -⟩ := linked_append.mp h
      have others : a ∉ addresses xs := by
        simp only [addresses, List.map_append, List.map_cons, List.map_nil] at distinct
        exact (List.nodup_append.mp distinct).2.2 |> fun apart mem => apart a mem a (by simp) rfl
      refine ⟨heap.write a ⟨next, last none xs, x⟩, ends, ?_, ?_, ?_, rfl, ?_⟩
      · simp [Chains.linkNext, Heap.setNext, final]
      · exact linked_append.mpr ⟨earlier.write others _, Heap.write_self, trivial⟩
      · rw [head, first_append, first_append]
        rfl
      · intro b other
        apply Heap.write_of_ne
        rintro rfl
        exact other (by simp [addresses])

/-- The link in front of the first cell of a chain can be redirected. -/
theorem Linked.linkPrev (h : Linked heap before xs none) (ends : Ends π)
    (distinct : (addresses xs).Nodup) (tail : ends.tail = last before xs) (prev : Option π) :
    ∃ heap' ends', linkPrev (first xs none) prev heap ends = some (heap', ends') ∧
      Linked heap' prev xs none ∧ ends'.head = ends.head ∧ ends'.tail = last prev xs ∧
      ∀ b ∉ addresses xs, heap' b = heap b := by
  cases xs with
  | nil => exact ⟨heap, _, rfl, trivial, rfl, rfl, fun _ _ => rfl⟩
  | cons cell xs =>
      obtain ⟨a, x⟩ := cell
      have others : a ∉ addresses xs := (List.nodup_cons.mp distinct).1
      refine ⟨heap.write a ⟨first xs none, prev, x⟩, ends, ?_, ?_, rfl, ?_, ?_⟩
      · simp [Chains.linkPrev, Heap.setPrev, h.1]
      · exact ⟨Heap.write_self, h.2.write others _⟩
      · rw [tail, last_cons, last_cons]
      · intro b other
        apply Heap.write_of_ne
        rintro rfl
        exact other List.mem_cons_self

namespace Chain
variable {cells pre post : List (π × ν)}

/-- A new node becomes the head. -/
theorem push (h : Chain heap ends cells) (free : heap a = none) (x : ν) :
    ∃ heap' ends', linkPrev ends.head (some a) (heap.write a ⟨ends.head, none, x⟩)
        { ends with head := some a } = some (heap', ends') ∧
      Chain heap' ends' ((a, x) :: cells) := by
  have others := h.not_mem free
  obtain ⟨heap', ends', linked, cells_linked, head, tail, frame⟩ :=
    (h.linked.write others ⟨ends.head, none, x⟩).linkPrev { ends with head := some a }
      h.distinct h.tail (some a)
  refine ⟨heap', ends', h.head ▸ linked, ?_, ⟨?_, cells_linked⟩, head, ?_⟩
  · exact List.nodup_cons.mpr ⟨others, h.distinct⟩
  · rw [frame a others, h.head, Heap.write_self]
  · rw [tail, last_cons]

/-- The node at the tail goes. -/
theorem pop (h : Chain heap ends (pre ++ [(a, x)])) :
    heap a = some ⟨none, last none pre, x⟩ ∧
      ∃ heap' ends', linkNext (last none pre) none heap { ends with tail := last none pre } =
          some (heap', ends') ∧ Chain (heap'.free a) ends' pre := by
  obtain ⟨earlier, final, -⟩ := linked_append.mp h.linked
  have parts := h.distinct
  simp only [addresses, List.map_append, List.map_cons, List.map_nil] at parts
  obtain ⟨distinct, -, apart⟩ := List.nodup_append.mp parts
  have others : a ∉ addresses pre := fun mem => apart a mem a (by simp) rfl
  obtain ⟨heap', ends', linked, cells_linked, head, tail, -⟩ :=
    earlier.linkNext { ends with tail := last none pre } distinct
      (by rw [h.head, first_append]) none
  exact ⟨final, heap', ends', linked, distinct, cells_linked.free others, head, tail⟩

/-- A new node comes between two chains. -/
theorem insert (h : Chain heap ends (pre ++ post)) (fresh : a ∉ addresses (pre ++ post)) (x : ν) :
    ∃ heap₁ ends₁ heap₂ ends₂,
      linkNext (last none pre) (some a)
        (heap.write a ⟨first post none, last none pre, x⟩) ends = some (heap₁, ends₁) ∧
      linkPrev (first post none) (some a) heap₁ ends₁ = some (heap₂, ends₂) ∧
      Chain heap₂ ends₂ (pre ++ (a, x) :: post) := by
  obtain ⟨earlier, later⟩ := linked_append.mp h.linked
  have parts := h.distinct
  simp only [addresses, List.map_append] at parts fresh
  obtain ⟨distinct, distinct', apart⟩ := List.nodup_append.mp parts
  obtain ⟨not_pre, not_post⟩ := not_or.mp (mt List.mem_append.mpr fresh)
  have apart' : ∀ b ∈ addresses post, b ∉ addresses pre := fun b mem mem' => apart b mem' b mem rfl
  obtain ⟨heap₁, ends₁, linked₁, pre_linked, head₁, tail₁, frame₁⟩ :=
    (earlier.write not_pre ⟨first post none, last none pre, x⟩).linkNext ends distinct
      (by rw [h.head, first_append]) (some a)
  have later₁ : Linked heap₁ (last none pre) post none :=
    (later.write not_post _).congr fun b mem => frame₁ b (apart' b mem)
  obtain ⟨heap₂, ends₂, linked₂, post_linked, head₂, tail₂, frame₂⟩ :=
    later₁.linkPrev ends₁ distinct' (by rw [tail₁, h.tail, last_append]) (some a)
  refine ⟨heap₁, ends₁, heap₂, ends₂, linked₁, linked₂, ?_, ?_, ?_, ?_⟩
  · simp only [addresses, List.map_append, List.map_cons]
    refine List.nodup_append.mpr ⟨distinct, List.nodup_cons.mpr ⟨not_post, distinct'⟩, ?_⟩
    intro b mem c mem' same
    cases mem' with
    | head => exact not_pre (same ▸ mem)
    | tail _ mem' => exact apart b mem c mem' same
  · refine linked_append.mpr ⟨pre_linked.congr fun b mem => frame₂ b fun mem' => ?_, ?_, ?_⟩
    · exact apart' b mem' mem
    · rw [frame₂ a not_post, frame₁ a not_pre, Heap.write_self]
    · exact post_linked
  · rw [head₂, head₁, first_append]
    rfl
  · rw [tail₂, last_append, last_cons]

/-- A node between two chains goes. -/
theorem unlink (h : Chain heap ends (pre ++ (a, x) :: post)) :
    heap a = some ⟨first post none, last none pre, x⟩ ∧
      ∃ heap₁ ends₁ heap₂ ends₂,
        linkNext (last none pre) (first post none) heap ends = some (heap₁, ends₁) ∧
        heap₁ a = heap a ∧
        linkPrev (first post none) (last none pre) heap₁ ends₁ = some (heap₂, ends₂) ∧
        Chain (heap₂.free a) ends₂ (pre ++ post) := by
  obtain ⟨earlier, here, later⟩ := linked_append.mp h.linked
  have parts := h.distinct
  simp only [addresses, List.map_append, List.map_cons] at parts
  obtain ⟨distinct, ⟨fresh, distinct'⟩, apart⟩ :=
    (List.nodup_append.mp parts).imp_right (And.imp_left List.nodup_cons.mp)
  have not_pre : a ∉ addresses pre := fun mem => apart a mem a List.mem_cons_self rfl
  have apart' : ∀ b ∈ addresses post, b ∉ addresses pre := fun b mem mem' =>
    apart b mem' b (List.mem_cons_of_mem _ mem) rfl
  obtain ⟨heap₁, ends₁, linked₁, pre_linked, head₁, tail₁, frame₁⟩ :=
    earlier.linkNext ends distinct (by rw [h.head, first_append]) (first post none)
  obtain ⟨heap₂, ends₂, linked₂, post_linked, head₂, tail₂, frame₂⟩ :=
    (later.congr fun b mem => frame₁ b (apart' b mem)).linkPrev ends₁ distinct'
      (by rw [tail₁, h.tail, last_append, last_cons]) (last none pre)
  refine ⟨here, heap₁, ends₁, heap₂, ends₂, linked₁, frame₁ a not_pre, linked₂, ?_, ?_, ?_, ?_⟩
  · simp only [addresses, List.map_append]
    exact List.nodup_append.mpr ⟨distinct, distinct', fun b mem c mem' same =>
      apart' c mem' (same ▸ mem)⟩
  · refine linked_append.mpr ⟨Linked.free (pre_linked.congr fun b mem => frame₂ b fun mem' => ?_)
      not_pre, post_linked.free fresh⟩
    exact apart' b mem' mem
  · rw [head₂, head₁, first_append]
  · rw [tail₂, last_append]

end Chain
end Writes

end Msm8974.Chains
