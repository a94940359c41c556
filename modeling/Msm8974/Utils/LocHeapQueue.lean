import Msm8974.Utils.LocHeap

/-!
LocHeap serves as a priority queue. checkNodes is the invariant of all three
operations, and under it the top of every subtree ranks highest in that subtree,
which is what pop relies on and what makes the pruning of remove safe.
-/

namespace Msm8974
open Msm8974.PriorityQueue
universe u
variable {α : Type u}

namespace LocHeapNode

def elements : LocHeapNode α → Multiset α
  | null => 0
  | node _ mLeft mRight mData => mData ::ₘ (mLeft.elements + mRight.elements)

theorem mem_elements_of_data? {t : LocHeapNode α} {x : α} (h : t.data? = some x) :
    x ∈ t.elements := by
  cases t with
  | null => cases h
  | node n l r y =>
      obtain rfl : y = x := Option.some.inj h
      exact Multiset.mem_cons_self _ _

theorem mem_elements_node {n : Int} {l r : LocHeapNode α} {x y : α} :
    y ∈ (node n l r x).elements ↔ y = x ∨ y ∈ l.elements ∨ y ∈ r.elements := by
  simp [elements]

variable [LocRankable α]

/-- No datum of the subtree outranks `x`. -/
def Below (x : α) (t : LocHeapNode α) : Prop := ∀ y ∈ t.elements, outRanks y x = false

theorem checkNodes_node {n : Int} {l r : LocHeapNode α} {x : α} :
    (node n l r x).checkNodes = true ↔
      (∀ y ∈ l.data?, outRanks y x = false) ∧ l.checkNodes = true ∧
        (∀ y ∈ r.data?, outRanks y x = false) ∧ r.checkNodes = true ∧
          n = 1 + l.getSize + r.getSize := by
  have size : n - l.getSize - r.getSize = 1 ↔ n = 1 + l.getSize + r.getSize := by omega
  cases hl : l.data? <;> cases hr : r.data? <;> simp [checkNodes, hl, hr, size, and_assoc]

/-- In a tree that passes the check, the top of a subtree ranks highest in it. -/
theorem below_of_data? {t : LocHeapNode α} {x : α} (check : t.checkNodes = true)
    (top : ∀ y ∈ t.data?, outRanks y x = false) : t.Below x := by
  induction t generalizing x with
  | null =>
      intro y hy
      simp [elements] at hy
  | node n l r z ihl ihr =>
      obtain ⟨topl, checkl, topr, checkr, -⟩ := checkNodes_node.mp check
      have hz : outRanks z x = false := top z rfl
      intro y hy
      obtain rfl | hy | hy := mem_elements_node.mp hy
      · exact hz
      · exact not_outRanks_trans (ihl checkl topl y hy) hz
      · exact not_outRanks_trans (ihr checkr topr y hy) hz

theorem checkNodes_iff {n : Int} {l r : LocHeapNode α} {x : α} :
    (node n l r x).checkNodes = true ↔
      l.Below x ∧ l.checkNodes = true ∧ r.Below x ∧ r.checkNodes = true ∧
        n = 1 + l.getSize + r.getSize := by
  rw [checkNodes_node]
  constructor
  · intro ⟨topl, checkl, topr, checkr, size⟩
    exact ⟨below_of_data? checkl topl, checkl, below_of_data? checkr topr, checkr, size⟩
  · intro ⟨belowl, checkl, belowr, checkr, size⟩
    exact ⟨fun y hy => belowl y (mem_elements_of_data? hy), checkl,
      fun y hy => belowr y (mem_elements_of_data? hy), checkr, size⟩

theorem highest_of_data? {t : LocHeapNode α} {x : α} (check : t.checkNodes = true)
    (top : t.data? = some x) : Highest (outRanks · · = true) t.elements x := by
  refine ⟨mem_elements_of_data? top, fun y hy => ?_⟩
  have below : t.Below x := below_of_data? check fun z hz => by
    obtain rfl : x = z := Option.some.inj (top.symm.trans hz)
    exact outRanks_irrefl x
  simp [below y hy]

theorem Below.raise {t : LocHeapNode α} {x y : α} (h : t.Below x) (le : outRanks x y = false) :
    t.Below y :=
  fun z hz => not_outRanks_trans (h z hz) le

theorem Below.mono {s t : LocHeapNode α} {x : α} (h : t.Below x) (sub : s.elements ≤ t.elements) :
    s.Below x :=
  fun z hz => h z (Multiset.mem_of_le sub hz)

section Push

/-- A push keeps the higher of the two data and sends the other into a subtree: into the
left one where the left one is null or not the larger, into the right one otherwise. -/
theorem push_node (data : α) (n : Int) (l r : LocHeapNode α) (x : α) :
    ∃ top down : α, ((top = data ∧ down = x) ∨ (top = x ∧ down = data)) ∧
      outRanks down top = false ∧ outRanks x top = false ∧
      (((l.isNull = true ∨ r.isNull = false ∧ l.getSize ≤ r.getSize) ∧
          (node n l r x).push data = node (n + 1) (l.push down) r top) ∨
        ((l.isNull = false ∧ (r.isNull = true ∨ r.getSize < l.getSize)) ∧
          (node n l r x).push data = node (n + 1) l (r.push down) top)) := by
  suffices ∃ top down : α, ((top = data ∧ down = x) ∨ (top = x ∧ down = data)) ∧
      outRanks down top = false ∧ outRanks x top = false ∧
      (node n l r x).push data =
        if l.isNull then node (n + 1) (new down) r top
        else if r.isNull then node (n + 1) l (new down) top
        else if l.getSize ≤ r.getSize then node (n + 1) (l.push down) r top
        else node (n + 1) l (r.push down) top by
    obtain ⟨top, down, which, le, raised, h⟩ := this
    refine ⟨top, down, which, le, raised, ?_⟩
    rw [h]
    cases l with
    | null => exact .inl ⟨.inl rfl, rfl⟩
    | node =>
        cases r with
        | null => exact .inr ⟨⟨rfl, .inl rfl⟩, rfl⟩
        | node =>
            simp only [isNull, Bool.false_eq_true, if_false]
            split
            · rename_i le
              exact .inl ⟨.inr ⟨trivial, le⟩, rfl⟩
            · rename_i larger
              exact .inr ⟨⟨trivial, .inr (by omega)⟩, rfl⟩
  cases h : outRanks data x with
  | true =>
      exact ⟨data, x, .inl ⟨rfl, rfl⟩, outRanks_asymm h, outRanks_asymm h, by simp [push, h]⟩
  | false =>
      exact ⟨x, data, .inr ⟨rfl, rfl⟩, h, outRanks_irrefl x, by simp [push, h]⟩

theorem push_elements (data : α) (t : LocHeapNode α) :
    (t.push data).elements = data ::ₘ t.elements := by
  induction t generalizing data with
  | null => rfl
  | node n l r x ihl ihr =>
      obtain ⟨top, down, which, -, -, ⟨-, h⟩ | ⟨-, h⟩⟩ := push_node data n l r x
      · obtain ⟨rfl, rfl⟩ | ⟨rfl, rfl⟩ := which
        · simp [h, elements, ihl]
        · simp [h, elements, ihl, Multiset.cons_swap]
      · obtain ⟨rfl, rfl⟩ | ⟨rfl, rfl⟩ := which
        · simp [h, elements, ihr]
        · simp [h, elements, ihr, Multiset.cons_swap]

theorem push_getSize (data : α) (t : LocHeapNode α) :
    (t.push data).getSize = t.getSize + 1 := by
  cases t with
  | null => rfl
  | node n l r x =>
      obtain ⟨top, down, -, -, -, ⟨-, h⟩ | ⟨-, h⟩⟩ := push_node data n l r x
      · rw [h]
        rfl
      · rw [h]
        rfl

theorem push_below {t : LocHeapNode α} {data x : α} (h : t.Below x)
    (le : outRanks data x = false) : (t.push data).Below x := by
  intro y hy
  rw [push_elements, Multiset.mem_cons] at hy
  cases hy with
  | inl same => exact same ▸ le
  | inr old => exact h y old

theorem push_checkNodes {t : LocHeapNode α} (check : t.checkNodes = true) (data : α) :
    (t.push data).checkNodes = true := by
  induction t generalizing data with
  | null => rfl
  | node n l r x ihl ihr =>
      obtain ⟨belowl, checkl, belowr, checkr, size⟩ := checkNodes_iff.mp check
      obtain ⟨top, down, -, le, raised, ⟨-, h⟩ | ⟨-, h⟩⟩ := push_node data n l r x
      · rw [h]
        refine checkNodes_iff.mpr ⟨push_below (belowl.raise raised) le, ihl checkl down,
          belowr.raise raised, checkr, ?_⟩
        rw [push_getSize]
        omega
      · rw [h]
        refine checkNodes_iff.mpr ⟨belowl.raise raised, checkl,
          push_below (belowr.raise raised) le, ihr checkr down, ?_⟩
        rw [push_getSize]
        omega

end Push

section Pop

/-- A pop detaches a leaf, or moves the higher of the tops below up and goes on there. -/
theorem popSwapped_node (data : α) (n : Int) (l r : LocHeapNode α) (x : α) :
    (l = null ∧ r = null ∧ (node n l r x).popSwapped data = (data, null)) ∨
    (∃ top, l.data? = some top ∧ (∀ y ∈ r.data?, outRanks y top = false) ∧
      (node n l r x).popSwapped data =
        ((l.popSwapped data).1, node (n - 1) (l.popSwapped data).2 r top)) ∨
    (∃ top, r.data? = some top ∧ (∀ y ∈ l.data?, outRanks y top = false) ∧
      (node n l r x).popSwapped data =
        ((r.popSwapped data).1, node (n - 1) l (r.popSwapped data).2 top)) := by
  cases l with
  | null =>
      cases r with
      | null => exact .inl ⟨rfl, rfl, rfl⟩
      | node n' l' r' z => exact .inr (.inr ⟨z, rfl, by simp [data?], by rw [popSwapped]⟩)
  | node n' l' r' y =>
      cases r with
      | null => exact .inr (.inl ⟨y, rfl, by simp [data?], by rw [popSwapped]⟩)
      | node n'' l'' r'' z =>
          cases h : outRanks y z with
          | true =>
              refine .inr (.inl ⟨y, rfl, by simpa [data?] using outRanks_asymm h, ?_⟩)
              rw [popSwapped, if_pos h]
          | false =>
              refine .inr (.inr ⟨z, rfl, by simpa [data?] using h, ?_⟩)
              rw [popSwapped, if_neg (by simp [h])]

/-- The datum that was swapped down is the one the detached node holds. -/
theorem popSwapped_fst (data : α) (t : LocHeapNode α) : (t.popSwapped data).1 = data := by
  induction t with
  | null => rfl
  | node n l r x ihl ihr =>
      obtain ⟨-, -, h⟩ | ⟨top, -, -, h⟩ | ⟨top, -, -, h⟩ := popSwapped_node data n l r x
      · rw [h]
      · rw [h]
        exact ihl
      · rw [h]
        exact ihr

theorem popSwapped_elements (data : α) {t : LocHeapNode α} {x : α} (top : t.data? = some x) :
    t.elements = x ::ₘ (t.popSwapped data).2.elements := by
  induction t generalizing x with
  | null => cases top
  | node n l r y ihl ihr =>
      obtain rfl : y = x := Option.some.inj top
      obtain ⟨rfl, rfl, h⟩ | ⟨z, hz, -, h⟩ | ⟨z, hz, -, h⟩ := popSwapped_node data n l r y
      · rw [h]
        rfl
      · rw [h, elements, elements, ihl hz, Multiset.cons_add]
      · rw [h, elements, elements, ihr hz, Multiset.add_cons]

theorem popSwapped_le (data : α) (t : LocHeapNode α) :
    (t.popSwapped data).2.elements ≤ t.elements := by
  cases h : t.data? with
  | none =>
      cases t with
      | null => exact le_refl _
      | node => cases h
  | some x => exact popSwapped_elements data h ▸ Multiset.le_cons_self _ _

theorem popSwapped_getSize (data : α) {t : LocHeapNode α} {x : α} (top : t.data? = some x)
    (check : t.checkNodes = true) : (t.popSwapped data).2.getSize = t.getSize - 1 := by
  cases t with
  | null => cases top
  | node n l r y =>
      have size := (checkNodes_iff.mp check).2.2.2.2
      obtain ⟨rfl, rfl, h⟩ | ⟨z, -, -, h⟩ | ⟨z, -, -, h⟩ := popSwapped_node data n l r y
      · simp only [getSize] at size
        simp only [h, getSize]
        omega
      · rw [h]
        rfl
      · rw [h]
        rfl

theorem popSwapped_checkNodes (data : α) {t : LocHeapNode α} (check : t.checkNodes = true) :
    (t.popSwapped data).2.checkNodes = true := by
  induction t with
  | null => rfl
  | node n l r x ihl ihr =>
      obtain ⟨belowl, checkl, belowr, checkr, size⟩ := checkNodes_iff.mp check
      obtain ⟨-, -, h⟩ | ⟨top, htop, other, h⟩ | ⟨top, htop, other, h⟩ :=
        popSwapped_node data n l r x
      · rw [h]
        rfl
      · rw [h]
        have highest : l.Below top := below_of_data? checkl fun y hy => by
          obtain rfl : top = y := Option.some.inj (htop.symm.trans hy)
          exact outRanks_irrefl top
        refine checkNodes_iff.mpr ⟨highest.mono (popSwapped_le data l), ihl checkl,
          below_of_data? checkr other, checkr, ?_⟩
        rw [popSwapped_getSize data htop checkl]
        omega
      · rw [h]
        have highest : r.Below top := below_of_data? checkr fun y hy => by
          obtain rfl : top = y := Option.some.inj (htop.symm.trans hy)
          exact outRanks_irrefl top
        refine checkNodes_iff.mpr ⟨below_of_data? checkl other, checkl,
          highest.mono (popSwapped_le data r), ihr checkr, ?_⟩
        rw [popSwapped_getSize data htop checkr]
        omega

theorem pop_eq {t : LocHeapNode α} {x : α} (top : t.data? = some x) :
    t.pop = (some x, (t.popSwapped x).2) := by
  cases t with
  | null => cases top
  | node n l r y =>
      obtain rfl : y = x := Option.some.inj top
      simp [pop, popSwapped_fst]

end Pop

section Remove
variable [DecidableEq α]

/-- What a removal from a checked tree does: it takes the datum out, or finds none and
leaves the tree as it is. -/
def Removes (data : α) (t : LocHeapNode α) (result : Option α × LocHeapNode α) : Prop :=
  (data ∉ t.elements ∧ result = (none, t)) ∨
    ∃ t', result = (some data, t') ∧ t.elements = data ::ₘ t'.elements ∧
      t'.checkNodes = true ∧ t'.getSize = t.getSize - 1

theorem remove_removes (data : α) {t : LocHeapNode α} (check : t.checkNodes = true) :
    Removes data t (t.remove data) := by
  induction t with
  | null => exact .inl ⟨by simp [elements], rfl⟩
  | node n l r x ihl ihr =>
      obtain ⟨belowl, checkl, belowr, checkr, size⟩ := checkNodes_iff.mp check
      by_cases here : data = x
      · subst here
        refine .inr ⟨((node n l r data).popSwapped data).2, ?_, popSwapped_elements data rfl,
          popSwapped_checkNodes data check, popSwapped_getSize data rfl check⟩
        rw [remove, if_pos rfl, pop_eq rfl]
      · cases pruned : outRanks data x with
        | true =>
            refine .inl ⟨fun present => ?_, by simp [remove, here, pruned]⟩
            obtain same | inl | inr := mem_elements_node.mp present
            · exact here same
            · exact absurd pruned (by simp [belowl data inl])
            · exact absurd pruned (by simp [belowr data inr])
        | false =>
            obtain ⟨absentl, hl⟩ | ⟨l', hl, elements_l, checkl', sizel⟩ := ihl checkl
            · obtain ⟨absentr, hr⟩ | ⟨r', hr, elements_r, checkr', sizer⟩ := ihr checkr
              · refine .inl ⟨?_, by simp [remove, here, pruned, hl, hr]⟩
                simp [mem_elements_node, here, absentl, absentr]
              · refine .inr ⟨node (n - 1) l r' x, ?_, ?_, ?_, rfl⟩
                · simp [remove, here, pruned, hl, hr]
                · rw [elements, elements, elements_r, Multiset.add_cons, Multiset.cons_swap]
                · refine checkNodes_iff.mpr ⟨belowl, checkl, belowr.mono ?_, checkr', by omega⟩
                  exact elements_r ▸ Multiset.le_cons_self _ _
            · refine .inr ⟨node (n - 1) l' r x, by simp [remove, here, pruned, hl], ?_, ?_, rfl⟩
              · rw [elements, elements, elements_l, Multiset.cons_add, Multiset.cons_swap]
              · refine checkNodes_iff.mpr ⟨belowl.mono ?_, checkl', belowr, checkr, by omega⟩
                exact elements_l ▸ Multiset.le_cons_self _ _

end Remove

end LocHeapNode

namespace LocHeap

def elements (heap : LocHeap α) : Multiset α := heap.mTree.elements

theorem peek_eq_none {heap : LocHeap α} : heap.peek = none ↔ heap.elements = 0 := by
  obtain ⟨t⟩ := heap
  cases t <;> simp [peek, elements, LocHeapNode.data?, LocHeapNode.elements]

variable [LocRankable α]

theorem peek_highest {heap : LocHeap α} (check : heap.checkTree = true) {x : α}
    (top : heap.peek = some x) : Highest (outRanks · · = true) heap.elements x :=
  LocHeapNode.highest_of_data? check top

/-- A pushed datum comes out on top if it outranks the top or there is none. -/
theorem push_peek (data : α) (heap : LocHeap α) :
    (heap.push data).peek =
      some (heap.peek.elim data fun top => if outRanks data top then data else top) := by
  obtain ⟨t⟩ := heap
  cases t with
  | null => rfl
  | node n mLeft mRight x =>
      have mData : (if outRanks data x then (data, x) else (x, data)).1 =
          if outRanks data x then data else x := by split <;> rfl
      simp only [push, peek, LocHeapNode.push, mData]
      by_cases left : mLeft.isNull = true
      · rw [if_pos left]; rfl
      · rw [if_neg left]
        by_cases right : mRight.isNull = true
        · rw [if_pos right]; rfl
        · rw [if_neg right]
          split <;> rfl

theorem pop_peek (heap : LocHeap α) : heap.pop.1 = heap.peek := by
  cases top : heap.peek with
  | none =>
      obtain ⟨t⟩ := heap
      cases t with
      | null => rfl
      | node => cases top
  | some x => simp [pop, LocHeapNode.pop_eq top]

theorem pop_of_empty {heap : LocHeap α} (empty : heap.peek = none) : heap.pop = (none, heap) := by
  obtain ⟨t⟩ := heap
  cases t with
  | null => rfl
  | node => cases empty

variable [DecidableEq α]

/-- Each operation keeps the check and serves the priority queue of the tree's data. -/
theorem run_serves {heap : LocHeap α} (check : heap.checkTree = true) (op : Op α) :
    (heap.run op).2.checkTree = true ∧
      Serves (outRanks · · = true) heap.elements op (heap.run op).1 (heap.run op).2.elements := by
  cases op with
  | push data =>
      exact ⟨LocHeapNode.push_checkNodes check data, rfl, LocHeapNode.push_elements data _⟩
  | pop =>
      cases top : heap.peek with
      | none =>
          have empty := peek_eq_none.mp top
          obtain ⟨t⟩ := heap
          cases t with
          | null => exact ⟨rfl, rfl, rfl⟩
          | node => cases top
      | some x =>
          have popped : heap.run .pop = (some x, ⟨(heap.mTree.popSwapped x).2⟩) := by
            simp [run, pop, LocHeapNode.pop_eq top]
          rw [popped]
          exact ⟨LocHeapNode.popSwapped_checkNodes x check, peek_highest check top,
            LocHeapNode.popSwapped_elements x top⟩
  | remove data =>
      obtain ⟨absent, h⟩ | ⟨t', h, rest, check', -⟩ := LocHeapNode.remove_removes data check
      · have removed : heap.run (.remove data) = (none, heap) := by simp [run, remove, h]
        rw [removed]
        exact ⟨check, absent, rfl⟩
      · have removed : heap.run (.remove data) = (some data, ⟨t'⟩) := by simp [run, remove, h]
        rw [removed]
        exact ⟨check', rfl, rest⟩

theorem remove_elements {heap : LocHeap α} (check : heap.checkTree = true) (data : α) :
    (heap.remove data).2.checkTree = true ∧
      (heap.remove data).2.elements = heap.elements.erase data := by
  obtain ⟨check', serves⟩ := run_serves check (.remove data)
  refine ⟨check', ?_⟩
  change Serves _ _ _ (heap.remove data).1 (heap.remove data).2.elements at serves
  cases removed : (heap.remove data).1 with
  | none =>
      rw [removed] at serves
      rw [serves.2, Multiset.erase_of_notMem serves.1]
  | some other =>
      rw [removed] at serves
      rw [serves.2, Multiset.erase_cons_head]

theorem pop_elements {heap rest : LocHeap α} {top : α} (check : heap.checkTree = true)
    (popped : heap.pop = (some top, rest)) :
    rest.checkTree = true ∧ heap.elements = top ::ₘ rest.elements := by
  obtain ⟨check', serves⟩ := run_serves check .pop
  change (heap.pop).2.checkTree = true at check'
  change Serves _ _ _ (heap.pop).1 (heap.pop).2.elements at serves
  rw [popped] at check' serves
  exact ⟨check', serves.2⟩

theorem remove_top {heap : LocHeap α} {data : α} (top : heap.peek = some data) :
    heap.remove data = heap.pop := by
  obtain ⟨t⟩ := heap
  cases t with
  | null => cases top
  | node n l r x =>
      obtain rfl : x = data := Option.some.inj top
      simp [remove, pop, LocHeapNode.remove]

theorem remove_peek {heap : LocHeap α} {data : α} (below : heap.peek ≠ some data) :
    (heap.remove data).2.peek = heap.peek := by
  obtain ⟨t⟩ := heap
  cases t with
  | null => rfl
  | node n l r x =>
      have other : data ≠ x := fun same => below (same ▸ rfl)
      simp only [remove, peek, LocHeapNode.remove, other, if_false]
      split
      · split
        · rfl
        · split <;> rfl
      · rfl

/-- After any operations on an empty heap the tree passes the check and holds what was
pushed and not handed out, and the top, which is what pop hands out, ranks highest. -/
theorem heap_is_priority_queue (ops : List (Op α)) :
    let (out, heap) := exec run (new : LocHeap α) ops
    heap.checkTree = true ∧
      (out : Multiset α) + heap.elements = pushed ops ∧
      (∀ x, heap.peek = some x → Highest (outRanks · · = true) heap.elements x) ∧
      (heap.peek = none ↔ heap.elements = 0) ∧
      heap.pop.1 = heap.peek := by
  obtain ⟨check, conserved⟩ := exec_conserves (I := fun heap : LocHeap α => heap.checkTree = true)
    (fun _ op check => (run_serves check op).1) (fun _ op check => (run_serves check op).2)
    ops new rfl
  exact ⟨check, by simpa [new, elements, LocHeapNode.elements] using conserved,
    fun _ top => peek_highest check top, peek_eq_none, pop_peek _⟩

end LocHeap
end Msm8974
