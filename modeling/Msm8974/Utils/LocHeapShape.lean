import Mathlib.Data.Nat.Log
import Msm8974.Utils.LocHeapQueue

/-!
The shape of a LocHeap at each of its nodes. The test that prunes the search of remove
compares the datum with the top of a subtree, so it has to hold at every node; the sizes
that steer push keep the two sides of every node even as long as nothing is popped.
-/

namespace Msm8974
open Msm8974.PriorityQueue
universe u
variable {α : Type u}

namespace LocHeapNode

/-- The nodes of a tree, each with what hangs below it. -/
def subtrees : LocHeapNode α → List (LocHeapNode α)
  | null => []
  | node mSize mLeft mRight mData =>
      node mSize mLeft mRight mData :: (mLeft.subtrees ++ mRight.subtrees)

def height : LocHeapNode α → Nat
  | null => 0
  | node _ mLeft mRight _ => max mLeft.height mRight.height + 1

/-- How many nodes there are, counted instead of read from mSize. -/
def card : LocHeapNode α → Nat
  | null => 0
  | node _ mLeft mRight _ => mLeft.card + mRight.card + 1

/-- At every node the left side holds as many nodes as the right side or one more. -/
def Even : LocHeapNode α → Prop
  | null => True
  | node _ mLeft mRight _ =>
      (mLeft.card = mRight.card ∨ mLeft.card = mRight.card + 1) ∧ mLeft.Even ∧ mRight.Even

theorem card_elements (t : LocHeapNode α) : Multiset.card t.elements = t.card := by
  induction t with
  | null => rfl
  | node n l r x ihl ihr => simp [elements, card, ihl, ihr]

theorem Even.subtree {s t : LocHeapNode α} (even : t.Even) (mem : s ∈ t.subtrees) : s.Even := by
  induction t with
  | null => cases mem
  | node n l r x ihl ihr =>
      rw [subtrees, List.mem_cons, List.mem_append] at mem
      obtain rfl | inl | inr := mem
      · exact even
      · exact ihl even.2.1 inl
      · exact ihr even.2.2 inr

/-- The smaller right side of an even node holds half of what is below it. -/
theorem Even.height_le {t : LocHeapNode α} (even : t.Even) :
    t.height ≤ Nat.log 2 t.card + 1 := by
  induction t with
  | null => exact Nat.zero_le _
  | node n l r x ihl ihr =>
      obtain ⟨sides, evenl, evenr⟩ := even
      have left := ihl evenl
      have right := ihr evenr
      cases none : l.card with
      | zero =>
          have emptyl : l = null := by
            cases l with
            | null => rfl
            | node => simp [card] at none
          have emptyr : r = null := by
            cases r with
            | null => rfl
            | node => simp only [card] at sides none; omega
          simp [height, emptyl, emptyr]
      | succ below =>
          have halved : Nat.log 2 (l.card + r.card + 1) =
              Nat.log 2 ((l.card + r.card + 1) / 2) + 1 :=
            Nat.log_of_one_lt_of_le (by omega) (by omega)
          have half : (l.card + r.card + 1) / 2 = l.card := by omega
          have smaller : Nat.log 2 r.card ≤ Nat.log 2 l.card := Nat.log_mono_right (by omega)
          rw [half] at halved
          simp only [height, card]
          omega

variable [LocRankable α]

theorem checkNodes_subtree {s t : LocHeapNode α} (check : t.checkNodes = true)
    (mem : s ∈ t.subtrees) : s.checkNodes = true := by
  induction t with
  | null => cases mem
  | node n l r x ihl ihr =>
      obtain ⟨-, checkl, -, checkr, -⟩ := checkNodes_iff.mp check
      rw [subtrees, List.mem_cons, List.mem_append] at mem
      obtain rfl | inl | inr := mem
      · exact check
      · exact ihl checkl inl
      · exact ihr checkr inr

theorem getSize_of_checkNodes {t : LocHeapNode α} (check : t.checkNodes = true) :
    t.getSize = t.card := by
  induction t with
  | null => rfl
  | node n l r x ihl ihr =>
      obtain ⟨-, checkl, -, checkr, size⟩ := checkNodes_iff.mp check
      rw [ihl checkl, ihr checkr] at size
      simp only [getSize, card]
      omega

theorem push_card (data : α) (t : LocHeapNode α) : (t.push data).card = t.card + 1 := by
  rw [← card_elements, push_elements, Multiset.card_cons, card_elements]

/-- The new node goes to the side that is not the larger, and mSize knows which one it is. -/
theorem Even.push {t : LocHeapNode α} (even : t.Even) (check : t.checkNodes = true)
    (data : α) : (t.push data).Even := by
  induction t generalizing data with
  | null => exact ⟨.inl rfl, trivial, trivial⟩
  | node n l r x ihl ihr =>
      obtain ⟨sides, evenl, evenr⟩ := even
      obtain ⟨-, checkl, -, checkr, -⟩ := checkNodes_iff.mp check
      have sizel := getSize_of_checkNodes checkl
      have sizer := getSize_of_checkNodes checkr
      obtain ⟨top, down, -, -, -, ⟨smaller, h⟩ | ⟨⟨present, larger⟩, h⟩⟩ := push_node data n l r x
      · rw [h]
        refine ⟨.inr ?_, ihl evenl checkl down, evenr⟩
        rw [push_card]
        cases smaller with
        | inl null =>
            cases l with
            | null => simp only [card] at sides ⊢; omega
            | node => cases null
        | inr le => omega
      · rw [h]
        refine ⟨.inl ?_, evenl, ihr evenr checkr down⟩
        rw [push_card]
        cases larger with
        | inl null =>
            cases r with
            | null =>
                cases l with
                | null => cases present
                | node => simp only [card] at sides ⊢; omega
            | node => cases null
        | inr lt => omega

end LocHeapNode

namespace LocHeap
variable [LocRankable α]

section Remove
variable [DecidableEq α]

/-- After any operations that push each datum at most once, a removal takes exactly the
datum it is asked for, and finds it whenever it is there: no node above it prunes it. -/
theorem remove_by_identity (ops : List (Op α)) (once : (pushed ops).Nodup) (x : α) :
    let heap := (exec run (new : LocHeap α) ops).2
    ((heap.remove x).1 = some x ↔ x ∈ heap.elements) ∧
      (x ∈ heap.elements →
        heap.elements = x ::ₘ (heap.remove x).2.elements ∧ x ∉ (heap.remove x).2.elements) ∧
      (x ∉ heap.elements → heap.remove x = (none, heap)) ∧
      ∀ t ∈ heap.mTree.subtrees, ∀ top, t.data? = some top → x ∈ t.elements →
        outRanks x top = false := by
  intro heap
  obtain ⟨check, conserved, -⟩ := heap_is_priority_queue ops
  have single : heap.elements.Nodup := by
    refine Multiset.nodup_of_le ?_ once
    rw [← conserved]
    exact Multiset.le_add_left _ _
  have pruning : ∀ t ∈ heap.mTree.subtrees, ∀ top, t.data? = some top → x ∈ t.elements →
      outRanks x top = false := by
    intro t node top htop inside
    have highest := LocHeapNode.highest_of_data? (LocHeapNode.checkNodes_subtree check node) htop
    exact Bool.eq_false_iff.mpr (highest.2 x inside)
  obtain ⟨absent, h⟩ | ⟨t', h, rest, -⟩ := LocHeapNode.remove_removes x check
  · have removed : heap.remove x = (none, heap) := by simp [remove, heap, h]
    have missing : x ∉ heap.elements := absent
    refine ⟨by simp [removed, missing], fun present => absurd present missing,
      fun _ => removed, pruning⟩
  · have removed : heap.remove x = (some x, ⟨t'⟩) := by simp [remove, heap, h]
    have split : heap.elements = x ::ₘ t'.elements := rest
    have present : x ∈ heap.elements := split ▸ Multiset.mem_cons_self x _
    rw [removed]
    refine ⟨by simp [present], fun _ => ⟨split, ?_⟩, fun missing => absurd present missing,
      pruning⟩
    rw [split] at single
    exact (Multiset.nodup_cons.mp single).1

/-- Numbers ranked by their halves, the smaller the higher, so that 6 and 7 rank alike. -/
@[reducible] def byHalves : LocRankable Nat where
  ranks a b := (b / 2 : Int) - a / 2
  total _ _ := by omega
  trans _ _ _ := by omega

theorem equal_ranks_are_told_apart :
    letI := byHalves
    let heap := (exec run (new : LocHeap Nat) [.push 9, .push 6, .push 4, .push 7, .pop]).2
    (heap.remove 7).1 = some 7 ∧ heap.elements = 7 ::ₘ (heap.remove 7).2.elements := by
  let ranks := byHalves
  have removal := remove_by_identity [.push 9, .push 6, .push 4, .push 7, .pop]
    (by simp [pushed, Op.pushed]) 7
  have present : 7 ∈ (exec run (new : LocHeap Nat)
      [.push 9, .push 6, .push 4, .push 7, .pop]).2.elements := by decide
  exact ⟨removal.1.mpr present, (removal.2.1 present).1⟩

end Remove

/-- The heap after these pushes. -/
def pushAll (data : List α) : LocHeap α := data.foldl (fun heap x => heap.push x) new

theorem pushAll_snoc (data : List α) (x : α) : pushAll (data ++ [x]) = (pushAll data).push x := by
  simp [pushAll]

theorem pushAll_even (data : List α) :
    (pushAll data).checkTree = true ∧ (pushAll data).mTree.Even ∧
      (pushAll data).mTree.card = data.length := by
  induction data using List.reverseRecOn with
  | nil => exact ⟨rfl, trivial, rfl⟩
  | append_singleton data x ih =>
      obtain ⟨check, even, card⟩ := ih
      rw [pushAll_snoc]
      refine ⟨LocHeapNode.push_checkNodes check x, even.push check x, ?_⟩
      rw [push, LocHeapNode.push_card, card, List.length_append, List.length_singleton]

/-- Pushes alone, in any order and of any ranks, leave every node with even sides, so the
heap is as low as its number of data allows. -/
theorem pushes_stay_balanced (data : List α) :
    (∀ n l r x, .node n l r x ∈ (pushAll data).mTree.subtrees →
        l.card - r.card = (0 : Int) ∨ l.card - r.card = (1 : Int)) ∧
      (pushAll data).mTree.card = data.length ∧
      (pushAll data).mTree.height ≤ Nat.log 2 data.length + 1 := by
  obtain ⟨-, even, card⟩ := pushAll_even data
  refine ⟨?_, card, card ▸ even.height_le⟩
  intro n l r x node
  obtain ⟨sides, -⟩ := even.subtree node
  omega

end LocHeap
end Msm8974
