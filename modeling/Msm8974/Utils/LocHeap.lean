import Msm8974.Library.PriorityQueue

/-!
LocHeap, from LocHeap.cpp: a binary tree ordered from parent to child only. A node
keeps its place while data are swapped past it, so the recursion of pop carries the
datum that is on its way down to the leaf that will be detached. Data are compared
by identity when one is removed and by rank everywhere else.
-/

namespace Msm8974
open Msm8974.PriorityQueue
universe u
variable {α : Type u}

/-- `LocRankable`, with ranks coming from a total preorder. -/
class LocRankable (α : Type u) where
  ranks : α → α → Int
  total : ∀ a b, 0 < ranks a b → ¬ 0 < ranks b a
  trans : ∀ a b c, ¬ 0 < ranks a b → ¬ 0 < ranks b c → ¬ 0 < ranks a c

def outRanks [LocRankable α] (a b : α) : Bool := 0 < LocRankable.ranks a b

section Rank
variable [LocRankable α] {a b c : α}

theorem outRanks_asymm (h : outRanks a b = true) : outRanks b a = false := by
  simpa [outRanks] using LocRankable.total a b (by simpa [outRanks] using h)

theorem not_outRanks_trans (hab : outRanks a b = false) (hbc : outRanks b c = false) :
    outRanks a c = false := by
  simpa [outRanks] using LocRankable.trans a b c (by simpa [outRanks] using hab)
    (by simpa [outRanks] using hbc)

theorem outRanks_irrefl (a : α) : outRanks a a = false := by
  cases h : outRanks a a with
  | false => rfl
  | true => exact absurd (outRanks_asymm h) (by simp [h])

end Rank

inductive LocHeapNode (α : Type u)
  | null
  | node (mSize : Int) (mLeft mRight : LocHeapNode α) (mData : α)

namespace LocHeapNode

def new (data : α) : LocHeapNode α := node 1 null null data

def isNull : LocHeapNode α → Bool
  | null => true
  | node .. => false

def getSize : LocHeapNode α → Int
  | null => 0
  | node mSize _ _ _ => mSize

def data? : LocHeapNode α → Option α
  | null => none
  | node _ _ _ mData => some mData

variable [LocRankable α]

/-- `LocHeapNode::push` of a new node that holds `data`. -/
def push (data : α) : LocHeapNode α → LocHeapNode α
  | null => new data
  | node mSize mLeft mRight mData =>
      let (mData, data) := if outRanks data mData then (data, mData) else (mData, data)
      if mLeft.isNull then node (mSize + 1) (new data) mRight mData
      else if mRight.isNull then node (mSize + 1) mLeft (new data) mData
      else if mLeft.getSize ≤ mRight.getSize then
        node (mSize + 1) (mLeft.push data) mRight mData
      else node (mSize + 1) mLeft (mRight.push data) mData

/-- `LocHeapNode::pop` of a top whose mData was swapped for `data`: the datum of the node
that is popped out at the leaf level, and the tree that is left. -/
def popSwapped (data : α) : LocHeapNode α → α × LocHeapNode α
  | null => (data, null)
  | node _ null null _ => (data, null)
  | node mSize null (node n l r subTop) _ =>
      let (popped, right) := popSwapped data (node n l r subTop)
      (popped, node (mSize - 1) null right subTop)
  | node mSize (node n l r subTop) null _ =>
      let (popped, left) := popSwapped data (node n l r subTop)
      (popped, node (mSize - 1) left null subTop)
  | node mSize (node n l r leftTop) (node n' l' r' rightTop) _ =>
      if outRanks leftTop rightTop then
        let (popped, left) := popSwapped data (node n l r leftTop)
        (popped, node (mSize - 1) left (node n' l' r' rightTop) leftTop)
      else
        let (popped, right) := popSwapped data (node n' l' r' rightTop)
        (popped, node (mSize - 1) (node n l r leftTop) right rightTop)

def pop : LocHeapNode α → Option α × LocHeapNode α
  | null => (none, null)
  | node mSize mLeft mRight mData =>
      let (popped, top) := popSwapped mData (node mSize mLeft mRight mData)
      (some popped, top)

def remove [DecidableEq α] (data : α) : LocHeapNode α → Option α × LocHeapNode α
  | null => (none, null)
  | node mSize mLeft mRight mData =>
      if data = mData then pop (node mSize mLeft mRight mData)
      else if !outRanks data mData then
        match remove data mLeft with
        | (some removed, left) => (some removed, node (mSize - 1) left mRight mData)
        | (none, left) =>
            match remove data mRight with
            | (some removed, right) => (some removed, node (mSize - 1) left right mData)
            | (none, right) => (none, node mSize left right mData)
      else (none, node mSize mLeft mRight mData)

/-- Whether a subtree passes `checkNodes` under a parent that holds `mData`. -/
def checkNodes : LocHeapNode α → Bool
  | null => true
  | node mSize mLeft mRight mData =>
      (mLeft.data?.all (!outRanks · mData)) && mLeft.checkNodes &&
        ((mRight.data?.all (!outRanks · mData)) && mRight.checkNodes) &&
          mSize - mLeft.getSize - mRight.getSize == 1

end LocHeapNode

structure LocHeap (α : Type u) where
  mTree : LocHeapNode α

namespace LocHeap
variable [LocRankable α]

def new : LocHeap α := ⟨.null⟩

def push (data : α) (heap : LocHeap α) : LocHeap α := ⟨heap.mTree.push data⟩

def peek (heap : LocHeap α) : Option α := heap.mTree.data?

def pop (heap : LocHeap α) : Option α × LocHeap α :=
  let (popped, tree) := heap.mTree.pop
  (popped, ⟨tree⟩)

def remove [DecidableEq α] (data : α) (heap : LocHeap α) : Option α × LocHeap α :=
  let (removed, tree) := heap.mTree.remove data
  (removed, ⟨tree⟩)

def checkTree (heap : LocHeap α) : Bool := heap.mTree.checkNodes

def run [DecidableEq α] (heap : LocHeap α) : Op α → Option α × LocHeap α
  | .push data => (none, heap.push data)
  | .pop => heap.pop
  | .remove data => heap.remove data

end LocHeap
end Msm8974
