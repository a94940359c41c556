import Mathlib.Logic.Function.Basic
import Msm8974.Library.Slots

/-!
The registry of adapters that a `LocApiBase` keeps: an array of `MAX_ADAPTERS` pointers
without holes, and the two macros that go through it. An adapter stands for its pointer,
which is not NULL; an empty slot is `none`. The loops carry their index, as the source does.
-/

namespace Msm8974.Core
universe u v
variable {Adapter : Type u} {σ : Type v}

/-- `MAX_ADAPTERS` -/
def maxAdapters : Nat := 10

/-- `LOC_API_ADAPTER_EVENT_MASK_T` -/
abbrev EventMask := BitVec 32

section Macros
variable {n : Nat} (adapters : Vector (Option Adapter) n)

/-- `TO_ALL_ADAPTERS(adapters, call)` from slot `i` on; `s` is what the calls work on. -/
def toAllAdapters (call : Adapter → σ → σ) (i : Nat) (s : σ) : σ :=
  if h : i < n then
    match adapters[i] with
    | none => s
    | some adapter => toAllAdapters call (i + 1) (call adapter s)
  else s
termination_by n - i

/-- `TO_1ST_HANDLING_ADAPTER(adapters, call)` from slot `i` on; a call also says whether
the adapter handled it. -/
def to1stHandlingAdapter (call : Adapter → σ → Bool × σ) (i : Nat) (s : σ) : σ :=
  if h : i < n then
    match adapters[i] with
    | none => s
    | some adapter =>
        if (call adapter s).1 then (call adapter s).2
        else to1stHandlingAdapter call (i + 1) (call adapter s).2
  else s
termination_by n - i

/-- Where `while (i < MAX_ADAPTERS && mLocAdapters[i] != NULL) i++` ends. -/
def nextNull (i : Nat) : Nat :=
  if h : i < n then
    if adapters[i].isNone then i else nextNull (i + 1)
  else i
termination_by n - i

theorem le_nextNull (i : Nat) : i ≤ nextNull adapters i := by
  fun_induction nextNull adapters i <;> omega

theorem nextNull_le {i : Nat} (h : i ≤ n) : nextNull adapters i ≤ n := by
  fun_induction nextNull adapters i <;> omega

end Macros

/-- What the registry asks for: `sendMsg(new LocOpenMsg(this, mask))` and `close()`. -/
inductive Call where
  | open (mask : EventMask)
  | close
  deriving DecidableEq, Repr

structure LocApiBase (Adapter : Type u) where
  mExcludedMask : EventMask
  mLocAdapters : Vector (Option Adapter) maxAdapters
  /-- `mEvtMask` of each adapter -/
  mEvtMask : Adapter → EventMask
  calls : List Call

namespace LocApiBase

/-- The constructor `LocApiBase::LocApiBase` -/
def new (excludedMask : EventMask) (mEvtMask : Adapter → EventMask) : LocApiBase Adapter where
  mExcludedMask := excludedMask
  mLocAdapters := Vector.replicate maxAdapters none
  mEvtMask := mEvtMask
  calls := []

def call (api : LocApiBase Adapter) (c : Call) : LocApiBase Adapter :=
  { api with calls := api.calls ++ [c] }

def getEvtMask (api : LocApiBase Adapter) : EventMask :=
  toAllAdapters api.mLocAdapters (fun adapter mask => mask ||| api.mEvtMask adapter) 0 0 &&&
    ~~~ api.mExcludedMask

def updateEvtMask (api : LocApiBase Adapter) : LocApiBase Adapter :=
  api.call (.open api.getEvtMask)

/-- The loop ends with the first adapter in session; `inSession` is what the adapters answer. -/
def isInSession (inSession : Adapter → Bool) (api : LocApiBase Adapter) : Bool :=
  to1stHandlingAdapter api.mLocAdapters (fun adapter _ => (inSession adapter, inSession adapter))
    0 false

/-- The index `i--` leaves behind the inner loop of `removeAdapter` when slot `j` was cleared. -/
def lastFrom (slots : Vector (Option Adapter) maxAdapters) (j : Nat) : Nat :=
  nextNull slots (j + 1) - 1

theorem le_lastFrom (slots : Vector (Option Adapter) maxAdapters) (j : Nat) :
    j ≤ lastFrom slots j := by
  have := le_nextNull slots (j + 1)
  unfold lastFrom
  omega

theorem lastFrom_lt (slots : Vector (Option Adapter) maxAdapters) {j : Nat}
    (h : j < maxAdapters) : lastFrom slots j < maxAdapters := by
  have := nextNull_le slots (i := j + 1) h
  have := le_nextNull slots (j + 1)
  unfold lastFrom
  omega

variable [DecidableEq Adapter]

/-- The loop of `addAdapter` from slot `i` on. -/
def addFrom (adapter : Adapter) (i : Nat) (api : LocApiBase Adapter) : LocApiBase Adapter :=
  if h : i < maxAdapters then
    if api.mLocAdapters[i] = some adapter then api
    else if api.mLocAdapters[i] = none then
      { api with mLocAdapters := api.mLocAdapters.set i (some adapter) }.call
        (.open (api.mEvtMask adapter))
    else addFrom adapter (i + 1) api
  else api
termination_by maxAdapters - i

def addAdapter (adapter : Adapter) (api : LocApiBase Adapter) : LocApiBase Adapter :=
  addFrom adapter 0 api

/-- The loop of `removeAdapter` from slot `i` on. The loop goes on with the index that the
removal has moved. -/
def removeFrom (adapter : Adapter) (i : Nat) (api : LocApiBase Adapter) : LocApiBase Adapter :=
  if h : i < maxAdapters then
    match api.mLocAdapters[i] with
    | none => api
    | some found =>
        if found = adapter then
          let cleared := api.mLocAdapters.set i none
          let last := lastFrom cleared i
          have inside : last < maxAdapters := lastFrom_lt cleared h
          let api' := { api with mLocAdapters := (cleared.set i cleared[last]).set last none }
          removeFrom adapter (last + 1)
            (if last = 0 then api'.call .close else api'.call (.open api'.getEvtMask))
        else removeFrom adapter (i + 1) api
  else api
termination_by maxAdapters - i
decreasing_by
  · have := le_lastFrom (api.mLocAdapters.set i none) i
    omega
  · omega

def removeAdapter (adapter : Adapter) (api : LocApiBase Adapter) : LocApiBase Adapter :=
  removeFrom adapter 0 api

end LocApiBase

/-- The calls that reach the registry. -/
inductive Event (Adapter : Type u) where
  | addAdapter (adapter : Adapter)
  | removeAdapter (adapter : Adapter)
  /-- `LocAdapterBase::updateEvtMask(event, isEnabled)` of an adapter -/
  | updateEvtMask (adapter : Adapter) (event : EventMask) (isEnabled : Bool)
  deriving DecidableEq, Repr

namespace LocApiBase
variable [DecidableEq Adapter]

def step (api : LocApiBase Adapter) : Event Adapter → LocApiBase Adapter
  | .addAdapter adapter => api.addAdapter adapter
  | .removeAdapter adapter => api.removeAdapter adapter
  | .updateEvtMask adapter event isEnabled =>
      let mask := api.mEvtMask adapter
      let mask' := if isEnabled then mask ||| event else mask &&& ~~~ event
      { api with mEvtMask := Function.update api.mEvtMask adapter mask' }.updateEvtMask

def run (api : LocApiBase Adapter) (events : List (Event Adapter)) : LocApiBase Adapter :=
  events.foldl step api

end LocApiBase
end Msm8974.Core
