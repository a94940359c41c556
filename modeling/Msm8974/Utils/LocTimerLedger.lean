import Msm8974.Library.Traces
import Msm8974.Utils.LocTimerObjects

/-!
The account of the delegates. Each one that was started is current in its LocTimer or was
taken from it once; each one taken has its MsgTimerRemove in the queue or was deleted by it.
A MsgTimerRemove stays behind the MsgTimerPush, so nothing refers to a deleted delegate.
-/

namespace Msm8974.Timer
open Msm8974.Runs Msm8974.Traces Msm8974.PriorityQueue

/-- How many items of the list are about the delegate. -/
def tally {α : Type} (about : α → Option Delegate) (timer : Delegate) (items : List α) : Nat :=
  (items.filterMap about).count timer

section Tally
variable {α : Type} {about : α → Option Delegate} {timer : Delegate}

@[simp] theorem tally_nil : tally about timer [] = 0 := rfl

@[simp] theorem tally_append (items rest : List α) :
    tally about timer (items ++ rest) = tally about timer items + tally about timer rest := by
  simp [tally]

@[simp] theorem tally_cons (item : α) (items : List α) :
    tally about timer (item :: items) =
      (if about item = some timer then 1 else 0) + tally about timer items := by
  cases h : about item with
  | none => simp [tally, h]
  | some other => simp [tally, h, List.count_cons, Nat.add_comm]

theorem tally_pos {items : List α} :
    0 < tally about timer items ↔ ∃ item ∈ items, about item = some timer := by
  simp [tally, List.count_pos_iff, List.mem_filterMap]

theorem tally_eq_zero {items : List α} :
    tally about timer items = 0 ↔ ∀ item ∈ items, about item ≠ some timer := by
  simp [tally, List.count_eq_zero, List.mem_filterMap]

end Tally

namespace TimerEvent

def startOf : TimerEvent → Option Delegate
  | .started timer => some timer
  | _ => none

def stopOf : TimerEvent → Option Delegate
  | .stopped timer => some timer
  | _ => none

def expiryOf : TimerEvent → Option Delegate
  | .expired _ current => some current
  | _ => none

def callbackOf : TimerEvent → Option Delegate
  | .timeOutCallback _ current => some current
  | _ => none

def deletionOf : TimerEvent → Option Delegate
  | .deleted timer => some timer
  | _ => none

end TimerEvent

namespace ContainerMsg

def pushOf : ContainerMsg → Option Delegate
  | .push _ timer => some timer
  | _ => none

def removalOf : ContainerMsg → Option Delegate
  | .remove _ timer => some timer
  | _ => none

/-- The message goes to the container its delegate was made for. -/
def InPlace : ContainerMsg → Prop
  | .push container timer | .remove container timer => timer.wakeOnExpire = container
  | .expire _ => True

end ContainerMsg

namespace LocTimers
open TimerEvent ContainerMsg

variable {s : LocTimers} {timer : Delegate} {client : LocTimer} {container : Bool}

/-- Whether the delegate is current in its LocTimer. -/
def live (timer : Delegate) (mTimer : LocTimer → Option Delegate) : Nat :=
  if mTimer timer.client = some timer then 1 else 0

/-- Whether expire() has stopped the delegate and its callback is still to come. -/
def pending (timer : Delegate) : Option Expiring → Nat
  | some (.stopped _ _ current) => if current = timer then 1 else 0
  | _ => 0

/-- No deleted delegate is touched and no stopped one called back. -/
def Allowed (before : List TimerEvent) : TimerEvent → Prop
  | .touched timers => ∀ timer ∈ timers, tally deletionOf timer before = 0
  | .timeOutCallback _ current => tally stopOf current before = 0
  | _ => True

structure Ledger (s : LocTimers) : Prop where
  taken : ∀ timer, live timer s.mTimer + tally stopOf timer s.log + tally expiryOf timer s.log =
    tally startOf timer s.log
  removed : ∀ timer, tally removalOf timer s.queue + tally deletionOf timer s.log =
    tally stopOf timer s.log + tally expiryOf timer s.log
  called : ∀ timer, tally callbackOf timer s.log + pending timer s.expiring ≤
    tally expiryOf timer s.log
  once : ∀ timer, tally startOf timer s.log ≤ 1
  fresh : ∀ timer, 0 < tally startOf timer s.log → timer.address < s.created
  distinct : ∀ timer other, 0 < tally startOf timer s.log → 0 < tally startOf other s.log →
    timer.address = other.address → timer = other
  ticking : ∀ client timer, s.mTimer client = some timer → timer.client = client ∧
    s.delegates timer.address = ⟨some client, some timer.wakeOnExpire⟩
  linked : ∀ address client, (s.delegates address).mClient = some client →
    ∃ timer, s.mTimer client = some timer ∧ timer.address = address
  inPlace : ∀ msg ∈ s.queue, msg.InPlace
  heaped : ∀ container, ∀ timer ∈ (s.heap container).elements, timer.wakeOnExpire = container
  checked : ∀ container, (s.heap container).checkTree = true
  placed : ∀ timer, tally pushOf timer s.queue +
    (s.heap timer.wakeOnExpire).elements.count timer ≤ tally startOf timer s.log
  gone : ∀ timer, 0 < tally deletionOf timer s.log → tally pushOf timer s.queue = 0 ∧
    (s.heap timer.wakeOnExpire).elements.count timer = 0
  ordered : s.queue.Pairwise fun msg later =>
    ∀ timer, msg.removalOf = some timer → later.pushOf ≠ some timer
  expiring : ∀ timer, s.expiring = some (.called timer) →
    0 < tally startOf timer s.log ∧ tally deletionOf timer s.log = 0
  allowed : AtEach Allowed s.log

/-- Events that no tally counts. -/
def Neutral (e : TimerEvent) : Prop :=
  startOf e = none ∧ stopOf e = none ∧ expiryOf e = none ∧ callbackOf e = none ∧
    deletionOf e = none

namespace Ledger

theorem alive_of_ticking (h : Ledger s) (ticks : s.mTimer client = some timer) :
    live timer s.mTimer = 1 ∧ tally startOf timer s.log = 1 ∧ tally stopOf timer s.log = 0 ∧
      tally expiryOf timer s.log = 0 ∧ tally deletionOf timer s.log = 0 := by
  obtain ⟨rfl, -⟩ := h.ticking client timer ticks
  have current : live timer s.mTimer = 1 := if_pos ticks
  have taken := h.taken timer
  have removed := h.removed timer
  have once := h.once timer
  omega

theorem alive_of_removed (h : Ledger s) (sent : 0 < tally removalOf timer s.queue) :
    tally deletionOf timer s.log = 0 := by
  have taken := h.taken timer
  have removed := h.removed timer
  have once := h.once timer
  omega

theorem alive_of_pushed (h : Ledger s) (sent : 0 < tally pushOf timer s.queue) :
    tally deletionOf timer s.log = 0 := by
  by_contra deleted
  have := (h.gone timer (by omega)).1
  omega

theorem alive_of_heaped (h : Ledger s) (inHeap : timer ∈ (s.heap container).elements) :
    tally deletionOf timer s.log = 0 := by
  obtain rfl := h.heaped container timer inHeap
  by_contra deleted
  have := (h.gone timer (by omega)).2
  have := Multiset.count_pos.mpr inHeap
  omega

theorem inPlace_concat (h : Ledger s) {later : ContainerMsg} (place : later.InPlace) :
    ∀ msg ∈ s.queue ++ [later], msg.InPlace := by
  intro msg sent
  rcases List.mem_append.mp sent with old | new
  · exact h.inPlace msg old
  · exact List.mem_singleton.mp new ▸ place

/-- Any message may be appended but the push of a delegate whose removal is in the queue. -/
theorem ordered_concat (h : Ledger s) {later : ContainerMsg}
    (unremoved : ∀ timer, later.pushOf = some timer → tally removalOf timer s.queue = 0) :
    (s.queue ++ [later]).Pairwise fun msg later =>
      ∀ timer, msg.removalOf = some timer → later.pushOf ≠ some timer := by
  refine List.pairwise_append.mpr ⟨h.ordered, List.pairwise_singleton _ _, ?_⟩
  intro msg sent last here timer removes pushes
  obtain rfl := List.mem_singleton.mp here
  exact tally_eq_zero.mp (unremoved timer pushes) msg sent removes

/-- A delegate that was never started appears nowhere. -/
theorem unknown (h : Ledger s) (unknown : s.created ≤ timer.address) :
    tally startOf timer s.log = 0 ∧ tally stopOf timer s.log = 0 ∧
      tally expiryOf timer s.log = 0 ∧ tally callbackOf timer s.log = 0 ∧
      tally deletionOf timer s.log = 0 ∧ tally removalOf timer s.queue = 0 ∧
      tally pushOf timer s.queue = 0 ∧ (s.heap timer.wakeOnExpire).elements.count timer = 0 ∧
      live timer s.mTimer = 0 := by
  have unstarted : tally startOf timer s.log = 0 := by
    by_contra started
    have := h.fresh timer (by omega)
    omega
  have taken := h.taken timer
  have removed := h.removed timer
  have called := h.called timer
  have placed := h.placed timer
  omega

theorem record (h : Ledger s) {e : TimerEvent} (neutral : Neutral e) (allowed : Allowed s.log e) :
    Ledger (s.record e) := by
  obtain ⟨start, stop, expiry, callback, deletion⟩ := neutral
  constructor
  case allowed => exact atEach_concat.mpr ⟨h.allowed, allowed⟩
  case taken => simpa [LocTimers.record, start, stop, expiry] using h.taken
  case removed => simpa [LocTimers.record, stop, expiry, deletion] using h.removed
  case called => simpa [LocTimers.record, callback, expiry] using h.called
  case once => simpa [LocTimers.record, start] using h.once
  case fresh => simpa [LocTimers.record, start] using h.fresh
  case distinct => simpa [LocTimers.record, start] using h.distinct
  case placed => simpa [LocTimers.record, start] using h.placed
  case gone => simpa [LocTimers.record, deletion] using h.gone
  case expiring => simpa [LocTimers.record, start, deletion] using h.expiring
  all_goals first
    | exact h.ticking | exact h.linked | exact h.inPlace | exact h.heaped | exact h.checked
    | exact h.ordered

theorem usedClient (h : Ledger s) (client : LocTimer) : Ledger (s.record (.usedClient client)) :=
  h.record ⟨rfl, rfl, rfl, rfl, rfl⟩ trivial

theorem deletedClient (h : Ledger s) (client : LocTimer) :
    Ledger (s.record (.deletedClient client)) :=
  h.record ⟨rfl, rfl, rfl, rfl, rfl⟩ trivial

theorem touched (h : Ledger s) {timers : Multiset Delegate}
    (alive : ∀ timer ∈ timers, tally deletionOf timer s.log = 0) :
    Ledger (s.record (.touched timers)) :=
  h.record ⟨rfl, rfl, rfl, rfl, rfl⟩ alive

/-- What the ledger does not speak of may change. -/
theorem other (h : Ledger s) (processing : Option (Bool × Timespec)) (mCb mMe : Nat → Option Nat)
    (handle : Nat → Bool) (wrappers : Nat) (now : Timespec) :
    Ledger { s with processing, mCb, mMe, handle, wrappers, now } := { h with }

theorem start_busy (current : s.mTimer client = some timer) (timeOutInMs : BitVec 32)
    (wakeOnExpire : Bool) :
    s.start client timeOutInMs wakeOnExpire = s.record (.usedClient client) := by
  simp [LocTimers.start, LocTimers.record, current]

theorem start_idle (idle : s.mTimer client = none) {timeOutInMs : BitVec 32} {wakeOnExpire : Bool}
    (created : ⟨s.created, client, s.now.after timeOutInMs, wakeOnExpire⟩ = timer) :
    s.start client timeOutInMs wakeOnExpire = { s with
      mTimer := Function.update s.mTimer client (some timer)
      delegates := Function.update s.delegates s.created ⟨some client, some wakeOnExpire⟩
      created := s.created + 1
      log := s.log ++ [.usedClient client] ++ [.started timer]
      queue := s.queue ++ [.push wakeOnExpire timer] } := by
  simp [LocTimers.start, LocTimers.record, idle, created, sendMsg]

/-- An update of one LocTimer concerns the delegates that are or become its current one. -/
theorem live_update_of_ne {new : Option Delegate} (before : s.mTimer client ≠ some timer)
    (after : new ≠ some timer) :
    live timer (Function.update s.mTimer client new) = live timer s.mTimer := by
  by_cases same : timer.client = client
  · simp [live, same, before, after]
  · simp [live, Function.update_of_ne same]

/-- What is started once more is new or was started before. -/
theorem started_cases {other : Delegate}
    (started : 0 < tally startOf other (s.log ++ [.usedClient client] ++ [.started timer])) :
    other = timer ∨ 0 < tally startOf other s.log := by
  by_cases same : other = timer
  · exact .inl same
  · exact .inr (by simpa [startOf, Ne.symm same] using started)

theorem start (h : Ledger s) (client : LocTimer) (timeOutInMs : BitVec 32) (wakeOnExpire : Bool) :
    Ledger (s.start client timeOutInMs wakeOnExpire) := by
  cases current : s.mTimer client with
  | some timer => exact start_busy current timeOutInMs wakeOnExpire ▸ h.usedClient client
  | none =>
      generalize created : (⟨s.created, client, s.now.after timeOutInMs, wakeOnExpire⟩ :
        Delegate) = timer
      have address : timer.address = s.created := created ▸ rfl
      have owner : timer.client = client := created ▸ rfl
      have place : timer.wakeOnExpire = wakeOnExpire := created ▸ rfl
      rw [start_idle current created]
      obtain ⟨start, stop, expiry, callback, deletion, removal, push, heap, idle⟩ :=
        h.unknown (show s.created ≤ timer.address from address.ge)
      have older : ∀ other, other ≠ timer →
          live other (Function.update s.mTimer client (some timer)) = live other s.mTimer := by
        intro other differs
        exact live_update_of_ne (by simp [current]) (by simpa using differs.symm)
      constructor
      case taken =>
        intro other
        by_cases same : other = timer
        · subst same
          simp [startOf, stopOf, expiryOf, live, owner, start, stop, expiry]
        · have := h.taken other
          simp [startOf, stopOf, expiryOf, older other same, Ne.symm same, this]
      case removed =>
        intro other
        simpa [removalOf, stopOf, expiryOf, deletionOf] using h.removed other
      case called => simpa [callbackOf, expiryOf] using h.called
      case once =>
        intro other
        by_cases same : other = timer
        · simp [startOf, same, start]
        · simpa [startOf, Ne.symm same] using h.once other
      case fresh =>
        intro other started
        obtain rfl | known := started_cases started
        · exact address ▸ Nat.lt_succ_self _
        · exact Nat.lt_succ_of_lt (h.fresh other known)
      case distinct =>
        intro one other started started' same
        obtain rfl | known := started_cases started
        · obtain rfl | known' := started_cases started'
          · rfl
          · have := h.fresh other known'
            omega
        · obtain rfl | known' := started_cases started'
          · have := h.fresh one known
            omega
          · exact h.distinct one other known known' same
      case ticking =>
        intro owner' other ticks
        by_cases same : owner' = client
        · subst same
          obtain rfl : timer = other := by simpa using ticks
          simp [owner, address, place]
        · dsimp only at ticks ⊢
          rw [Function.update_of_ne same] at ticks
          obtain ⟨own, fields⟩ := h.ticking owner' other ticks
          have known := (h.alive_of_ticking ticks).2.1
          have := h.fresh other (by omega)
          exact ⟨own, by rw [Function.update_of_ne (by omega), fields]⟩
      case linked =>
        intro addr owner' link
        by_cases same : addr = s.created
        · subst same
          obtain rfl : client = owner' := by simpa using link
          exact ⟨timer, by simp, address⟩
        · dsimp only at link ⊢
          rw [Function.update_of_ne same] at link
          obtain ⟨other, ticks, at_addr⟩ := h.linked addr owner' link
          have differs : owner' ≠ client := fun eq => by simp [eq ▸ ticks] at current
          exact ⟨other, by rw [Function.update_of_ne differs, ticks], at_addr⟩
      case inPlace => exact h.inPlace_concat place
      case heaped => exact h.heaped
      case checked => exact h.checked
      case placed =>
        intro other
        by_cases same : other = timer
        · subst same
          simp [pushOf, startOf, start, push, heap]
        · simpa [pushOf, startOf, Ne.symm same] using h.placed other
      case gone =>
        intro other
        by_cases same : other = timer
        · simp [deletionOf, same, deletion]
        · simpa [deletionOf, pushOf, Ne.symm same] using h.gone other
      case ordered =>
        refine h.ordered_concat fun other same => ?_
        obtain rfl : timer = other := Option.some.inj same
        exact removal
      case expiring =>
        intro other calls
        obtain ⟨known, alive⟩ := h.expiring other calls
        simp only [tally_append, tally_cons, tally_nil, startOf, deletionOf, reduceCtorEq, if_false]
        omega
      case allowed =>
        exact atEach_concat.mpr ⟨atEach_concat.mpr ⟨h.allowed, trivial⟩, trivial⟩

theorem stop_idle (ended : Delegate → TimerEvent) (idle : s.mTimer client = none) :
    s.stop ended client = (none, s.record (.usedClient client)) := by
  simp [LocTimers.stop, LocTimers.record, idle]

theorem stop_ticking (h : Ledger s) (ended : Delegate → TimerEvent)
    (ticks : s.mTimer client = some timer) :
    s.stop ended client = (some timer, { s with
      mTimer := Function.update s.mTimer client none
      delegates := Function.update s.delegates timer.address ⟨none, none⟩
      log := s.log ++ [.usedClient client] ++ [.touched {timer}] ++ [ended timer]
      queue := s.queue ++ [.remove timer.wakeOnExpire timer] }) := by
  have fields := (h.ticking client timer ticks).2
  simp [LocTimers.stop, LocTimers.record, ticks, destroyLocked, fields, sendMsg]

/-- The ledger across the part of stop() that takes the current delegate. -/
theorem take (h : Ledger s) (ticks : s.mTimer client = some timer) {e : TimerEvent}
    (kind : e = .stopped timer ∨ ∃ expiring, e = .expired expiring timer) :
    Ledger { s with
      mTimer := Function.update s.mTimer client none
      delegates := Function.update s.delegates timer.address ⟨none, none⟩
      log := s.log ++ [e]
      queue := s.queue ++ [.remove timer.wakeOnExpire timer] } := by
  obtain ⟨current, start, stop, expiry, -⟩ := h.alive_of_ticking ticks
  obtain ⟨owner, fields⟩ := h.ticking client timer ticks
  have about : startOf e = none ∧ callbackOf e = none ∧ deletionOf e = none ∧
      ∀ other, (if stopOf e = some other then 1 else 0) +
          (if expiryOf e = some other then 1 else 0) = if timer = other then 1 else 0 := by
    rcases kind with rfl | ⟨expiring, rfl⟩ <;> simp [startOf, callbackOf, deletionOf, stopOf,
      expiryOf]
  obtain ⟨noStart, noCallback, noDeletion, end_of⟩ := about
  have older : ∀ other, other ≠ timer →
      live other (Function.update s.mTimer client none) = live other s.mTimer := by
    intro other differs
    exact live_update_of_ne (by simpa [ticks] using differs.symm) (by simp)
  constructor
  case taken =>
    intro other
    have ends := end_of other
    have taken := h.taken other
    simp only [tally_append, tally_cons, tally_nil, noStart, reduceCtorEq, if_false]
    by_cases same : other = timer
    · subst same
      have left : live other (Function.update s.mTimer client none) = 0 := by simp [live, owner]
      rw [if_pos rfl] at ends
      omega
    · rw [if_neg (Ne.symm same)] at ends
      rw [older other same]
      omega
  case removed =>
    intro other
    have ends := end_of other
    have removed := h.removed other
    simp only [tally_append, tally_cons, tally_nil, noDeletion, removalOf, reduceCtorEq, if_false,
      Option.some.injEq]
    omega
  case called =>
    intro other
    have called := h.called other
    simp only [tally_append, tally_cons, tally_nil, noCallback, reduceCtorEq, if_false]
    omega
  case once => simpa [noStart] using h.once
  case fresh => simpa [noStart] using h.fresh
  case distinct => simpa [noStart] using h.distinct
  case ticking =>
    intro owner' other still
    dsimp only at still ⊢
    have differs : owner' ≠ client := fun same => by simp [same] at still
    rw [Function.update_of_ne differs] at still
    obtain ⟨own, fields'⟩ := h.ticking owner' other still
    have apart : other.address ≠ timer.address := fun same => by
      rw [same, fields] at fields'
      exact differs (Option.some.inj (congrArg DelegateFields.mClient fields')).symm
    exact ⟨own, by rw [Function.update_of_ne apart, fields']⟩
  case linked =>
    intro addr owner' link
    dsimp only at link ⊢
    have apart : addr ≠ timer.address := fun same => by simp [same] at link
    rw [Function.update_of_ne apart] at link
    obtain ⟨other, still, at_addr⟩ := h.linked addr owner' link
    have differs : owner' ≠ client := by
      rintro rfl
      obtain rfl : timer = other := Option.some.inj (ticks.symm.trans still)
      exact apart at_addr.symm
    exact ⟨other, by rw [Function.update_of_ne differs, still], at_addr⟩
  case inPlace => exact h.inPlace_concat rfl
  case heaped => exact h.heaped
  case checked => exact h.checked
  case placed => simpa [pushOf, noStart] using h.placed
  case gone => simpa [pushOf, noDeletion] using h.gone
  case ordered => exact h.ordered_concat fun _ pushes => by cases pushes
  case expiring => simpa [noStart, noDeletion] using h.expiring
  case allowed =>
    refine atEach_concat.mpr ⟨h.allowed, ?_⟩
    rcases kind with rfl | ⟨expiring, rfl⟩ <;> trivial

theorem stop (h : Ledger s) {ended : Delegate → TimerEvent}
    (kind : ended = .stopped ∨ ∃ expiring, ended = .expired expiring) (client : LocTimer) :
    Ledger (s.stop ended client).2 := by
  cases ticks : s.mTimer client with
  | none => exact stop_idle ended ticks ▸ h.usedClient client
  | some timer =>
      rw [stop_ticking h ended ticks]
      have deletion := (h.alive_of_ticking ticks).2.2.2.2
      have before : Ledger ((s.record (.usedClient client)).record (.touched {timer})) := by
        refine (h.usedClient client).touched fun other here => ?_
        obtain rfl := Multiset.mem_singleton.mp here
        simpa [LocTimers.record, deletionOf] using deletion
      refine before.take ticks ?_
      rcases kind with rfl | ⟨expiring, rfl⟩
      · exact .inl rfl
      · exact .inr ⟨expiring, rfl⟩

/-- Messages may leave the front of the queue, and delegates move from them to the heap of
their container. -/
theorem resettle (h : Ledger s) {rest : List ContainerMsg} {heap : LocHeap Delegate}
    (suffix : rest <:+ s.queue)
    (removals : ∀ timer, tally removalOf timer rest = tally removalOf timer s.queue)
    (check : heap.checkTree = true)
    (moved : ∀ timer, tally pushOf timer rest + heap.elements.count timer ≤
      tally pushOf timer s.queue + (s.heap container).elements.count timer)
    (here : ∀ timer ∈ heap.elements, timer.wakeOnExpire = container) :
    Ledger { s with queue := rest, heap := Function.update s.heap container heap } := by
  have fewer : ∀ timer, tally pushOf timer rest +
      (Function.update s.heap container heap timer.wakeOnExpire).elements.count timer ≤
        tally pushOf timer s.queue + (s.heap timer.wakeOnExpire).elements.count timer := by
    intro timer
    by_cases same : timer.wakeOnExpire = container
    · simpa only [same, Function.update_self] using moved timer
    · rw [Function.update_of_ne same]
      have queued : tally pushOf timer rest ≤ tally pushOf timer s.queue :=
        (suffix.sublist.filterMap pushOf).count_le timer
      omega
  constructor
  case removed =>
    intro timer
    dsimp only
    rw [removals timer]
    exact h.removed timer
  case inPlace => exact fun msg sent => h.inPlace msg (suffix.mem sent)
  case heaped =>
    intro container' timer inHeap
    dsimp only at inHeap
    by_cases same : container' = container
    · subst same
      rw [Function.update_self] at inHeap
      exact here timer inHeap
    · rw [Function.update_of_ne same] at inHeap
      exact h.heaped container' timer inHeap
  case checked =>
    intro container'
    dsimp only
    by_cases same : container' = container
    · rw [same, Function.update_self]
      exact check
    · rw [Function.update_of_ne same]
      exact h.checked container'
  case placed => exact fun timer => (fewer timer).trans (h.placed timer)
  case gone =>
    intro timer deleted
    have gone := h.gone timer deleted
    have fewer := fewer timer
    dsimp only
    omega
  case ordered => exact h.ordered.sublist suffix.sublist
  all_goals first
    | exact h.taken | exact h.called | exact h.once | exact h.fresh
    | exact h.distinct | exact h.ticking | exact h.linked | exact h.expiring | exact h.allowed

theorem pushProc {rest : List ContainerMsg} (h : Ledger s)
    (sent : s.queue = .push container timer :: rest) :
    Ledger (LocTimers.pushProc container timer { s with queue := rest }) := by
  have place : timer.wakeOnExpire = container :=
    h.inPlace (.push container timer) (sent ▸ List.mem_cons_self)
  have push : ((s.heap container).push timer).elements = timer ::ₘ (s.heap container).elements :=
    LocHeapNode.push_elements timer _
  have alive : ∀ other ∈ timer ::ₘ (s.heap container).elements,
      tally deletionOf other s.log = 0 := by
    intro other here
    rcases Multiset.mem_cons.mp here with rfl | inHeap
    · refine h.alive_of_pushed ?_
      rw [sent, tally_cons, pushOf, if_pos rfl]
      omega
    · exact h.alive_of_heaped inHeap
  refine Ledger.touched (s := { s with queue := rest, heap := _ }) ?_ alive
  refine h.resettle ⟨[.push container timer], sent.symm⟩ ?_ ?_ ?_ ?_
  · simp [sent, removalOf]
  · exact LocHeapNode.push_checkNodes (h.checked container) timer
  · intro other
    simp only [sent, push, tally_cons, pushOf, Multiset.count_cons, Option.some.injEq,
      eq_comm (a := other)]
    omega
  · intro other inHeap
    rw [push] at inHeap
    rcases Multiset.mem_cons.mp inHeap with rfl | old
    · exact place
    · exact h.heaped container other old

/-- The ledger across a deletion by the MsgTimerRemove at the front of the queue. -/
theorem deleted {rest : List ContainerMsg} (h : Ledger s) (quiet : s.expiring = none)
    (sent : s.queue = .remove container timer :: rest)
    (absent : timer ∉ (s.heap container).elements) :
    Ledger (LocTimers.record (.deleted timer) { s with queue := rest }) := by
  obtain rfl : timer.wakeOnExpire = container :=
    h.inPlace (.remove container timer) (sent ▸ List.mem_cons_self)
  have ordered := h.ordered
  rw [sent] at ordered
  obtain ⟨last, ordered⟩ := List.pairwise_cons.mp ordered
  constructor
  case removed =>
    intro other
    have removed := h.removed other
    simp only [sent, tally_cons, removalOf, Option.some.injEq] at removed
    simp only [LocTimers.record, tally_append, tally_cons, tally_nil, deletionOf, stopOf, expiryOf,
      reduceCtorEq, if_false, Option.some.injEq]
    omega
  case inPlace => exact fun msg here => h.inPlace msg (sent ▸ List.mem_cons_of_mem _ here)
  case gone =>
    intro other known
    by_cases same : other = timer
    · subst same
      exact ⟨tally_eq_zero.mpr fun msg here => last msg here other rfl,
        Multiset.count_eq_zero.mpr absent⟩
    · have gone := h.gone other (by simpa [LocTimers.record, deletionOf, Ne.symm same] using known)
      simpa [LocTimers.record, sent, pushOf] using gone
  case placed => simpa [LocTimers.record, sent, pushOf, startOf] using h.placed
  case ordered => exact ordered
  case expiring => exact fun other calls => by simp [LocTimers.record, quiet] at calls
  case allowed => exact atEach_concat.mpr ⟨h.allowed, trivial⟩
  case taken => simpa [LocTimers.record, startOf, stopOf, expiryOf] using h.taken
  case called => simpa [LocTimers.record, callbackOf, expiryOf] using h.called
  case once => simpa [LocTimers.record, startOf] using h.once
  case fresh => simpa [LocTimers.record, startOf] using h.fresh
  case distinct => simpa [LocTimers.record, startOf] using h.distinct
  all_goals first
    | exact h.ticking | exact h.linked | exact h.heaped | exact h.checked

theorem removeProc {rest : List ContainerMsg} (h : Ledger s) (quiet : s.expiring = none)
    (sent : s.queue = .remove container timer :: rest) :
    Ledger (LocTimers.removeProc container timer { s with queue := rest }) := by
  obtain ⟨check, erased⟩ := LocHeap.remove_elements (h.checked container) timer
  have alive : ∀ other ∈ timer ::ₘ (s.heap container).elements,
      tally deletionOf other s.log = 0 := by
    intro other here
    rcases Multiset.mem_cons.mp here with rfl | inHeap
    · refine h.alive_of_removed ?_
      rw [sent, tally_cons, removalOf, if_pos rfl]
      omega
    · exact h.alive_of_heaped inHeap
  have out : Ledger { s with
      heap := Function.update s.heap container ((s.heap container).remove timer).2 } := by
    refine h.resettle List.suffix_rfl (fun _ => rfl) check (fun other => ?_) (fun other left => ?_)
    · exact Nat.add_le_add_left (erased ▸ Multiset.count_le_of_le other (Multiset.erase_le _ _)) _
    · exact h.heaped container other (Multiset.mem_of_mem_erase (erased ▸ left))
  refine Ledger.deleted (s := LocTimers.record _ { s with heap := _ }) (out.touched alive) quiet
    sent ?_
  -- It was pushed at most once, so no other entry of it is left.
  change timer ∉ (Function.update s.heap container
    ((s.heap container).remove timer).2 container).elements
  have place : timer.wakeOnExpire = container :=
    h.inPlace (.remove container timer) (sent ▸ List.mem_cons_self)
  have placed := h.placed timer
  have once := h.once timer
  rw [place] at placed
  rw [Function.update_self, erased, ← Multiset.count_eq_zero, Multiset.count_erase_self]
  omega

theorem poll (h : Ledger s) (container : Bool) : Ledger (s.sendMsg (.expire container)) := by
  constructor
  case removed => simpa [sendMsg, removalOf] using h.removed
  case inPlace => exact h.inPlace_concat trivial
  case placed => simpa [sendMsg, pushOf] using h.placed
  case gone => simpa [sendMsg, pushOf] using h.gone
  case ordered => exact h.ordered_concat fun _ pushes => by cases pushes
  all_goals first
    | exact h.taken | exact h.called | exact h.once | exact h.fresh
    | exact h.distinct | exact h.ticking | exact h.linked | exact h.heaped | exact h.checked
    | exact h.expiring | exact h.allowed

theorem expireProc {rest : List ContainerMsg} (h : Ledger s)
    (sent : s.queue = .expire container :: rest) : Ledger { s with queue := rest } := by
  have kept : Ledger { s with
      queue := rest, heap := Function.update s.heap container (s.heap container) } :=
    h.resettle ⟨[.expire container], sent.symm⟩ (by simp [sent, removalOf]) (h.checked container)
      (fun other => by simp [sent, pushOf]) (h.heaped container)
  simpa using kept

theorem loopEnd (h : Ledger s) (container : Bool) : Ledger (s.loopEnd container) :=
  (h.other none s.mCb s.mMe s.handle s.wrappers s.now).touched fun _ inHeap =>
    h.alive_of_heaped inHeap

/-- The next stage of expire(), or its end. -/
theorem enter (h : Ledger s) {e : Option Expiring}
    (called : ∀ timer, tally callbackOf timer s.log + pending timer e ≤ tally expiryOf timer s.log)
    (alive : ∀ timer, e = some (.called timer) →
      0 < tally startOf timer s.log ∧ tally deletionOf timer s.log = 0) :
    Ledger { s with expiring := e } :=
  { h with called := called, expiring := alive }

theorem leave (h : Ledger s) {e : Option Expiring} (quiet : ∀ timer, pending timer e = 0)
    (stage : ∀ timer, e ≠ some (.called timer)) : Ledger { s with expiring := e } := by
  refine h.enter (fun timer => ?_) fun timer calls => absurd calls (stage timer)
  have called := h.called timer
  have quiet := quiet timer
  omega

theorem popRound (h : Ledger s) (container : Bool) (now : Timespec) (quiet : s.expiring = none) :
    Ledger (s.popRound container now) := by
  rw [LocTimers.popRound]
  split
  next => exact h.loopEnd container
  next timer heap popped =>
    obtain ⟨check, elements⟩ := LocHeap.pop_elements (h.checked container) popped
    have top : timer ∈ (s.heap container).elements := elements ▸ Multiset.mem_cons_self _ _
    have out : Ledger { s with heap := Function.update s.heap container heap } := by
      refine h.resettle List.suffix_rfl (fun _ => rfl) check (fun other => ?_)
        (fun other left => ?_)
      · refine Nat.add_le_add_left ?_ _
        rw [elements]
        exact Multiset.count_le_of_le other (Multiset.le_cons_self _ _)
      · exact h.heaped container other (elements ▸ Multiset.mem_cons_of_mem left)
    have called : Ledger { s with
        heap := Function.update s.heap container heap, expiring := some (.called timer) } := by
      refine out.enter (fun other => ?_) fun other calls => ?_
      · have := out.called other
        simpa [quiet, pending] using this
      · obtain rfl : timer = other := by simpa using calls
        have placed := h.placed timer
        have inHeap := Multiset.count_pos.mpr (h.heaped container timer top ▸ top)
        exact ⟨by dsimp only at placed ⊢; omega, h.alive_of_heaped top⟩
    exact (called.other (some (container, now)) s.mCb s.mMe s.handle s.wrappers s.now).touched
      fun _ inHeap => h.alive_of_heaped inHeap

theorem nextRound (h : Ledger s) (container : Bool) (now : Timespec) (quiet : s.expiring = none) :
    Ledger (s.nextRound container now) := by
  obtain ended | popped := nextRound_cases container now s
  · exact ended ▸ h.loopEnd container
  · exact popped ▸ h.popRound container now quiet

theorem delete (h : Ledger s) (client : LocTimer) : Ledger (s.delete client) :=
  (h.stop (.inl rfl) client).deletedClient client

theorem destroy (h : Ledger s) (n : Nat) : Ledger (s.destroy n) := by
  rw [LocTimers.destroy]
  split
  · exact ((h.usedClient (.wrapper n)).other _ _ _ _ _ _).delete (.wrapper n)
  · exact h.usedClient (.wrapper n)

theorem timerStart (h : Ledger s) (msec : BitVec 64) (cb_func : Option Nat)
    (wake_on_expire : Bool) : Ledger (s.timerStart msec cb_func wake_on_expire) := by
  cases cb_func with
  | none => exact h
  | some cb => exact (h.other s.processing _ _ _ _ s.now).start _ _ _

theorem timerStop (h : Ledger s) (n : Nat) : Ledger (s.timerStop n) := by
  rw [LocTimers.timerStop]
  split
  · exact (h.other s.processing s.mCb s.mMe _ s.wrappers s.now).destroy n
  · exact h

/-- The stop() that expire() forces on a ticking client, up to the callback. -/
theorem stopped (h : Ledger s) (ticks : s.mTimer client = some timer) (expiring : Delegate) :
    Ledger { (s.stop (.expired expiring) client).2 with
      expiring := some (.stopped expiring client timer) } := by
  refine (h.stop (.inr ⟨expiring, rfl⟩) client).enter (fun other => ?_) fun other calls => by
    cases calls
  rw [stop_ticking h _ ticks]
  have called := h.called other
  have none_yet := (h.alive_of_ticking ticks).2.2.2.1
  simp only [tally_append, tally_cons, tally_nil, callbackOf, expiryOf, pending, reduceCtorEq,
    if_false, Option.some.injEq]
  by_cases same : timer = other
  · subst same
    simp only [if_pos]
    omega
  · simp only [if_neg same]
    omega

theorem calledBack (h : Ledger s) {expiring current : Delegate}
    (stopped : s.expiring = some (.stopped expiring client current)) {e : Option Expiring}
    (quiet : ∀ timer, pending timer e = 0) (stage : ∀ timer, e ≠ some (.called timer)) :
    Ledger { s.record (.timeOutCallback expiring current) with expiring := e } := by
  have called := h.called
  simp only [stopped, pending] at called
  constructor
  case called =>
    intro timer
    have called := called timer
    simp only [LocTimers.record, tally_append, tally_cons, tally_nil, callbackOf, expiryOf,
      quiet timer, reduceCtorEq, if_false, Option.some.injEq]
    omega
  case expiring => exact fun timer calls => absurd calls (stage timer)
  case allowed =>
    refine atEach_concat.mpr ⟨h.allowed, ?_⟩
    have called := called current
    have taken := h.taken current
    have once := h.once current
    rw [if_pos rfl] at called
    change tally stopOf current s.log = 0
    omega
  case taken => simpa [LocTimers.record, startOf, stopOf, expiryOf] using h.taken
  case removed => simpa [LocTimers.record, stopOf, expiryOf, deletionOf] using h.removed
  case once => simpa [LocTimers.record, startOf] using h.once
  case fresh => simpa [LocTimers.record, startOf] using h.fresh
  case distinct => simpa [LocTimers.record, startOf] using h.distinct
  case placed => simpa [LocTimers.record, startOf] using h.placed
  case gone => simpa [LocTimers.record, deletionOf] using h.gone
  all_goals first
    | exact h.ticking | exact h.linked | exact h.inPlace | exact h.heaped | exact h.checked
    | exact h.ordered

theorem expireStep (h : Ledger s) {expiring : Expiring} (stage : s.expiring = some expiring) :
    Ledger (s.expireStep expiring) := by
  cases expiring with
  | called timer =>
      have alive := h.expiring timer stage
      refine (h.leave ?_ ?_).touched ?_
      · intro other
        cases (s.delegates timer.address).mClient <;> rfl
      · intro other
        cases (s.delegates timer.address).mClient <;> simp
      · intro other here
        obtain rfl := Multiset.mem_singleton.mp here
        exact alive.2
  | copied timer client =>
      cases ticks : s.mTimer client with
      | none =>
          have idle : s.expireStep (.copied timer client) =
              { s.record (.usedClient client) with expiring := none } := by
            simp only [LocTimers.expireStep, stop_idle _ ticks]
          exact idle ▸ (h.usedClient client).leave (fun _ => rfl) fun _ => by simp
      | some current =>
          have taken : s.expireStep (.copied timer client) =
              { (s.stop (.expired timer) client).2 with
                expiring := some (.stopped timer client current) } := by
            simp only [LocTimers.expireStep, stop_ticking h _ ticks]
          exact taken ▸ h.stopped ticks timer
  | stopped timer client current =>
      have used := h.usedClient client
      cases client with
      | timer n => exact used.calledBack stage (fun _ => rfl) fun _ => by simp
      | wrapper n => exact used.calledBack stage (fun _ => rfl) fun _ => by simp
  | calledBack n => exact (h.destroy n).leave (fun _ => rfl) fun _ => by simp

theorem new (now : Timespec) : Ledger (.new now) := by
  constructor
  case allowed => exact atEach_nil _
  case checked => exact fun _ => rfl
  all_goals simp [LocTimers.new, live, LocHeap.new, LocHeap.elements, LocHeapNode.elements, pending]

theorem step {t : LocTimers} {l : Label} (h : Ledger s) (taken : LocTimers.step s l = some t) :
    Ledger t := by
  cases takes_of_step taken with
  | start n timeOutInMs wakeOnExpire own => exact h.start _ _ _
  | stop n own => exact h.stop (.inl rfl) _
  | delete n own => exact h.delete _
  | timerStart msec cb_func wake_on_expire => exact h.timerStart _ _ _
  | timerStop n => exact h.timerStop n
  | poll container => exact h.poll container
  | advance now later => exact h.other s.processing s.mCb s.mMe s.handle s.wrappers now
  | expireStep expiring stage => exact h.expireStep stage
  | round container now quiet loop => exact h.nextRound container now quiet
  | push container timer queue quiet idle sent => exact h.pushProc sent
  | remove container timer queue quiet idle sent => exact h.removeProc quiet sent
  | expire container queue quiet idle sent =>
      exact (h.expireProc sent).popRound container s.now quiet

end Ledger
end LocTimers
end Msm8974.Timer
