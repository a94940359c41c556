import Msm8974.Library.Runs
import Msm8974.Library.Traces
import Msm8974.LocApi.AgpsInvariant

/-!
DSStateMachine: the AGPS machine whose requests start and stop an emergency data
call, together with the messages of loc_eng.cpp that drive it. The loc_timer of a
retry and the LocEngRequestSuplEs it re-injects are pending work in the world; the
result of the next openAndStartDataCall is set by the step that may start the call.
-/

namespace Msm8974.Agps
open Msm8974.Runs Msm8974.Traces

abbrev ConnHandle := BitVec 32

@[ext] structure DSSubscriber where
  ID : ConnHandle
  deriving DecidableEq, Repr

inductive DSEvent
  | onRsrcEvent (state : AgpsState) (event : AgpsRsrcStatus)
  | modemRequest (handle : ConnHandle)
  | requestSuplES (connHandle : ConnHandle)
  | requestATL (connHandle : ConnHandle) (agpsType : Int)
  | atlOpenStatus (handle : ConnHandle) (isSucc : Int) (apn : Option String)
      (bearer agpsType : Int)
  | atlCloseStatus (handle : ConnHandle) (isSucc : Int)
  | openAndStartDataCall (ret : Int)
  | stopDataCall
  | closeDataCall
  deriving DecidableEq

structure DSWorld where
  mRetries : BitVec 8
  timers : Nat
  startResult : Int
  retryRequests : List ConnHandle
  log : List DSEvent

def AGPS_TYPE_INVALID : Int := -1
def AGPS_TYPE_SUPL : Int := 1
def AGPS_APN_BEARER_INVALID : Int := -1
def LOC_API_ADAPTER_ERR_SUCCESS : Int := 0
def LOC_API_ADAPTER_ERR_UNSUPPORTED : Int := 2
def LOC_API_ADAPTER_ERR_ENGINE_BUSY : Int := 6
def MAX_START_DATA_CALL_RETRIES : BitVec 8 := 4

namespace DSWorld

def record (e : DSEvent) (w : DSWorld) : DSWorld := { w with log := w.log ++ [e] }

def incRetries (w : DSWorld) : DSWorld := { w with mRetries := w.mRetries + 1 }

def informStatus (status : AgpsRsrcStatus) (ID : ConnHandle) (w : DSWorld) : DSWorld :=
  match status with
  | .unsubscribe => w.record (.atlCloseStatus ID 1)
  | .released => w.record .closeDataCall
  | .denied => ({ w with mRetries := 0 } : DSWorld).record (.requestATL ID AGPS_TYPE_SUPL)
  | .granted =>
      w.record (.atlOpenStatus ID 1 none AGPS_APN_BEARER_INVALID AGPS_TYPE_INVALID)
  | .subscribe | .statusMax => w

def dataCallCb (action : AGpsStatusValue) (w : DSWorld) : Int × DSWorld :=
  match action with
  | .requestAgpsDataConn => (w.startResult, w.record (.openAndStartDataCall w.startResult))
  | .releaseAgpsDataConn => (0, w.record .stopDataCall)

def connHandle : Option DSSubscriber → ConnHandle
  | some s => s.ID
  | none => -1

/-- The `switch` on what requestRsrc returned, and the result sendRsrcRequest returns. -/
def afterRequestRsrc (s : Option DSSubscriber) (ret : Int) (w : DSWorld) : Int × DSWorld :=
  if ret = LOC_API_ADAPTER_ERR_ENGINE_BUSY then
    let w := w.incRetries
    if w.mRetries > MAX_START_DATA_CALL_RETRIES then
      (ret, w.informStatus .denied (connHandle s))
    -- loc_timer_start returns the handle of the timer it started, which is taken for an error
    else (-1, { w with timers := w.timers + 1 })
  else if ret = LOC_API_ADAPTER_ERR_UNSUPPORTED ∨ ret = -1 then
    (ret, w.informStatus .denied (connHandle s))
  else (ret, w)

def sendRsrcRequest (action : AGpsStatusValue) (s : Option DSSubscriber) (w : DSWorld) :
    Int × DSWorld :=
  let (ret, w) := w.dataCallCb action
  w.afterRequestRsrc s ret

/-- The start fails for good and the handle is passed on to the ordinary ATL path. -/
def FallsBack (w : DSWorld) : Prop :=
  w.startResult = LOC_API_ADAPTER_ERR_UNSUPPORTED ∨ w.startResult = -1 ∨
    (w.startResult = LOC_API_ADAPTER_ERR_ENGINE_BUSY ∧
      w.mRetries + 1 > MAX_START_DATA_CALL_RETRIES)

instance (w : DSWorld) : Decidable w.FallsBack := inferInstanceAs (Decidable (_ ∨ _))

theorem start_cases (s : Option DSSubscriber) (w : DSWorld) :
    ∃ w' ret, w'.log = w.log ++ [.openAndStartDataCall w.startResult] ∧
      (ret = LOC_API_ADAPTER_ERR_SUCCESS ↔ w.startResult = LOC_API_ADAPTER_ERR_SUCCESS) ∧
      ((w.FallsBack ∧ w.sendRsrcRequest .requestAgpsDataConn s =
          (ret, w'.informStatus .denied (connHandle s))) ∨
        (¬ w.FallsBack ∧ w.sendRsrcRequest .requestAgpsDataConn s = (ret, w'))) := by
  have shape : w.sendRsrcRequest .requestAgpsDataConn s =
      (w.record (.openAndStartDataCall w.startResult)).afterRequestRsrc s w.startResult := rfl
  by_cases busy : w.startResult = LOC_API_ADAPTER_ERR_ENGINE_BUSY
  · rw [afterRequestRsrc, if_pos busy] at shape
    by_cases spent : w.mRetries + 1 > MAX_START_DATA_CALL_RETRIES
    · exact ⟨_, _, rfl, Iff.rfl,
        .inl ⟨.inr (.inr ⟨busy, spent⟩), shape.trans (if_pos spent)⟩⟩
    · refine ⟨_, _, rfl, ?_, .inr ⟨?_, shape.trans (if_neg spent)⟩⟩
      · rw [busy]
        decide
      · simpa [FallsBack, busy, LOC_API_ADAPTER_ERR_ENGINE_BUSY,
          LOC_API_ADAPTER_ERR_UNSUPPORTED] using spent
  · rw [afterRequestRsrc, if_neg busy] at shape
    have falls : w.FallsBack ↔
        (w.startResult = LOC_API_ADAPTER_ERR_UNSUPPORTED ∨ w.startResult = -1) := by
      simp [FallsBack, busy]
    by_cases failed : w.FallsBack
    · exact ⟨_, _, rfl, Iff.rfl, .inl ⟨failed, shape.trans (if_pos (falls.mp failed))⟩⟩
    · exact ⟨_, _, rfl, Iff.rfl, .inr ⟨failed, shape.trans (if_neg (mt falls.mpr failed))⟩⟩

end DSWorld

instance : SubscriberKind DSSubscriber where
  equals s t := s.ID = t.ID
  waitForCloseComplete _ := true

instance : AgpsVirtual DSSubscriber DSWorld where
  notifyRsrcStatus s status w := w.informStatus status s.ID
  setInactive s w := w.informStatus .unsubscribe s.ID
  sendRsrcRequest := DSWorld.sendRsrcRequest
  trace state event w := w.record (.onRsrcEvent state event)

/-- Telling the subscribers that the call is closed is only logged. -/
theorem deliver_released_log {n : Notification DSSubscriber} (status : n.rsrcStatus = .released)
    (list : List (Subscriber DSSubscriber)) (w : DSWorld) :
    ∃ log, n.deliver list w = { w with log := log } := by
  unfold Notification.deliver
  refine List.foldlRecOn (motive := fun w' : DSWorld => ∃ log, w' = { w with log := log })
    _ _ ⟨w.log, rfl⟩ fun w' ih s _ => ?_
  obtain ⟨log, rfl⟩ := ih
  rw [status]
  exact ⟨log ++ [.closeDataCall], rfl⟩

abbrev DSStateMachine := AgpsStateMachine DSSubscriber DSWorld

namespace DSStateMachine

def new : DSStateMachine := AgpsStateMachine.new false ⟨0, 0, 0, [], []⟩

def withWorld (f : DSWorld → DSWorld) (m : DSStateMachine) : DSStateMachine :=
  { m with world := f m.world }

def record (e : DSEvent) (m : DSStateMachine) : DSStateMachine := withWorld (·.record e) m

/-- `DSStateMachine::onRsrcEvent`, where a RELEASED that changes no state becomes DENIED. -/
def onRsrcEvent (event : AgpsRsrcStatus) (m : DSStateMachine) : DSStateMachine :=
  match event with
  | .granted => m.dispatch .granted
  | .released =>
      let m' := m.dispatch .released
      if m'.mStatePtr = m.mStatePtr then m'.dispatch .denied else m'
  | .denied => m.dispatch .denied
  | .subscribe | .unsubscribe | .statusMax => m

/-- A close that is pending becomes a denial. -/
theorem onRsrcEvent_pending_released (list : List (Subscriber DSSubscriber)) (single : Bool)
    (w : DSWorld) :
    onRsrcEvent .released (⟨.pending, list, single, w⟩ : DSStateMachine) =
      ⟨.released, [], single, (Notification.broadcast .broadcastAll .denied true).deliver list
        ((w.record (.onRsrcEvent .pending .released)).record (.onRsrcEvent .pending .denied))⟩ :=
  AgpsStateMachine.notifySubscribers_all .denied rfl
    (⟨.released, list, single, (w.record (.onRsrcEvent .pending .released)).record
      (.onRsrcEvent .pending .denied)⟩ : DSStateMachine)

/-- Out of Releasing a close always leads to another state. -/
theorem onRsrcEvent_releasing_released (list : List (Subscriber DSSubscriber)) (single : Bool)
    (w : DSWorld) :
    onRsrcEvent .released (⟨.releasing, list, single, w⟩ : DSStateMachine) =
      AgpsStateMachine.releasingOnRsrcEvent .released
        ⟨.releasing, list, single, w.record (.onRsrcEvent .releasing .released)⟩ := by
  have shape : AgpsStateMachine.dispatch .released (⟨.releasing, list, single, w⟩ :
      DSStateMachine) = AgpsStateMachine.releasingOnRsrcEvent .released
        ⟨.releasing, list, single, w.record (.onRsrcEvent .releasing .released)⟩ := rfl
  obtain ⟨-, after⟩ | ⟨-, after⟩ := AgpsStateMachine.releasingOnRsrcEvent_close (.inl rfl)
    (⟨.releasing, list, single, w.record (.onRsrcEvent .releasing .released)⟩ : DSStateMachine)
  · simp [onRsrcEvent, shape, after]
  · simp [onRsrcEvent, shape, after]

/-- `LocEngAdapter::requestSuplES` posts the request to the machine's own message queue. -/
def requestSuplES (connHandle : ConnHandle) (m : DSStateMachine) : DSStateMachine :=
  withWorld (fun w => { w.record (.requestSuplES connHandle) with
    retryRequests := w.retryRequests ++ [connHandle] }) m

def retryCallback (m : DSStateMachine) : DSStateMachine :=
  match m.activeSubscriber with
  | none => m
  | some s => requestSuplES s.client.ID m

/-- `LocEngRequestSuplEs::proc` with a DSStateMachine in place. -/
def requestSuplEsProc (mID : ConnHandle) (startResult : Int) (m : DSStateMachine) :
    DSStateMachine :=
  (withWorld ({ · with startResult }) m).subscribeRsrc ⟨⟨mID⟩, false⟩

/-- `LocEngReleaseATL::proc`. The AGPS machines come first; a subscriber of theirs is
closed there and the DSStateMachine is not asked. -/
def releaseATLProc (mID : ConnHandle) (onAgpsMachine : Bool) (m : DSStateMachine) :
    DSStateMachine :=
  if onAgpsMachine then record (.atlCloseStatus mID 1) m
  else
    match m.unsubscribeRsrc ⟨⟨mID⟩, false⟩ with
    | (true, m') => m'
    | (false, m') => record (.atlCloseStatus mID 0) m'

inductive Label
  | modemRequest (mID : ConnHandle) (startResult : Int)
  | retryRequest (startResult : Int)
  | releaseATL (mID : ConnHandle) (onAgpsMachine : Bool)
  | timerExpire
  | opened
  | closed (startResult : Int)
  deriving DecidableEq

def step (m : DSStateMachine) : Label → Option DSStateMachine
  | .modemRequest mID startResult =>
      some (requestSuplEsProc mID startResult (record (.modemRequest mID) m))
  | .retryRequest startResult =>
      match m.world.retryRequests with
      | [] => none
      | mID :: rest =>
          some (requestSuplEsProc mID startResult (withWorld ({ · with retryRequests := rest }) m))
  | .releaseATL mID onAgpsMachine => some (releaseATLProc mID onAgpsMachine m)
  | .timerExpire =>
      if 0 < m.world.timers then
        some (retryCallback (withWorld (fun w => { w with timers := w.timers - 1 }) m))
      else none
  | .opened => some (onRsrcEvent .granted m)
  | .closed startResult =>
      some (onRsrcEvent .released (withWorld ({ · with startResult }) m))

structure Invariant (m : DSStateMachine) : Prop extends ListInvariant m where
  shared : m.mEnforceSingleSubscriber = false

theorem Invariant.withWorld {m : DSStateMachine} (inv : Invariant m) (f : DSWorld → DSWorld) :
    Invariant (withWorld f m) :=
  ⟨AgpsStateMachine.listInvariant_of_same inv.toListInvariant rfl rfl, inv.shared⟩

theorem Invariant.dispatch {m : DSStateMachine} (inv : Invariant m)
    (event : AgpsStateMachine.RsrcEvent DSSubscriber) : Invariant (m.dispatch event) :=
  ⟨AgpsStateMachine.dispatch_listInvariant inv.toListInvariant event,
    (AgpsStateMachine.dispatch_single event m).trans inv.shared⟩

/-- The machine is shared, so every request reaches the current state. -/
theorem requestSuplEsProc_eq {m : DSStateMachine} (inv : Invariant m) (mID : ConnHandle)
    (startResult : Int) :
    requestSuplEsProc mID startResult m =
      (withWorld ({ · with startResult }) m).dispatch (.subscribe ⟨⟨mID⟩, false⟩) := by
  simp [requestSuplEsProc, AgpsStateMachine.subscribeRsrc, withWorld, inv.shared]

theorem releaseATLProc_cases (mID : ConnHandle) (onAgpsMachine : Bool) (m : DSStateMachine) :
    (onAgpsMachine = true ∧
      releaseATLProc mID onAgpsMachine m = record (.atlCloseStatus mID 1) m) ∨
    (onAgpsMachine = false ∧ (∀ s ∈ m.mSubscribers, s.client.ID ≠ mID) ∧
      releaseATLProc mID onAgpsMachine m = record (.atlCloseStatus mID 0) m) ∨
    (onAgpsMachine = false ∧ ∃ i s, m.mSubscribers[i]? = some s ∧ s.client.ID = mID ∧
      releaseATLProc mID onAgpsMachine m = m.dispatch (.unsubscribe i)) := by
  cases onAgpsMachine with
  | true => exact .inl ⟨rfl, rfl⟩
  | false =>
      obtain ⟨h, absent⟩ | ⟨i, s, hi, equal, h⟩ :=
        AgpsStateMachine.unsubscribeRsrc_cases ⟨⟨mID⟩, false⟩ m
      · refine .inr (.inl ⟨rfl, fun s hs => ?_, by simp [releaseATLProc, h]⟩)
        simpa [Subscriber.equals, SubscriberKind.equals] using absent s hs
      · refine .inr (.inr ⟨rfl, i, s, hi, ?_, by simp [releaseATLProc, h]⟩)
        simpa [Subscriber.equals, SubscriberKind.equals] using equal

theorem Invariant.onRsrcEvent {m : DSStateMachine} (inv : Invariant m) (event : AgpsRsrcStatus) :
    Invariant (onRsrcEvent event m) := by
  cases event with
  | granted | denied => exact inv.dispatch _
  | released =>
      simp only [DSStateMachine.onRsrcEvent]
      split
      · exact (inv.dispatch _).dispatch _
      · exact inv.dispatch _
  | subscribe | unsubscribe | statusMax => exact inv

theorem Invariant.requestSuplEsProc {m : DSStateMachine} (inv : Invariant m) (mID : ConnHandle)
    (startResult : Int) : Invariant (requestSuplEsProc mID startResult m) :=
  requestSuplEsProc_eq inv mID startResult ▸ (inv.withWorld _).dispatch _

theorem Invariant.releaseATLProc {m : DSStateMachine} (inv : Invariant m) (mID : ConnHandle)
    (onAgpsMachine : Bool) : Invariant (releaseATLProc mID onAgpsMachine m) := by
  obtain ⟨-, h⟩ | ⟨-, -, h⟩ | ⟨-, i, s, -, -, h⟩ := releaseATLProc_cases mID onAgpsMachine m
  · exact h ▸ inv.withWorld _
  · exact h ▸ inv.withWorld _
  · exact h ▸ inv.dispatch _

theorem Invariant.step {m m' : DSStateMachine} {l : Label} (inv : Invariant m)
    (h : step m l = some m') : Invariant m' := by
  cases l with
  | modemRequest mID startResult =>
      obtain rfl := Option.some.inj h
      exact (inv.withWorld _).requestSuplEsProc _ _
  | retryRequest startResult =>
      simp only [DSStateMachine.step] at h
      split at h
      · cases h
      · obtain rfl := Option.some.inj h
        exact (inv.withWorld _).requestSuplEsProc _ _
  | releaseATL mID onAgpsMachine =>
      obtain rfl := Option.some.inj h
      exact inv.releaseATLProc _ _
  | timerExpire =>
      simp only [DSStateMachine.step] at h
      split at h
      · obtain rfl := Option.some.inj h
        unfold retryCallback
        split
        · exact inv.withWorld _
        · exact (inv.withWorld _).withWorld _
      · cases h
  | opened =>
      obtain rfl := Option.some.inj h
      exact inv.onRsrcEvent _
  | closed startResult =>
      obtain rfl := Option.some.inj h
      exact (inv.withWorld _).onRsrcEvent _

theorem new_invariant : Invariant new :=
  ⟨AgpsStateMachine.listInvariant_of_released rfl (by simp [new, AgpsStateMachine.new]), rfl⟩

theorem run_invariant {ls : List Label} {m : DSStateMachine} (run : Run step new ls m) :
    Invariant m :=
  run.invariant (fun _ _ _ inv h => inv.step h) new_invariant

end DSStateMachine
end Msm8974.Agps
