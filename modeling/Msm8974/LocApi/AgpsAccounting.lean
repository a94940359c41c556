import Msm8974.Library.Traces
import Msm8974.LocApi.AgpsReachable

/-!
The data connection the base machine holds at the framework. Whether it is held is
read off the log alone: a request takes it, a release, a denial of a pending request
or a forced release gives it up. The machine never asks for what it holds and never
releases what it does not.
-/

namespace Msm8974.Agps
open Msm8974.Traces
variable {κ : Type}

def NifEvent.isRequest : NifEvent κ → Bool
  | .agpsCb nifRequest => nifRequest.status = .requestAgpsDataConn
  | _ => false

def NifEvent.isRelease : NifEvent κ → Bool
  | .agpsCb nifRequest => nifRequest.status = .releaseAgpsDataConn
  | _ => false

def NifEvent.isLoss : NifEvent κ → Bool
  | .onRsrcEvent .pending .denied | .onRsrcEvent .acquired .released => true
  | _ => false

def heldAfter (held : Bool) (e : NifEvent κ) : Bool :=
  e.isRequest || (held && !(e.isRelease || e.isLoss))

def held (log : List (NifEvent κ)) : Bool := log.foldl heldAfter false

def Balanced (before : List (NifEvent κ)) (e : NifEvent κ) : Prop :=
  (e.isRequest = true → held before = false) ∧ (e.isRelease = true → held before = true)

/-- A balanced log after which the connection is held as `b` says. -/
structure Ledger (log : List (NifEvent κ)) (b : Bool) : Prop where
  balanced : AtEach Balanced log
  held_eq : held log = b

def AgpsState.holds : AgpsState → Bool
  | .pending | .acquired => true
  | .released | .releasing => false

theorem held_concat (log : List (NifEvent κ)) (e : NifEvent κ) :
    held (log ++ [e]) = heldAfter (held log) e := by
  simp [held]

namespace Ledger
variable {log : List (NifEvent κ)} {b : Bool}

theorem concat (ledger : Ledger log b) {e : NifEvent κ} (request : e.isRequest = true → b = false)
    (release : e.isRelease = true → b = true) : Ledger (log ++ [e]) (heldAfter b e) where
  balanced := atEach_concat.mpr ⟨ledger.balanced, ledger.held_eq ▸ request,
    ledger.held_eq ▸ release⟩
  held_eq := by rw [held_concat, ledger.held_eq]

theorem notified (ledger : Ledger log b) (client : κ) (status : AgpsRsrcStatus) :
    Ledger (log ++ [.notified client status]) b := by
  have h := ledger.concat (e := .notified client status) (by simp [NifEvent.isRequest])
    (by simp [NifEvent.isRelease])
  simpa [heldAfter, NifEvent.isRequest, NifEvent.isRelease, NifEvent.isLoss] using h

theorem entered (ledger : Ledger log b) (state : AgpsState) (event : AgpsRsrcStatus) :
    Ledger (log ++ [.onRsrcEvent state event])
      (b && !(NifEvent.onRsrcEvent (κ := κ) state event).isLoss) := by
  have h := ledger.concat (e := .onRsrcEvent state event) (by simp [NifEvent.isRequest])
    (by simp [NifEvent.isRelease])
  simpa [heldAfter, NifEvent.isRequest, NifEvent.isRelease] using h

theorem deliver {nif : Nif κ} [SubscriberKind κ] (ledger : Ledger nif.log b)
    (n : Notification κ) (list : List (Subscriber κ)) : Ledger (n.deliver list nif).log b := by
  unfold Notification.deliver
  exact List.foldlRecOn (motive := fun w : Nif κ => Ledger w.log b) _ _ ledger
    fun _ h s _ => h.notified s.client n.rsrcStatus

end Ledger

namespace AgpsStateMachine
variable [SubscriberKind κ] {m : AgpsStateMachine κ (Nif κ)}

theorem request_ledger (ledger : Ledger m.world.log false)
    (active : m.hasActiveSubscribers = true) :
    Ledger (m.sendRsrcRequest .requestAgpsDataConn).2.world.log true := by
  obtain ⟨s, hs⟩ := Option.isSome_iff_exists.mp active
  have h := ledger.concat (e := .agpsCb ⟨m.world.mType, .requestAgpsDataConn, some s.client⟩)
    (by simp) (by simp [NifEvent.isRelease])
  simpa [sendRsrcRequest, AgpsVirtual.sendRsrcRequest, hs, Nif.record, heldAfter,
    NifEvent.isRequest] using h

theorem release_ledger (ledger : Ledger m.world.log true)
    (inactive : m.hasActiveSubscribers = false) :
    Ledger (m.sendRsrcRequest .releaseAgpsDataConn).2.world.log false := by
  have none_active : m.activeSubscriber = none := by simpa [hasActiveSubscribers] using inactive
  have h := ledger.concat (e := .agpsCb ⟨m.world.mType, .releaseAgpsDataConn, none⟩)
    (by simp [NifEvent.isRequest]) (by simp)
  simpa [sendRsrcRequest, AgpsVirtual.sendRsrcRequest, none_active, Nif.record, heldAfter,
    NifEvent.isRequest, NifEvent.isRelease] using h

theorem dropSubscriber_ledger {b : Bool} (ledger : Ledger m.world.log b) (i : Nat) :
    Ledger (m.dropSubscriber i).world.log b := by
  obtain ⟨-, h⟩ | ⟨s, -, -, h⟩ | ⟨s, -, -, h⟩ := dropSubscriber_cases i m
  · rw [h]
    exact ledger
  · rw [h]
    exact ledger
  · rw [h]
    exact ledger.deliver _ _

theorem releaseIfUnused_ledger (ledger : Ledger m.world.log true)
    (holds : m.mStatePtr.holds = true) :
    Ledger m.releaseIfUnused.world.log m.releaseIfUnused.mStatePtr.holds := by
  obtain ⟨empty, h⟩ | ⟨-, inactive, h⟩ | ⟨-, h⟩ := releaseIfUnused_cases m
  · rw [h]
    exact release_ledger (m := { m with mStatePtr := .released }) ledger
      (by simp [hasActiveSubscribers, activeSubscriber_eq, empty])
  · rw [h]
    exact release_ledger (m := { m with mStatePtr := .releasing }) ledger inactive
  · rw [h, holds]
    exact ledger

theorem released_ledger (h : m.mStatePtr = .released) (ledger : Ledger m.world.log false)
    (empty : m.mSubscribers = []) (event : RsrcEvent κ) :
    Ledger (releasedOnRsrcEvent event m).world.log
      (releasedOnRsrcEvent event m).mStatePtr.holds := by
  cases event with
  | subscribe s =>
      simp only [releasedOnRsrcEvent, sendRsrcRequest_accepted, if_true]
      refine request_ledger (m := m.addSubscriber s) (by simpa using ledger) ?_
      simp [hasActiveSubscribers, activeSubscriber_eq, addSubscriber_eq, empty, Subscriber.clone]
  | unsubscribe i =>
      simp only [releasedOnRsrcEvent, empty, List.getElem?_nil, h]
      exact ledger
  | granted | released | denied =>
      simp only [releasedOnRsrcEvent, h]
      exact ledger

theorem pending_ledger {b : Bool} (h : m.mStatePtr = .pending) (event : RsrcEvent κ)
    (ledger : Ledger m.world.log b) (b_eq : b = decide (event.status ≠ .denied)) :
    Ledger (pendingOnRsrcEvent event m).world.log (pendingOnRsrcEvent event m).mStatePtr.holds := by
  subst b_eq
  cases event with
  | subscribe s =>
      simp only [pendingOnRsrcEvent, addSubscriber_world, addSubscriber_mStatePtr, h]
      exact ledger
  | unsubscribe i =>
      exact releaseIfUnused_ledger (dropSubscriber_ledger ledger i)
        (by simp [(dropSubscriber_fields i m).1, h, AgpsState.holds])
  | granted =>
      simp only [pendingOnRsrcEvent, notifySubscribers_granted]
      exact ledger.deliver _ _
  | released =>
      simp only [pendingOnRsrcEvent, h]
      exact ledger
  | denied =>
      simp only [pendingOnRsrcEvent, notifySubscribers_all .denied rfl]
      exact ledger.deliver _ _

theorem acquired_ledger {b : Bool} (h : m.mStatePtr = .acquired) (event : RsrcEvent κ)
    (ledger : Ledger m.world.log b) (b_eq : b = decide (event.status ≠ .released)) :
    Ledger (acquiredOnRsrcEvent event m).world.log
      (acquiredOnRsrcEvent event m).mStatePtr.holds := by
  subst b_eq
  cases event with
  | subscribe s =>
      simp only [acquiredOnRsrcEvent, addSubscriber_world, addSubscriber_mStatePtr, h]
      unfold Subscriber.notifyRsrcStatus
      split
      · exact ledger.notified _ _
      · exact ledger
  | unsubscribe i =>
      exact releaseIfUnused_ledger (dropSubscriber_ledger ledger i)
        (by simp [(dropSubscriber_fields i m).1, h, AgpsState.holds])
  | released =>
      simp only [acquiredOnRsrcEvent, notifySubscribers_all .released rfl]
      exact ledger.deliver _ _
  | granted | denied =>
      simp only [acquiredOnRsrcEvent, h]
      exact ledger

theorem releasing_close_ledger (ledger : Ledger m.world.log false) {event : RsrcEvent κ}
    (close : event = .released ∨ event = .denied) :
    Ledger (releasingOnRsrcEvent event m).world.log
      (releasingOnRsrcEvent event m).mStatePtr.holds := by
  obtain ⟨⟨s, hs, active⟩, h⟩ | ⟨-, h⟩ := releasingOnRsrcEvent_close close m
  · rw [h]
    refine request_ledger (m := { m with
      mStatePtr := .pending
      mSubscribers := m.mSubscribers.filter (!·.mIsInactive)
      world := _ }) (ledger.deliver _ _) ?_
    exact hasActiveSubscribers_iff.mpr ⟨s, by simpa using ⟨hs, active⟩, active⟩
  · rw [h]
    exact ledger.deliver _ _

theorem releasing_ledger (h : m.mStatePtr = .releasing) (ledger : Ledger m.world.log false)
    (event : RsrcEvent κ) :
    Ledger (releasingOnRsrcEvent event m).world.log
      (releasingOnRsrcEvent event m).mStatePtr.holds := by
  cases event with
  | subscribe s =>
      simp only [releasingOnRsrcEvent, addSubscriber_world, addSubscriber_mStatePtr, h]
      exact ledger
  | unsubscribe i =>
      have dropped := dropSubscriber_ledger ledger i
      simp only [releasingOnRsrcEvent]
      split
      · exact dropped
      · rw [(dropSubscriber_fields i m).1, h]
        exact dropped
  | granted =>
      simp only [releasingOnRsrcEvent, h]
      exact ledger
  | released => exact releasing_close_ledger ledger (.inl rfl)
  | denied => exact releasing_close_ledger ledger (.inr rfl)

theorem dispatch_ledger (inv : BaseInvariant m) (ledger : Ledger m.world.log m.mStatePtr.holds)
    (event : RsrcEvent κ) :
    Ledger (m.dispatch event).world.log (m.dispatch event).mStatePtr.holds := by
  obtain ⟨state, list, single, w⟩ := m
  have entered := ledger.entered state event.status
  let w' := w.record (.onRsrcEvent state event.status)
  cases state with
  | released =>
      exact released_ledger (m := ⟨.released, list, single, w'⟩) rfl entered
        (inv.released_empty rfl) event
  | pending =>
      refine pending_ledger (m := ⟨.pending, list, single, w'⟩) rfl event entered ?_
      cases event <;> rfl
  | acquired =>
      refine acquired_ledger (m := ⟨.acquired, list, single, w'⟩) rfl event entered ?_
      cases event <;> rfl
  | releasing => exact releasing_ledger (m := ⟨.releasing, list, single, w'⟩) rfl entered event

theorem step_ledger (inv : BaseInvariant m) (ledger : Ledger m.world.log m.mStatePtr.holds)
    (op : AgpsOp κ) : Ledger (m.step op).world.log (m.step op).mStatePtr.holds := by
  cases op with
  | subscribe client =>
      simp only [step, subscribeRsrc]
      split
      · rw [notifySubscriber_of_forMe rfl rfl]
        exact ledger.notified _ _
      · exact dispatch_ledger inv ledger _
  | unsubscribe client =>
      obtain ⟨h, -⟩ | ⟨i, s, -, -, h⟩ := unsubscribeRsrc_cases ⟨client, false⟩ m
      · simpa only [step, h] using ledger
      · simpa only [step, h] using dispatch_ledger inv ledger _
  | event status =>
      cases status with
      | granted | released | denied => exact dispatch_ledger inv ledger _
      | subscribe | unsubscribe | statusMax => exact ledger

theorem exec_ledger (enforceSingleSubscriber : Bool) (mType : Int) (ops : List (AgpsOp κ)) :
    Ledger (exec enforceSingleSubscriber mType ops).world.log
      (exec enforceSingleSubscriber mType ops).mStatePtr.holds := by
  have both := List.foldlRecOn (motive := fun m : AgpsStateMachine κ (Nif κ) =>
      BaseInvariant m ∧ Ledger m.world.log m.mStatePtr.holds)
    ops step ⟨new_baseInvariant enforceSingleSubscriber ⟨mType, []⟩, atEach_nil _, rfl⟩
    fun m ih op _ => ⟨step_baseInvariant ih.1 op, step_ledger ih.1 ih.2 op⟩
  exact both.2

/-- Over any run, requests and releases alternate against what is held, and the
connection is held exactly in Pending and Acquired. -/
theorem requests_and_releases_balance (enforceSingleSubscriber : Bool) (mType : Int)
    (ops : List (AgpsOp κ)) :
    let m := exec enforceSingleSubscriber mType ops
    AtEach (fun before e =>
        (e.isRequest = true → held before = false) ∧ (e.isRelease = true → held before = true))
      m.world.log ∧
      (held m.world.log = true ↔ m.mStatePtr = .pending ∨ m.mStatePtr = .acquired) := by
  intro m
  have ledger : Ledger m.world.log m.mStatePtr.holds := exec_ledger _ _ _
  refine ⟨ledger.balanced, ?_⟩
  rw [ledger.held_eq]
  cases m.mStatePtr <;> simp [AgpsState.holds]

end AgpsStateMachine
end Msm8974.Agps
