import Msm8974.LocApi.AgpsReachable
import Msm8974.LocApi.DSMachine

/-!
What a subscription leaves behind. addSubscriber takes any equal subscriber on the
list for the new one, an inactive one as well, and nothing makes that one active
again; the machines keep a subscription except in that case.
-/

namespace Msm8974.Agps
open Msm8974.Runs Msm8974.Traces
variable {κ : Type}

section List
variable [SubscriberKind κ]

def ListedActive (client : κ) (list : List (Subscriber κ)) : Prop :=
  ∃ t ∈ list, t.equals ⟨client, false⟩ = true ∧ t.isInactive = false

/-- An equal subscriber is on the list only where an equal active one is. -/
def Resubscribable (client : κ) (list : List (Subscriber κ)) : Prop :=
  (∀ t ∈ list, t.equals ⟨client, false⟩ = false) ∨ ListedActive client list

instance (client : κ) (list : List (Subscriber κ)) : Decidable (ListedActive client list) :=
  inferInstanceAs (Decidable (∃ t ∈ list, _))

theorem listedActive_addSubscriber_iff {μ : Type}
    (refl : ∀ c : κ, SubscriberKind.equals c c = true) (client : κ) (m : AgpsStateMachine κ μ) :
    ListedActive client (m.addSubscriber ⟨client, false⟩).mSubscribers ↔
      Resubscribable client m.mSubscribers := by
  obtain ⟨same, s, hs, equal⟩ | ⟨added, new⟩ :=
    AgpsStateMachine.addSubscriber_mSubscribers ⟨client, false⟩ m
  · rw [same]
    refine ⟨.inr, fun h => ?_⟩
    cases h with
    | inl absent => exact absurd equal (by simp [absent s hs])
    | inr active => exact active
  · refine iff_of_true ?_ (.inl new)
    rw [added]
    exact ⟨_, List.mem_cons_self, refl client, rfl⟩

end List

section Base
variable [SubscriberKind κ]

theorem dispatch_subscribe_extends (s : Subscriber κ) (m : AgpsStateMachine κ (Nif κ)) :
    Extends (fun e => ∀ client, e ≠ .notified client .denied) m.world.log
      (m.dispatch (.subscribe s)).world.log := by
  obtain ⟨state, list, single, w⟩ := m
  have entered := (Extends.refl (fun e => ∀ client, e ≠ .notified client .denied) w.log).concat
    (x := .onRsrcEvent state .subscribe) (by simp)
  cases state with
  | released =>
      simp only [AgpsStateMachine.dispatch, AgpsStateMachine.releasedOnRsrcEvent,
        AgpsStateMachine.sendRsrcRequest_accepted, if_true]
      simp only [AgpsStateMachine.sendRsrcRequest, AgpsVirtual.sendRsrcRequest,
        AgpsStateMachine.addSubscriber_world]
      split
      · exact entered.concat (by simp)
      · exact entered
  | pending | releasing =>
      simp only [AgpsStateMachine.dispatch, AgpsStateMachine.pendingOnRsrcEvent,
        AgpsStateMachine.releasingOnRsrcEvent, AgpsStateMachine.addSubscriber_world]
      exact entered
  | acquired =>
      simp only [AgpsStateMachine.dispatch, AgpsStateMachine.acquiredOnRsrcEvent,
        AgpsStateMachine.addSubscriber_world, Subscriber.notifyRsrcStatus]
      split
      · exact entered.concat (by simp [Notification.to])
      · exact entered

/-- `subscribeRsrc` kept the subscription of `client`: an active equal subscriber is on the
list, or `client` was notified of the denial. -/
def Kept (client : κ) (m m' : AgpsStateMachine κ (Nif κ)) : Prop :=
  ListedActive client m'.mSubscribers ∨
    .notified client .denied ∈ newEvents m.world.log m'.world.log

theorem kept_iff (refl : ∀ c : κ, SubscriberKind.equals c c = true) (client : κ)
    (m : AgpsStateMachine κ (Nif κ)) :
    Kept client m (m.subscribeRsrc ⟨client, false⟩) ↔
      (m.mEnforceSingleSubscriber = true ∧ m.mSubscribers ≠ []) ∨
        Resubscribable client m.mSubscribers := by
  unfold AgpsStateMachine.subscribeRsrc
  split
  next refused =>
    have condition : m.mEnforceSingleSubscriber = true ∧ m.mSubscribers ≠ [] := by
      simpa [AgpsStateMachine.hasSubscribers] using refused
    refine iff_of_true (.inr ?_) (.inl condition)
    rw [notifySubscriber_of_forMe rfl rfl]
    simp [AgpsVirtual.notifyRsrcStatus, Nif.record, newEvents_concat, Notification.broadcast]
  next admitted =>
    have condition : ¬ (m.mEnforceSingleSubscriber = true ∧ m.mSubscribers ≠ []) := by
      simpa [AgpsStateMachine.hasSubscribers] using admitted
    have silent : .notified client .denied ∉ newEvents m.world.log
        (m.dispatch (.subscribe ⟨client, false⟩)).world.log := fun denied =>
      (dispatch_subscribe_extends ⟨client, false⟩ m).of_mem_newEvents denied client rfl
    rw [Kept, AgpsStateMachine.dispatch_subscribe_mSubscribers,
      listedActive_addSubscriber_iff refl]
    simp only [silent, condition, or_false, false_or]

end Base

namespace DSStateMachine

/-- The same for the data-services machine, which denies by handing the handle to the
ordinary ATL path. -/
def Kept (mID : ConnHandle) (m m' : DSStateMachine) : Prop :=
  ListedActive ⟨mID⟩ m'.mSubscribers ∨
    .requestATL mID AGPS_TYPE_SUPL ∈ newEvents m.world.log m'.world.log

instance (mID : ConnHandle) (m m' : DSStateMachine) : Decidable (Kept mID m m') :=
  inferInstanceAs (Decidable (_ ∨ _))

theorem dispatch_subscribe_extends {m : DSStateMachine} (left : m.mStatePtr ≠ .released)
    (s : Subscriber DSSubscriber) :
    Extends (fun e => ∀ mID agpsType, e ≠ .requestATL mID agpsType) m.world.log
      (m.dispatch (.subscribe s)).world.log := by
  obtain ⟨state, list, single, w⟩ := m
  have entered := (Extends.refl (fun e => ∀ mID agpsType, e ≠ .requestATL mID agpsType)
    w.log).concat (x := .onRsrcEvent state .subscribe) (by simp)
  cases state with
  | released => exact absurd rfl left
  | pending | releasing =>
      simp only [AgpsStateMachine.dispatch, AgpsStateMachine.pendingOnRsrcEvent,
        AgpsStateMachine.releasingOnRsrcEvent, AgpsStateMachine.addSubscriber_world]
      exact entered
  | acquired =>
      simp only [AgpsStateMachine.dispatch, AgpsStateMachine.acquiredOnRsrcEvent,
        AgpsStateMachine.addSubscriber_world, Subscriber.notifyRsrcStatus]
      split
      · exact entered.concat (by simp)
      · exact entered

theorem resubscribable_of_all_active (client : DSSubscriber)
    {list : List (Subscriber DSSubscriber)} (active : ∀ s ∈ list, s.mIsInactive = false) :
    Resubscribable client list := by
  by_cases listed : ∃ t ∈ list, t.equals ⟨client, false⟩ = true
  · obtain ⟨t, ht, equal⟩ := listed
    exact .inr ⟨t, ht, equal, active t ht⟩
  · refine .inl fun t ht => ?_
    simpa using fun equal => listed ⟨t, ht, equal⟩

theorem kept_iff {m : DSStateMachine} (inv : Invariant m) (mID : ConnHandle)
    (startResult : Int) :
    Kept mID m (requestSuplEsProc mID startResult m) ↔ Resubscribable ⟨mID⟩ m.mSubscribers := by
  let m' := withWorld ({ · with startResult }) m
  have listed := listedActive_addSubscriber_iff
    (fun c : DSSubscriber => by simp [SubscriberKind.equals]) ⟨mID⟩ m'
  rw [Kept, requestSuplEsProc_eq inv, AgpsStateMachine.dispatch_subscribe_mSubscribers, listed]
  by_cases left : m.mStatePtr = .released
  · have resubscribable := resubscribable_of_all_active ⟨mID⟩ (inv.released_active left)
    exact iff_of_true (.inl resubscribable) resubscribable
  · have silent : .requestATL mID AGPS_TYPE_SUPL ∉ newEvents m.world.log
        (m'.dispatch (.subscribe ⟨⟨mID⟩, false⟩)).world.log := fun denied =>
      (dispatch_subscribe_extends (m := m') left
        ⟨⟨mID⟩, false⟩).of_mem_newEvents denied mID AGPS_TYPE_SUPL rfl
    simp only [m'] at silent
    simp only [silent, or_false]
    rfl

end DSStateMachine

/-- In every reachable state of either machine a subscription is kept exactly where no
inactive subscriber stands in for it. -/
theorem subscription_kept_iff_resubscribable [SubscriberKind κ]
    (refl : ∀ c : κ, SubscriberKind.equals c c = true) :
    (∀ (enforceSingleSubscriber : Bool) (mType : Int) (ops : List (AgpsOp κ)) (client : κ),
      let m := AgpsStateMachine.exec enforceSingleSubscriber mType ops
      Kept client m (m.subscribeRsrc ⟨client, false⟩) ↔
        (enforceSingleSubscriber = true ∧ m.mSubscribers ≠ []) ∨
          Resubscribable client m.mSubscribers) ∧
    (∀ (ls : List DSStateMachine.Label) (m : DSStateMachine),
      Run DSStateMachine.step DSStateMachine.new ls m →
        ∀ (mID : ConnHandle) (startResult : Int),
          DSStateMachine.Kept mID m (DSStateMachine.requestSuplEsProc mID startResult m) ↔
            Resubscribable ⟨mID⟩ m.mSubscribers) := by
  constructor
  · intro enforceSingleSubscriber mType ops client m
    have single : m.mEnforceSingleSubscriber = enforceSingleSubscriber :=
      AgpsStateMachine.exec_single _ _ _
    rw [kept_iff refl, single]
  · intro ls m run mID startResult
    exact DSStateMachine.kept_iff (DSStateMachine.run_invariant run) mID startResult

/-- Two subscribers with an open data call, one of which asks again. -/
theorem subscription_kept_while_acquired :
    ∃ m, Run DSStateMachine.step DSStateMachine.new
        [.modemRequest 7 0, .modemRequest 8 0, .opened] m ∧
      m.mSubscribers = [⟨⟨8⟩, false⟩, ⟨⟨7⟩, false⟩] ∧
      DSStateMachine.Kept 7 m (DSStateMachine.requestSuplEsProc 7 0 m) := by
  have run : Run DSStateMachine.step DSStateMachine.new
    [.modemRequest 7 0, .modemRequest 8 0, .opened] _ := run_iff_foldlM.mpr rfl
  refine ⟨_, run, rfl, ?_⟩
  exact ((subscription_kept_iff_resubscribable (κ := DSSubscriber)
    (fun c => by simp [SubscriberKind.equals])).2 _ _ run 7 0).mpr
      (.inr ⟨⟨⟨7⟩, false⟩, .tail _ (.head _), rfl, rfl⟩)

/-- Released during Acquired and requested again before the data call has closed. -/
theorem subscription_lost_while_releasing :
    ∃ m, Run DSStateMachine.step DSStateMachine.new
        [.modemRequest 7 0, .opened, .releaseATL 7 false] m ∧
      ¬ DSStateMachine.Kept 7 m (DSStateMachine.requestSuplEsProc 7 0 m) :=
  ⟨_, run_iff_foldlM.mpr rfl, by decide⟩

end Msm8974.Agps
