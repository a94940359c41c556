import Msm8974.LocApi.AgpsInvariant

/-!
The reachable states of the base machine. Its sendRsrcRequest always returns
success, so a subscription never stays behind in Released, and the list of that
state is empty.
-/

namespace Msm8974.Agps
variable {κ : Type}

structure BaseInvariant (m : AgpsStateMachine κ (Nif κ)) : Prop extends ListInvariant m where
  released_empty : m.mStatePtr = .released → m.mSubscribers = []
  single : m.mEnforceSingleSubscriber = true → m.mSubscribers.length ≤ 1

namespace AgpsStateMachine

theorem new_baseInvariant (enforceSingleSubscriber : Bool) (nif : Nif κ) :
    BaseInvariant (new enforceSingleSubscriber nif) where
  released_active _ := by simp [new]
  held_active h := by simp [new] at h
  releasing_nonempty h := by simp [new] at h
  released_empty _ := rfl
  single _ := by simp [new]

variable [SubscriberKind κ]

theorem sendRsrcRequest_accepted (action : AGpsStatusValue) (m : AgpsStateMachine κ (Nif κ)) :
    (m.sendRsrcRequest action).1 = 0 := by
  simp only [sendRsrcRequest, AgpsVirtual.sendRsrcRequest]
  split <;> rfl

theorem dispatch_released_empty {m : AgpsStateMachine κ (Nif κ)}
    (empty : m.mStatePtr = .released → m.mSubscribers = []) (event : RsrcEvent κ)
    (back : (m.dispatch event).mStatePtr = .released) : (m.dispatch event).mSubscribers = [] := by
  by_cases left : m.mStatePtr = .released
  · obtain ⟨state, list, single, w⟩ := m
    obtain rfl : state = .released := left
    obtain rfl : list = [] := empty rfl
    cases event with
    | subscribe s => simp [dispatch, releasedOnRsrcEvent, sendRsrcRequest_accepted] at back
    | unsubscribe i => simp [dispatch, releasedOnRsrcEvent]
    | granted | released | denied => rfl
  · exact dispatch_back_to_released left back

theorem subscribeRsrc_baseInvariant {m : AgpsStateMachine κ (Nif κ)} (inv : BaseInvariant m)
    (subscriber : Subscriber κ) : BaseInvariant (m.subscribeRsrc subscriber) := by
  refine ⟨subscribeRsrc_listInvariant inv.toListInvariant subscriber, ?_, ?_⟩
  · unfold subscribeRsrc
    split
    · exact inv.released_empty
    · exact dispatch_released_empty inv.released_empty _
  · unfold subscribeRsrc
    split
    · exact inv.single
    next admitted =>
      rw [dispatch_single, dispatch_subscribe_mSubscribers]
      intro single
      have empty : m.mSubscribers = [] := by
        simpa [single, hasSubscribers] using admitted
      simp [addSubscriber_eq, empty]

theorem dispatch_baseInvariant {m : AgpsStateMachine κ (Nif κ)} (inv : BaseInvariant m)
    {event : RsrcEvent κ} (other : ∀ s, event ≠ .subscribe s) :
    BaseInvariant (m.dispatch event) := by
  refine ⟨dispatch_listInvariant inv.toListInvariant event,
    dispatch_released_empty inv.released_empty event, fun single => ?_⟩
  rw [dispatch_single] at single
  have shorter := (dispatch_clients other m).length_le
  simp only [clients, List.length_map] at shorter
  exact Nat.le_trans shorter (inv.single single)

theorem step_baseInvariant {m : AgpsStateMachine κ (Nif κ)} (inv : BaseInvariant m)
    (op : AgpsOp κ) : BaseInvariant (m.step op) := by
  cases op with
  | subscribe client => exact subscribeRsrc_baseInvariant inv _
  | unsubscribe client =>
      obtain ⟨h, -⟩ | ⟨i, s, -, -, h⟩ := unsubscribeRsrc_cases ⟨client, false⟩ m
      · simpa only [step, h] using inv
      · simpa only [step, h] using dispatch_baseInvariant inv (by simp)
  | event status =>
      cases status with
      | granted | released | denied => exact dispatch_baseInvariant inv (by simp)
      | subscribe | unsubscribe | statusMax => exact inv

theorem exec_baseInvariant (enforceSingleSubscriber : Bool) (mType : Int)
    (ops : List (AgpsOp κ)) : BaseInvariant (exec enforceSingleSubscriber mType ops) :=
  List.foldlRecOn ops step (new_baseInvariant _ _) fun _ inv op _ => step_baseInvariant inv op

theorem step_single (op : AgpsOp κ) (m : AgpsStateMachine κ (Nif κ)) :
    (m.step op).mEnforceSingleSubscriber = m.mEnforceSingleSubscriber := by
  cases op with
  | subscribe client =>
      simp only [step, subscribeRsrc]
      split
      · rfl
      · exact dispatch_single _ m
  | unsubscribe client =>
      obtain ⟨h, -⟩ | ⟨i, s, -, -, h⟩ := unsubscribeRsrc_cases ⟨client, false⟩ m
      · simp only [step, h]
      · simpa only [step, h] using dispatch_single _ m
  | event status =>
      cases status with
      | granted | released | denied => exact dispatch_single _ m
      | subscribe | unsubscribe | statusMax => rfl

theorem exec_single (enforceSingleSubscriber : Bool) (mType : Int) (ops : List (AgpsOp κ)) :
    (exec enforceSingleSubscriber mType ops).mEnforceSingleSubscriber =
      enforceSingleSubscriber :=
  List.foldlRecOn (motive := fun m : AgpsStateMachine κ (Nif κ) =>
      m.mEnforceSingleSubscriber = enforceSingleSubscriber)
    ops step rfl fun m ih op _ => (step_single op m).trans ih

/-- The state and the subscriber list agree after any run, whatever the subscribers'
equality and their way of closing. -/
theorem state_matches_subscribers (enforceSingleSubscriber : Bool) (mType : Int)
    (ops : List (AgpsOp κ)) :
    let m := exec enforceSingleSubscriber mType ops
    (m.mStatePtr = .released ↔ m.mSubscribers = []) ∧
      (m.mStatePtr = .pending ∨ m.mStatePtr = .acquired →
        ∃ s ∈ m.mSubscribers, s.isInactive = false) ∧
      (m.mStatePtr = .releasing → m.mSubscribers ≠ []) ∧
      (enforceSingleSubscriber = true → m.mSubscribers.length ≤ 1) := by
  intro m
  have inv : BaseInvariant m := exec_baseInvariant enforceSingleSubscriber mType ops
  have single : m.mEnforceSingleSubscriber = enforceSingleSubscriber := exec_single _ _ _
  refine ⟨⟨inv.released_empty, fun empty => ?_⟩, inv.held_active, inv.releasing_nonempty,
    fun h => inv.single (single.trans h)⟩
  cases state : m.mStatePtr with
  | released => rfl
  | pending =>
      obtain ⟨s, hs, -⟩ := inv.held_active (.inl state)
      simp [empty] at hs
  | acquired =>
      obtain ⟨s, hs, -⟩ := inv.held_active (.inr state)
      simp [empty] at hs
  | releasing => exact absurd empty (inv.releasing_nonempty state)

end AgpsStateMachine
end Msm8974.Agps
