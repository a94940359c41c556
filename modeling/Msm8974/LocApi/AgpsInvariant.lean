import Msm8974.LocApi.AgpsNif

/-!
Which subscriber lists go with which state. `ListInvariant` holds for any virtual
methods, so the data-services machine shares it; a machine whose requests are
always accepted also keeps the list of the Released state empty.
-/

namespace Msm8974.Agps
variable {κ μ : Type}

structure ListInvariant (m : AgpsStateMachine κ μ) : Prop where
  released_active : m.mStatePtr = .released → ∀ s ∈ m.mSubscribers, s.mIsInactive = false
  held_active : m.mStatePtr = .pending ∨ m.mStatePtr = .acquired →
    ∃ s ∈ m.mSubscribers, s.mIsInactive = false
  releasing_nonempty : m.mStatePtr = .releasing → m.mSubscribers ≠ []

namespace AgpsStateMachine

theorem listInvariant_of_active {m : AgpsStateMachine κ μ}
    (active : ∃ s ∈ m.mSubscribers, s.mIsInactive = false) (left : m.mStatePtr ≠ .released) :
    ListInvariant m where
  released_active h := absurd h left
  held_active _ := active
  releasing_nonempty _ := by
    obtain ⟨s, hs, -⟩ := active
    exact List.ne_nil_of_mem hs

theorem listInvariant_of_released {m : AgpsStateMachine κ μ} (h : m.mStatePtr = .released)
    (active : ∀ s ∈ m.mSubscribers, s.mIsInactive = false) : ListInvariant m where
  released_active _ := active
  held_active h' := by simp [h] at h'
  releasing_nonempty h' := by simp [h] at h'

theorem listInvariant_of_releasing {m : AgpsStateMachine κ μ} (h : m.mStatePtr = .releasing)
    (nonempty : m.mSubscribers ≠ []) : ListInvariant m where
  released_active h' := by simp [h] at h'
  held_active h' := by simp [h] at h'
  releasing_nonempty _ := nonempty

theorem listInvariant_of_same {m m' : AgpsStateMachine κ μ} (inv : ListInvariant m)
    (state : m'.mStatePtr = m.mStatePtr) (list : m'.mSubscribers = m.mSubscribers) :
    ListInvariant m' := by
  refine ⟨?_, ?_, ?_⟩ <;> rw [state, list]
  · exact inv.released_active
  · exact inv.held_active
  · exact inv.releasing_nonempty

variable [SubscriberKind κ]

/-- Adding puts a clone at the head unless an equal subscriber is there already. -/
theorem addSubscriber_mSubscribers (subscriber : Subscriber κ) (m : AgpsStateMachine κ μ) :
    (m.addSubscriber subscriber).mSubscribers = m.mSubscribers ∧
        (∃ s ∈ m.mSubscribers, s.equals subscriber = true) ∨
      (m.addSubscriber subscriber).mSubscribers = subscriber.clone :: m.mSubscribers ∧
        ∀ s ∈ m.mSubscribers, s.equals subscriber = false := by
  rw [addSubscriber_eq]
  cases known : m.mSubscribers.any (·.equals subscriber) with
  | true => exact .inl ⟨by simp, by simpa using known⟩
  | false => exact .inr ⟨by simp, by simpa using known⟩

theorem mem_addSubscriber {subscriber s : Subscriber κ} {m : AgpsStateMachine κ μ}
    (h : s ∈ m.mSubscribers) : s ∈ (m.addSubscriber subscriber).mSubscribers := by
  obtain ⟨same, -⟩ | ⟨added, -⟩ := addSubscriber_mSubscribers subscriber m
  · exact same ▸ h
  · exact added ▸ List.mem_cons_of_mem _ h

theorem addSubscriber_ne_nil (subscriber : Subscriber κ) (m : AgpsStateMachine κ μ) :
    (m.addSubscriber subscriber).mSubscribers ≠ [] := by
  obtain ⟨same, s, hs, -⟩ | ⟨added, -⟩ := addSubscriber_mSubscribers subscriber m
  · exact same ▸ List.ne_nil_of_mem hs
  · simp [added]

theorem addSubscriber_all_active (subscriber : Subscriber κ) {m : AgpsStateMachine κ μ}
    (active : ∀ s ∈ m.mSubscribers, s.mIsInactive = false) :
    ∀ s ∈ (m.addSubscriber subscriber).mSubscribers, s.mIsInactive = false := by
  obtain ⟨same, -⟩ | ⟨added, -⟩ := addSubscriber_mSubscribers subscriber m
  · exact same ▸ active
  · intro s hs
    rw [added, List.mem_cons] at hs
    cases hs with
    | inl h => exact h ▸ rfl
    | inr h => exact active s h

theorem addSubscriber_listInvariant {subscriber : Subscriber κ} {m : AgpsStateMachine κ μ}
    (inv : ListInvariant m) : ListInvariant (m.addSubscriber subscriber) where
  released_active h := addSubscriber_all_active subscriber (inv.released_active (by simpa using h))
  held_active h := by
    obtain ⟨s, hs, active⟩ := inv.held_active (by simpa using h)
    exact ⟨s, mem_addSubscriber hs, active⟩
  releasing_nonempty _ := addSubscriber_ne_nil subscriber m

variable [AgpsVirtual κ μ]

/-- Releasing after an unsubscribe leaves the state only when nobody active is left. -/
theorem releaseIfUnused_cases (m : AgpsStateMachine κ μ) :
    (m.mSubscribers = [] ∧ m.releaseIfUnused =
      (({ m with mStatePtr := .released } : AgpsStateMachine κ μ).sendRsrcRequest
        .releaseAgpsDataConn).2) ∨
    (m.mSubscribers ≠ [] ∧ m.hasActiveSubscribers = false ∧ m.releaseIfUnused =
      (({ m with mStatePtr := .releasing } : AgpsStateMachine κ μ).sendRsrcRequest
        .releaseAgpsDataConn).2) ∨
    (m.hasActiveSubscribers = true ∧ m.releaseIfUnused = m) := by
  cases subscribers : m.hasSubscribers with
  | false =>
      exact .inl ⟨hasSubscribers_eq_false.mp subscribers, by simp [releaseIfUnused, subscribers]⟩
  | true =>
      have nonempty : m.mSubscribers ≠ [] := by simpa [hasSubscribers] using subscribers
      cases active : m.hasActiveSubscribers with
      | false =>
          exact .inr (.inl ⟨nonempty, rfl, by simp [releaseIfUnused, subscribers, active]⟩)
      | true => exact .inr (.inr ⟨rfl, by simp [releaseIfUnused, subscribers, active]⟩)

theorem releaseIfUnused_listInvariant {m : AgpsStateMachine κ μ} (left : m.mStatePtr ≠ .released) :
    ListInvariant m.releaseIfUnused := by
  obtain ⟨empty, h⟩ | ⟨nonempty, -, h⟩ | ⟨active, h⟩ := releaseIfUnused_cases m
  · rw [h]
    exact listInvariant_of_released rfl (by simp [empty])
  · rw [h]
    exact listInvariant_of_releasing rfl nonempty
  · rw [h]
    exact listInvariant_of_active (hasActiveSubscribers_iff.mp active) left

theorem notifySubscribers_all (status : AgpsRsrcStatus) (live : status.notified = true)
    (m : AgpsStateMachine κ μ) :
    m.notifySubscribers (.broadcast .broadcastAll status true) =
      { m with
        mSubscribers := []
        world := (Notification.broadcast .broadcastAll status true).deliver
          m.mSubscribers m.world } := by
  rw [notifySubscribers_delete (.broadcast .broadcastAll status true) live rfl]
  simp [Subscriber.forMe, Notification.broadcast]

theorem notifySubscribers_inactive (status : AgpsRsrcStatus) (live : status.notified = true)
    (m : AgpsStateMachine κ μ) :
    m.notifySubscribers (.broadcast .broadcastInactive status true) =
      { m with
        mSubscribers := m.mSubscribers.filter (!·.mIsInactive)
        world := (Notification.broadcast .broadcastInactive status true).deliver
          m.mSubscribers m.world } := by
  rw [notifySubscribers_delete (.broadcast .broadcastInactive status true) live rfl]
  simp [Subscriber.forMe, Notification.broadcast, Subscriber.isInactive]

theorem notifySubscribers_granted (m : AgpsStateMachine κ μ) :
    m.notifySubscribers (.broadcast .broadcastActive .granted false) =
      { m with
        world := (Notification.broadcast .broadcastActive .granted false).deliver
          m.mSubscribers m.world } :=
  notifySubscribers_keep (.broadcast .broadcastActive .granted false) rfl rfl m

theorem released_listInvariant {m : AgpsStateMachine κ μ} (h : m.mStatePtr = .released)
    (inv : ListInvariant m) (event : RsrcEvent κ) :
    ListInvariant (releasedOnRsrcEvent event m) := by
  cases event with
  | subscribe subscriber =>
      have active := addSubscriber_all_active subscriber (inv.released_active h)
      simp only [releasedOnRsrcEvent]
      split
      · obtain ⟨s, hs⟩ := List.exists_mem_of_ne_nil _ (addSubscriber_ne_nil subscriber m)
        exact listInvariant_of_active ⟨s, hs, active s hs⟩ (by simp)
      · exact listInvariant_of_released (by simp [h]) active
  | unsubscribe i =>
      simp only [releasedOnRsrcEvent]
      split
      · exact inv
      · exact listInvariant_of_released h (inv.released_active h)
  | granted | released | denied => exact inv

theorem pending_listInvariant {m : AgpsStateMachine κ μ} (h : m.mStatePtr = .pending)
    (inv : ListInvariant m) (event : RsrcEvent κ) :
    ListInvariant (pendingOnRsrcEvent event m) := by
  cases event with
  | subscribe subscriber => exact addSubscriber_listInvariant inv
  | unsubscribe i =>
      exact releaseIfUnused_listInvariant (by simp [(dropSubscriber_fields i m).1, h])
  | granted =>
      simp only [pendingOnRsrcEvent, notifySubscribers_granted]
      exact listInvariant_of_active (inv.held_active (.inl h)) (by simp)
  | released => exact inv
  | denied =>
      simp only [pendingOnRsrcEvent, notifySubscribers_all .denied rfl]
      exact listInvariant_of_released rfl (by simp)

theorem acquired_listInvariant {m : AgpsStateMachine κ μ} (h : m.mStatePtr = .acquired)
    (inv : ListInvariant m) (event : RsrcEvent κ) :
    ListInvariant (acquiredOnRsrcEvent event m) := by
  cases event with
  | subscribe subscriber =>
      exact addSubscriber_listInvariant
        (listInvariant_of_active (inv.held_active (.inr h)) (by simp [h]))
  | unsubscribe i =>
      exact releaseIfUnused_listInvariant (by simp [(dropSubscriber_fields i m).1, h])
  | released =>
      simp only [acquiredOnRsrcEvent, notifySubscribers_all .released rfl]
      exact listInvariant_of_released rfl (by simp)
  | granted | denied => exact inv

/-- RELEASED and DENIED in Releasing: the inactive subscribers go, and the active
ones, where there are any, make the machine ask again. -/
theorem releasingOnRsrcEvent_close {event : RsrcEvent κ}
    (close : event = .released ∨ event = .denied) (m : AgpsStateMachine κ μ) :
    ((∃ s ∈ m.mSubscribers, s.mIsInactive = false) ∧ releasingOnRsrcEvent event m =
      (({ m with
        mStatePtr := .pending
        mSubscribers := m.mSubscribers.filter (!·.mIsInactive)
        world := (Notification.broadcast .broadcastInactive event.status true).deliver
          m.mSubscribers m.world } : AgpsStateMachine κ μ).sendRsrcRequest
            .requestAgpsDataConn).2) ∨
    ((∀ s ∈ m.mSubscribers, s.mIsInactive = true) ∧ releasingOnRsrcEvent event m =
      { m with
        mStatePtr := .released
        mSubscribers := []
        world := (Notification.broadcast .broadcastInactive event.status true).deliver
          m.mSubscribers m.world }) := by
  have live : event.status.notified = true := by obtain rfl | rfl := close <;> rfl
  have shape : releasingOnRsrcEvent event m =
      let m' := m.notifySubscribers (.broadcast .broadcastInactive event.status true)
      if m'.hasActiveSubscribers then
        (({ m' with mStatePtr := .pending } : AgpsStateMachine κ μ).sendRsrcRequest
          .requestAgpsDataConn).2
      else { m' with mStatePtr := .released } := by obtain rfl | rfl := close <;> rfl
  rw [shape, notifySubscribers_inactive event.status live]
  by_cases active : ∃ s ∈ m.mSubscribers, s.mIsInactive = false
  · refine .inl ⟨active, ?_⟩
    simp [hasActiveSubscribers, activeSubscriber_eq, active]
  · have inactive : ∀ s ∈ m.mSubscribers, s.mIsInactive = true := by simpa using active
    refine .inr ⟨inactive, ?_⟩
    have none_left : m.mSubscribers.filter (!·.mIsInactive) = [] :=
      List.filter_eq_nil_iff.mpr fun s hs => by simp [inactive s hs]
    simp [hasActiveSubscribers, activeSubscriber_eq, none_left]

theorem releasing_close_listInvariant {m : AgpsStateMachine κ μ} {event : RsrcEvent κ}
    (close : event = .released ∨ event = .denied) :
    ListInvariant (releasingOnRsrcEvent event m) := by
  obtain ⟨⟨s, hs, active⟩, h⟩ | ⟨-, h⟩ := releasingOnRsrcEvent_close close m
  · rw [h]
    exact listInvariant_of_active ⟨s, by simpa using ⟨hs, active⟩, active⟩ (by simp)
  · rw [h]
    exact listInvariant_of_released rfl (by simp)

theorem releasing_listInvariant {m : AgpsStateMachine κ μ} (h : m.mStatePtr = .releasing)
    (inv : ListInvariant m) (event : RsrcEvent κ) :
    ListInvariant (releasingOnRsrcEvent event m) := by
  cases event with
  | subscribe subscriber => exact addSubscriber_listInvariant inv
  | unsubscribe i =>
      simp only [releasingOnRsrcEvent]
      cases left : (m.dropSubscriber i).hasSubscribers with
      | false =>
          have empty := hasSubscribers_eq_false.mp left
          exact listInvariant_of_released (by simp) (by simp [empty])
      | true =>
          have nonempty : (m.dropSubscriber i).mSubscribers ≠ [] := by
            simpa [hasSubscribers] using left
          exact listInvariant_of_releasing (by simp [(dropSubscriber_fields i m).1, h])
            (by simpa using nonempty)
  | granted => exact inv
  | released => exact releasing_close_listInvariant (.inl rfl)
  | denied => exact releasing_close_listInvariant (.inr rfl)

theorem dispatch_listInvariant {m : AgpsStateMachine κ μ} (inv : ListInvariant m)
    (event : RsrcEvent κ) : ListInvariant (m.dispatch event) := by
  have traced : ListInvariant
      { m with world := AgpsVirtual.trace (κ := κ) m.mStatePtr event.status m.world } :=
    ⟨inv.released_active, inv.held_active, inv.releasing_nonempty⟩
  obtain ⟨state, list, single, w⟩ := m
  cases state with
  | released => exact released_listInvariant rfl traced event
  | pending => exact pending_listInvariant rfl traced event
  | acquired => exact acquired_listInvariant rfl traced event
  | releasing => exact releasing_listInvariant rfl traced event

theorem releaseIfUnused_back {m : AgpsStateMachine κ μ} (left : m.mStatePtr ≠ .released)
    (back : m.releaseIfUnused.mStatePtr = .released) : m.releaseIfUnused.mSubscribers = [] := by
  obtain ⟨empty, h⟩ | ⟨-, -, h⟩ | ⟨-, h⟩ := releaseIfUnused_cases m
  · simp [h, empty]
  · simp [h] at back
  · exact absurd (h ▸ back) left

theorem releasing_unsubscribe_back {m : AgpsStateMachine κ μ} {i : Nat}
    (h : m.mStatePtr = .releasing)
    (back : (releasingOnRsrcEvent (.unsubscribe i) m).mStatePtr = .released) :
    (releasingOnRsrcEvent (.unsubscribe i) m).mSubscribers = [] := by
  simp only [releasingOnRsrcEvent] at back ⊢
  cases left : (m.dropSubscriber i).hasSubscribers with
  | false => simpa using hasSubscribers_eq_false.mp left
  | true => simp [left, (dropSubscriber_fields i m).1, h] at back

theorem releasing_close_back {m : AgpsStateMachine κ μ} {event : RsrcEvent κ}
    (close : event = .released ∨ event = .denied)
    (back : (releasingOnRsrcEvent event m).mStatePtr = .released) :
    (releasingOnRsrcEvent event m).mSubscribers = [] := by
  obtain ⟨-, h⟩ | ⟨-, h⟩ := releasingOnRsrcEvent_close close m
  · simp [h] at back
  · simp [h]

/-- Whatever brings the machine back to Released leaves nobody on the list. -/
theorem dispatch_back_to_released {m : AgpsStateMachine κ μ} {event : RsrcEvent κ}
    (left : m.mStatePtr ≠ .released) (back : (m.dispatch event).mStatePtr = .released) :
    (m.dispatch event).mSubscribers = [] := by
  obtain ⟨state, list, single, w⟩ := m
  cases state with
  | released => exact absurd rfl left
  | pending =>
      cases event with
      | unsubscribe i => exact releaseIfUnused_back (by simp [(dropSubscriber_fields i _).1]) back
      | denied => simp [dispatch, pendingOnRsrcEvent, notifySubscribers_all .denied rfl]
      | _ => simp [dispatch, pendingOnRsrcEvent, notifySubscribers_granted] at back
  | acquired =>
      cases event with
      | unsubscribe i => exact releaseIfUnused_back (by simp [(dropSubscriber_fields i _).1]) back
      | released =>
          simp [dispatch, acquiredOnRsrcEvent, notifySubscribers_all .released rfl]
      | _ => simp [dispatch, acquiredOnRsrcEvent] at back
  | releasing =>
      cases event with
      | subscribe s => simp [dispatch, releasingOnRsrcEvent] at back
      | unsubscribe i => exact releasing_unsubscribe_back rfl back
      | granted => simp [dispatch, releasingOnRsrcEvent] at back
      | released => exact releasing_close_back (.inl rfl) back
      | denied => exact releasing_close_back (.inr rfl) back

theorem dispatch_subscribe_mSubscribers (subscriber : Subscriber κ) (m : AgpsStateMachine κ μ) :
    (m.dispatch (.subscribe subscriber)).mSubscribers =
      (m.addSubscriber subscriber).mSubscribers := by
  obtain ⟨state, list, single, w⟩ := m
  cases state with
  | released =>
      simp only [dispatch, releasedOnRsrcEvent]
      split <;> simp [addSubscriber_eq]
  | pending | acquired | releasing =>
      simp [dispatch, pendingOnRsrcEvent, acquiredOnRsrcEvent, releasingOnRsrcEvent,
        addSubscriber_eq]

theorem releaseIfUnused_mSubscribers (m : AgpsStateMachine κ μ) :
    m.releaseIfUnused.mSubscribers = m.mSubscribers := by
  obtain ⟨-, h⟩ | ⟨-, -, h⟩ | ⟨-, h⟩ := releaseIfUnused_cases m <;> simp [h]

theorem releasing_close_clients {event : RsrcEvent κ}
    (close : event = .released ∨ event = .denied) (m : AgpsStateMachine κ μ) :
    (releasingOnRsrcEvent event m).clients.Sublist m.clients := by
  obtain ⟨-, h⟩ | ⟨-, h⟩ := releasingOnRsrcEvent_close close m
  · rw [h]
    exact List.filter_sublist.map _
  · simp [h, clients]

/-- Only a subscription adds a client. -/
theorem dispatch_clients {event : RsrcEvent κ} (other : ∀ s, event ≠ .subscribe s)
    (m : AgpsStateMachine κ μ) : (m.dispatch event).clients.Sublist m.clients := by
  obtain ⟨state, list, single, w⟩ := m
  cases event with
  | subscribe s => exact absurd rfl (other s)
  | unsubscribe i =>
      have drop := (dropSubscriber_fields i
        (⟨state, list, single, AgpsVirtual.trace (κ := κ) state .unsubscribe w⟩ :
          AgpsStateMachine κ μ)).2.2
      cases state with
      | released =>
          simp only [dispatch, releasedOnRsrcEvent]
          split <;> exact List.Sublist.refl _
      | pending =>
          simp only [dispatch, pendingOnRsrcEvent, clients, releaseIfUnused_mSubscribers]
          exact drop
      | acquired =>
          simp only [dispatch, acquiredOnRsrcEvent, clients, releaseIfUnused_mSubscribers]
          exact drop
      | releasing =>
          simp only [dispatch, releasingOnRsrcEvent]
          split <;> exact drop
  | granted =>
      cases state <;> simp [dispatch, releasedOnRsrcEvent, pendingOnRsrcEvent,
        acquiredOnRsrcEvent, releasingOnRsrcEvent, notifySubscribers_granted, clients]
  | released =>
      cases state with
      | releasing => exact releasing_close_clients (.inl rfl) _
      | _ => simp [dispatch, releasedOnRsrcEvent, pendingOnRsrcEvent, acquiredOnRsrcEvent,
          notifySubscribers_all .released rfl, clients]
  | denied =>
      cases state with
      | releasing => exact releasing_close_clients (.inr rfl) _
      | _ => simp [dispatch, releasedOnRsrcEvent, pendingOnRsrcEvent, acquiredOnRsrcEvent,
          notifySubscribers_all .denied rfl, clients]

@[simp] theorem notifySubscribers_single (n : Notification κ) (m : AgpsStateMachine κ μ) :
    (m.notifySubscribers n).mEnforceSingleSubscriber = m.mEnforceSingleSubscriber := by
  unfold notifySubscribers
  split <;> rfl

theorem releaseIfUnused_single (m : AgpsStateMachine κ μ) :
    m.releaseIfUnused.mEnforceSingleSubscriber = m.mEnforceSingleSubscriber := by
  obtain ⟨-, h⟩ | ⟨-, -, h⟩ | ⟨-, h⟩ := releaseIfUnused_cases m <;> simp [h]

theorem dispatch_single (event : RsrcEvent κ) (m : AgpsStateMachine κ μ) :
    (m.dispatch event).mEnforceSingleSubscriber = m.mEnforceSingleSubscriber := by
  obtain ⟨state, list, single, w⟩ := m
  cases event with
  | subscribe s =>
      cases state <;> simp only [dispatch, releasedOnRsrcEvent, pendingOnRsrcEvent,
        acquiredOnRsrcEvent, releasingOnRsrcEvent, addSubscriber_single]
      split <;> simp
  | unsubscribe i =>
      cases state <;> simp only [dispatch, releasedOnRsrcEvent, pendingOnRsrcEvent,
        acquiredOnRsrcEvent, releasingOnRsrcEvent, releaseIfUnused_single,
        (dropSubscriber_fields i _).2.1]
      all_goals split <;> simp [(dropSubscriber_fields i _).2.1]
  | granted | released | denied =>
      cases state <;> simp only [dispatch, releasedOnRsrcEvent, pendingOnRsrcEvent,
        acquiredOnRsrcEvent, releasingOnRsrcEvent, notifySubscribers_single]
      all_goals split <;> simp

theorem subscribeRsrc_listInvariant {m : AgpsStateMachine κ μ} (inv : ListInvariant m)
    (subscriber : Subscriber κ) : ListInvariant (m.subscribeRsrc subscriber) := by
  unfold subscribeRsrc
  split
  · exact listInvariant_of_same inv rfl rfl
  · exact dispatch_listInvariant inv _

theorem unsubscribeRsrc_cases (subscriber : Subscriber κ) (m : AgpsStateMachine κ μ) :
    (m.unsubscribeRsrc subscriber = (false, m) ∧
      ∀ s ∈ m.mSubscribers, s.equals subscriber = false) ∨
    (∃ i s, m.mSubscribers[i]? = some s ∧ s.equals subscriber = true ∧
      m.unsubscribeRsrc subscriber = (true, m.dispatch (.unsubscribe i))) := by
  unfold unsubscribeRsrc
  cases found : m.mSubscribers.findIdx? fun s => s.forMe (.to subscriber .statusMax false) with
  | none =>
      refine .inl ⟨rfl, ?_⟩
      simpa [List.findIdx?_eq_none_iff, Subscriber.forMe, Notification.to] using found
  | some i =>
      obtain ⟨hi, equal, -⟩ := List.findIdx?_eq_some_iff_getElem.mp found
      exact .inr ⟨i, _, List.getElem?_eq_getElem hi, by
        simpa [Subscriber.forMe, Notification.to] using equal, rfl⟩

end AgpsStateMachine
end Msm8974.Agps
