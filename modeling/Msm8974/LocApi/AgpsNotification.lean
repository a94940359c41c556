import Msm8974.LocApi.AgpsMachine

/-!
What the list operations of the machine do to the subscriber list and to the
world, for any subscriber class and any virtual methods. The notification loop
restarts from the head after each removal; its result is one pass over the list.
-/

namespace Msm8974.Agps
variable {κ μ : Type}

theorem Subscriber.setInactive_client [SubscriberKind κ] (s : Subscriber κ) :
    s.setInactive.client = s.client := by
  unfold Subscriber.setInactive
  split <;> rfl

namespace AgpsStateMachine

def clients (m : AgpsStateMachine κ μ) : List κ := m.mSubscribers.map (·.client)

theorem hasSubscribers_eq_false {m : AgpsStateMachine κ μ} :
    m.hasSubscribers = false ↔ m.mSubscribers = [] := by
  simp [hasSubscribers]

variable [SubscriberKind κ]

theorem activeSubscriber_eq (m : AgpsStateMachine κ μ) :
    m.activeSubscriber = m.mSubscribers.find? (!·.mIsInactive) := rfl

theorem hasActiveSubscribers_iff {m : AgpsStateMachine κ μ} :
    m.hasActiveSubscribers = true ↔ ∃ s ∈ m.mSubscribers, s.mIsInactive = false := by
  simp [hasActiveSubscribers, activeSubscriber_eq]

theorem addSubscriber_eq (subscriber : Subscriber κ) (m : AgpsStateMachine κ μ) :
    m.addSubscriber subscriber =
      { m with mSubscribers :=
          if m.mSubscribers.any (·.equals subscriber) then m.mSubscribers
          else subscriber.clone :: m.mSubscribers } := by
  unfold addSubscriber
  cases h : m.mSubscribers.find? (fun s => s.forMe (.to subscriber .statusMax false)) with
  | none =>
      have new : m.mSubscribers.any (·.equals subscriber) = false := by
        simpa [Subscriber.forMe, Notification.to] using h
      simp [new, linkedListAdd]
  | some s =>
      have known : m.mSubscribers.any (·.equals subscriber) = true :=
        List.any_eq_true.mpr ⟨s, List.mem_of_find?_eq_some h, by
          simpa [Subscriber.forMe, Notification.to] using List.find?_some h⟩
      simp [known]

@[simp] theorem addSubscriber_mStatePtr (s : Subscriber κ) (m : AgpsStateMachine κ μ) :
    (m.addSubscriber s).mStatePtr = m.mStatePtr := by rw [addSubscriber_eq]

@[simp] theorem addSubscriber_single (s : Subscriber κ) (m : AgpsStateMachine κ μ) :
    (m.addSubscriber s).mEnforceSingleSubscriber = m.mEnforceSingleSubscriber := by
  rw [addSubscriber_eq]

@[simp] theorem addSubscriber_world (s : Subscriber κ) (m : AgpsStateMachine κ μ) :
    (m.addSubscriber s).world = m.world := by rw [addSubscriber_eq]

end AgpsStateMachine

variable [SubscriberKind κ] [AgpsVirtual κ μ]

theorem notifySubscriber_of_not_forMe {n : Notification κ} {s : Subscriber κ}
    (h : s.forMe n = false) (w : μ) : notifySubscriber n s w = (false, w) := by
  simp [notifySubscriber, Subscriber.notifyRsrcStatus, h]

theorem notifySubscriber_of_forMe {n : Notification κ} {s : Subscriber κ}
    (live : n.rsrcStatus.notified = true) (h : s.forMe n = true) (w : μ) :
    notifySubscriber n s w =
      (n.postNotifyDelete, AgpsVirtual.notifyRsrcStatus s.client n.rsrcStatus w) := by
  simp [notifySubscriber, Subscriber.notifyRsrcStatus, h, live]

/-- The world after every subscriber on the list that `n` is for was notified, in list order. -/
def Notification.deliver (n : Notification κ) (list : List (Subscriber κ)) (w : μ) : μ :=
  (list.filter (·.forMe n)).foldl
    (fun w s => AgpsVirtual.notifyRsrcStatus s.client n.rsrcStatus w) w

namespace AgpsStateMachine

theorem notifyLoop_eq {n : Notification κ} (live : n.rsrcStatus.notified = true)
    (delete : n.postNotifyDelete = true) (rounds : Nat) (list : List (Subscriber κ)) (w : μ)
    (enough : list.length < rounds) :
    notifyLoop n rounds list w = (list.filter (!·.forMe n), n.deliver list w) := by
  induction rounds generalizing list w with
  | zero => omega
  | succ rounds ih =>
      cases hfind : list.find? (·.forMe n) with
      | none =>
          have nobody : ∀ s ∈ list, s.forMe n = false := by simpa using hfind
          have search := linkedListSearch_rejecting (notifySubscriber n)
            (fun _ w => w) true list w
            (fun s hs w => notifySubscriber_of_not_forMe (nobody s hs) w)
          have all : list.filter (!·.forMe n) = list :=
            List.filter_eq_self.mpr fun s hs => by simp [nobody s hs]
          have none_left : list.filter (·.forMe n) = [] :=
            List.filter_eq_nil_iff.mpr fun s hs => by simp [nobody s hs]
          simp [notifyLoop, search, all, Notification.deliver, none_left]
      | some s =>
          obtain ⟨hs, pre, post, rfl, hpre⟩ := List.find?_eq_some_iff_append.mp hfind
          have skipped : ∀ t ∈ pre, t.forMe n = false := by simpa using hpre
          have search := linkedListSearch_finds (notifySubscriber n) true pre s post w
            (fun t ht => notifySubscriber_of_not_forMe (skipped t ht) w)
            (by rw [notifySubscriber_of_forMe live hs w, delete])
          have shorter : (pre ++ post).length < rounds := by
            simp only [List.length_append, List.length_cons] at enough ⊢
            omega
          have passed : pre.filter (·.forMe n) = [] :=
            List.filter_eq_nil_iff.mpr fun t ht => by simp [skipped t ht]
          simp [notifyLoop, search, ih _ _ shorter, Notification.deliver, hs, passed]

theorem notifySubscribers_delete (n : Notification κ) (live : n.rsrcStatus.notified = true)
    (delete : n.postNotifyDelete = true) (m : AgpsStateMachine κ μ) :
    m.notifySubscribers n =
      { m with
        mSubscribers := m.mSubscribers.filter (!·.forMe n)
        world := n.deliver m.mSubscribers m.world } := by
  simp [notifySubscribers, delete, notifyLoop_eq live delete]

theorem notifySubscribers_keep (n : Notification κ) (live : n.rsrcStatus.notified = true)
    (keep : n.postNotifyDelete = false) (m : AgpsStateMachine κ μ) :
    m.notifySubscribers n = { m with world := n.deliver m.mSubscribers m.world } := by
  have search := linkedListSearch_rejecting (notifySubscriber n)
    (fun s w =>
      if s.forMe n then AgpsVirtual.notifyRsrcStatus s.client n.rsrcStatus w else w)
    false m.mSubscribers m.world (fun s _ w => by
      cases h : s.forMe n with
      | false => simp [notifySubscriber_of_not_forMe h]
      | true => simp [notifySubscriber_of_forMe live h, keep])
  simp [notifySubscribers, keep, search, Notification.deliver, List.foldl_filter]

@[simp] theorem sendRsrcRequest_mStatePtr (a : AGpsStatusValue) (m : AgpsStateMachine κ μ) :
    (m.sendRsrcRequest a).2.mStatePtr = m.mStatePtr := rfl

@[simp] theorem sendRsrcRequest_mSubscribers (a : AGpsStatusValue)
    (m : AgpsStateMachine κ μ) : (m.sendRsrcRequest a).2.mSubscribers = m.mSubscribers := rfl

@[simp] theorem sendRsrcRequest_single (a : AGpsStatusValue) (m : AgpsStateMachine κ μ) :
    (m.sendRsrcRequest a).2.mEnforceSingleSubscriber = m.mEnforceSingleSubscriber := rfl

theorem setInactiveAt_clients (i : Nat) (s : Subscriber κ) (m : AgpsStateMachine κ μ) :
    (m.setInactiveAt i s).clients = m.clients := by
  apply List.ext_getElem?
  intro j
  by_cases h : i = j
  · cases hj : m.mSubscribers[j]? with
    | none => simp [clients, setInactiveAt, h, hj]
    | some t => simp [clients, setInactiveAt, h, hj, Subscriber.setInactive_client]
  · simp [clients, setInactiveAt, h]

/-- What dropping a subscriber does to the list: one element marked, or all that the
unsubscribed one equals removed. -/
theorem dropSubscriber_cases (i : Nat) (m : AgpsStateMachine κ μ) :
    (m.mSubscribers[i]? = none ∧ m.dropSubscriber i = m) ∨
    (∃ s, m.mSubscribers[i]? = some s ∧
      SubscriberKind.waitForCloseComplete s.client = true ∧
      m.dropSubscriber i = m.setInactiveAt i s) ∨
    (∃ s, m.mSubscribers[i]? = some s ∧
      SubscriberKind.waitForCloseComplete s.client = false ∧
      m.dropSubscriber i =
        { m with
          mSubscribers := m.mSubscribers.filter (!·.equals s)
          world := (Notification.to s .unsubscribe true).deliver m.mSubscribers m.world }) := by
  cases hs : m.mSubscribers[i]? with
  | none => exact .inl ⟨rfl, by simp [dropSubscriber, hs]⟩
  | some s =>
      cases hw : SubscriberKind.waitForCloseComplete s.client with
      | true => exact .inr (.inl ⟨s, rfl, hw, by simp [dropSubscriber, hs, hw]⟩)
      | false =>
          refine .inr (.inr ⟨s, rfl, hw, ?_⟩)
          have notified := notifySubscribers_delete (.to s .unsubscribe true) rfl rfl m
          simp only [dropSubscriber, hs, hw]
          exact notified

theorem dropSubscriber_fields (i : Nat) (m : AgpsStateMachine κ μ) :
    (m.dropSubscriber i).mStatePtr = m.mStatePtr ∧
      (m.dropSubscriber i).mEnforceSingleSubscriber = m.mEnforceSingleSubscriber ∧
      (m.dropSubscriber i).clients.Sublist m.clients := by
  obtain ⟨-, h⟩ | ⟨s, -, -, h⟩ | ⟨s, -, -, h⟩ := dropSubscriber_cases i m
  · simp [h]
  · rw [h]
    exact ⟨rfl, rfl, by rw [setInactiveAt_clients]⟩
  · rw [h]
    exact ⟨rfl, rfl, List.filter_sublist.map _⟩

end AgpsStateMachine
end Msm8974.Agps
