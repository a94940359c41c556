import Msm8974.LocApi.AgpsExactness

/-!
The machine over objects does what the machine over values does, as long as it uses no deleted
subscriber. What is left out of a value is only where it lies.
-/

namespace Msm8974.Agps
variable {κ μ : Type}

namespace Memory

variable [SubscriberKind κ] {n : NotificationPtr} {mem : Memory κ μ} {r : Nat} {list : List Nat}

/-- What a list is sorted out by forMe() for is the same over objects and values. -/
theorem filterMap_forMe (n : NotificationPtr) (mem : Memory κ μ) (p : Bool → Bool)
    (list : List Nat) : (list.filter fun s => p (mem.forMe n s)).filterMap mem.objects =
      (list.filterMap mem.objects).filter fun s1 => p (s1.forMe (n.resolve mem)) := by
  induction list with
  | nil => rfl
  | cons s list ih =>
      rw [List.filter_cons]
      cases found : mem.objects s with
      | none =>
          rw [List.filterMap_cons_none found, ← ih]
          split
          · rw [List.filterMap_cons_none found]
          · rfl
      | some s1 =>
          have mine : mem.forMe n s = s1.forMe (n.resolve mem) := by simp [forMe, found]
          rw [List.filterMap_cons_some found, List.filter_cons, mine]
          split
          · rw [List.filterMap_cons_some found, ih]
          · exact ih

theorem find_forMe (n : NotificationPtr) (mem : Memory κ μ) (list : List Nat) :
    (list.find? (mem.forMe n)).bind mem.objects =
      (list.filterMap mem.objects).find? (·.forMe (n.resolve mem)) := by
  induction list with
  | nil => rfl
  | cons s list ih =>
      cases found : mem.objects s with
      | none => simp [forMe, found, ih]
      | some s1 =>
          have mine : mem.forMe n s = s1.forMe (n.resolve mem) := by simp [forMe, found]
          cases verdict : s1.forMe (n.resolve mem) <;> simp [mine, verdict, found, ih]

theorem findIdx_forMe {list : List Nat} (found : list.find? (mem.forMe n) = some r) :
    ∃ i, (list.filterMap mem.objects).findIdx? (·.forMe (n.resolve mem)) = some i ∧
      (list.filterMap mem.objects)[i]? = mem.objects r := by
  induction list with
  | nil => cases found
  | cons s list ih =>
      rw [List.find?_cons] at found
      cases there : mem.objects s with
      | none =>
          rw [show mem.forMe n s = false by simp [forMe, there]] at found
          rw [List.filterMap_cons_none there]
          exact ih found
      | some s1 =>
          have mine : mem.forMe n s = s1.forMe (n.resolve mem) := by simp [forMe, there]
          rw [mine] at found
          rw [List.filterMap_cons_some there]
          cases verdict : s1.forMe (n.resolve mem) with
          | true =>
              rw [verdict] at found
              rw [← Option.some.inj found, there]
              exact ⟨0, by simp [List.findIdx?_cons, verdict], rfl⟩
          | false =>
              rw [verdict] at found
              apply (ih found).elim
              exact fun i first =>
                ⟨i + 1, by simp [List.findIdx?_cons, verdict, first.1], first.2⟩

variable [AgpsVirtual κ μ]

omit [SubscriberKind κ] in
theorem foldl_told_eq (n : NotificationPtr) (mem : Memory κ μ) (list : List Nat) (w : μ) :
    list.foldl (mem.told n) w = (list.filterMap mem.objects).foldl
      (fun w s => AgpsVirtual.notifyRsrcStatus s.client n.rsrcStatus w) w := by
  induction list generalizing w with
  | nil => rfl
  | cons s list ih =>
      cases found : mem.objects s with
      | none => simp [told, found, ih]
      | some s1 => simp [told, found, ih]

theorem foldl_told_deliver (n : NotificationPtr) (mem : Memory κ μ) (list : List Nat) (w : μ) :
    (list.filter (mem.forMe n)).foldl (mem.told n) w =
      (n.resolve mem).deliver (list.filterMap mem.objects) w := by
  rw [foldl_told_eq]
  exact congrArg (List.foldl _ w) (filterMap_forMe n mem id list)

/-- Where the receiver stands last and everyone equals it, the rounds take the list from its
head to its end. -/
theorem notifyLoop_goesLast (live : n.rsrcStatus.notified = true)
    (delete : n.postNotifyDelete = true) (rcver : n.rcver = some r) {rounds : Nat}
    (enough : list.length < rounds) (distinct : list.Nodup) (alive : mem.Alive list)
    (listed : r ∈ list) (own : mem.equals r r = true) (last : mem.GoesLast list r) :
    notifyLoop n rounds list mem = ([], list.foldl (dispose n) mem) := by
  induction rounds generalizing list mem with
  | zero => omega
  | succ rounds ih =>
      have there : (mem.objects r).isSome := alive r listed
      have receiver : ∀ r' ∈ n.rcver, (mem.objects r').isSome := fun r' h => by
        rw [rcver] at h
        exact Option.some.inj h ▸ there
      have all : ∀ t ∈ list, mem.forMe n t = true := fun t mem_t => by
        rw [forMe_eq_equals rcver there]
        by_cases eq : t = r
        · rw [eq, own]
        · exact last.2 t mem_t eq
      cases notifyLoop_cases live delete alive receiver rounds with
      | inl h => exact (Bool.false_ne_true ((h.1 r listed).symm.trans (all r listed))).elim
      | inr h =>
          apply h.elim
          intro before ⟨s, after, eq, passed, _, step⟩
          have first : before = [] := by
            rw [List.eq_nil_iff_forall_not_mem]
            intro t mem_t
            exact Bool.false_ne_true ((passed t mem_t).symm.trans (all t (by simp [eq, mem_t])))
          rw [first, List.nil_append] at eq step
          subst eq
          have ⟨distinct', alive', _⟩ := dispose_others (n := n) [] distinct alive
          have fresh := (List.nodup_cons.mp distinct).1
          rw [step, List.foldl_cons]
          cases after with
          | nil =>
              cases rounds with
              | zero => rfl
              | succ rounds => rfl
          | cons t after =>
              have last' : (t :: after).getLast? = some r := by
                rw [← last.1, List.getLast?_cons_cons]
              have listed' : r ∈ t :: after := List.mem_of_getLast? last'
              have apart : s ≠ r := fun eq => fresh (eq ▸ listed')
              have accepted := last.2 s List.mem_cons_self apart
              have kept := dispose_keeps (n := n) [] distinct alive apart
                (fun t mem_t => by cases mem_t) accepted
              apply ih (by simp at enough ⊢; omega) distinct' alive' listed'
              · rw [kept.1, own]
              · exact (kept.2 own).mpr last

end Memory

namespace ObjectMachine
open Memory

variable [SubscriberKind κ] [AgpsVirtual κ μ] {m : ObjectMachine κ μ} {n : NotificationPtr}

/-- A notification whose receiver, if it is on the list, is not for itself. -/
theorem notifySubscribers_toMachine (sound : m.Sound) (live : n.rsrcStatus.notified = true)
    (receiver : ∀ r ∈ n.rcver, (m.memory.objects r).isSome ∧
      (r ∈ m.mSubscribers → m.memory.forMe n r = false)) :
    (m.notifySubscribers n).toMachine =
      m.toMachine.notifySubscribers (n.resolve m.memory) := by
  have told : (m.mSubscribers.filter (m.memory.forMe n)).Nodup := sound.distinct.filter _
  have alive : m.memory.Alive (m.mSubscribers.filter (m.memory.forMe n)) := fun s hs =>
    sound.alive s (List.mem_of_mem_filter hs)
  cases delete : n.postNotifyDelete with
  | true =>
      rw [AgpsStateMachine.notifySubscribers_delete (n.resolve m.memory) live delete,
        notifySubscribers, if_pos delete,
        notifyLoop_pass live delete (Nat.lt_succ_self _) sound.distinct sound.alive receiver,
        foldl_dispose told alive]
      simp only [toMachine, foldl_told_deliver, ← filterMap_forMe n m.memory not]
      congr 1
      apply List.filterMap_congr
      intro s mem_s
      simp at mem_s
      simp [mem_s.2]
  | false =>
      rw [AgpsStateMachine.notifySubscribers_keep (n.resolve m.memory) live delete,
        notifySubscribers, if_neg (by simp [delete]),
        search_pass live delete sound.alive fun r h => (receiver r h).1, foldl_notify alive]
      simp only [toMachine, foldl_told_deliver]

/-- The subscriber that leaves, if nobody is left once it is deleted. -/
theorem notifySubscribers_own_toMachine (sound : m.Sound) (live : n.rsrcStatus.notified = true)
    (delete : n.postNotifyDelete = true) {r : Nat} (rcver : n.rcver = some r)
    (listed : r ∈ m.mSubscribers)
    (last : m.memory.equals r r = true → m.memory.GoesLast m.mSubscribers r) :
    (m.notifySubscribers n).toMachine =
      m.toMachine.notifySubscribers (n.resolve m.memory) := by
  have there := sound.alive r listed
  cases own : m.memory.equals r r with
  | false =>
      apply notifySubscribers_toMachine sound live
      intro r' h
      rw [rcver] at h
      rw [← Option.some.inj h]
      exact ⟨there, fun _ => (forMe_eq_equals rcver there).trans own⟩
  | true =>
      have all : m.mSubscribers.filter (m.memory.forMe n) = m.mSubscribers := by
        rw [List.filter_eq_self]
        intro t mem_t
        rw [forMe_eq_equals rcver there]
        by_cases eq : t = r
        · rw [eq, own]
        · exact (last own).2 t mem_t eq
      have none_left : m.mSubscribers.filter (!m.memory.forMe n ·) = [] := by
        rw [List.filter_eq_nil_iff]
        intro t mem_t
        rw [← all] at mem_t
        simp [(List.mem_filter.mp mem_t).2]
      have told := foldl_told_deliver n m.memory m.mSubscribers m.memory.world
      have left := filterMap_forMe n m.memory not m.mSubscribers
      rw [all] at told
      rw [none_left] at left
      rw [AgpsStateMachine.notifySubscribers_delete (n.resolve m.memory) live delete,
        notifySubscribers, if_pos delete,
        notifyLoop_goesLast live delete rcver (Nat.lt_succ_self _) sound.distinct sound.alive listed
          own (last own), foldl_dispose sound.distinct sound.alive]
      simp only [toMachine, told, ← left]
      rfl

theorem sendRsrcRequest_toMachine (action : AGpsStatusValue)
    (alive : m.memory.Alive m.mSubscribers) :
    (m.sendRsrcRequest action).toMachine = (m.toMachine.sendRsrcRequest action).2 := by
  have found := find_forMe (.broadcast .broadcastActive .statusMax false) m.memory m.mSubscribers
  rw [sendRsrcRequest, findSubscriber_eq alive fun r h => by cases h]
  simp only [found]
  rfl

omit [SubscriberKind κ] [AgpsVirtual κ μ] in
theorem hasSubscribers_toMachine (alive : m.memory.Alive m.mSubscribers) :
    m.toMachine.hasSubscribers = m.hasSubscribers := by
  unfold hasSubscribers AgpsStateMachine.hasSubscribers toMachine
  cases list : m.mSubscribers with
  | nil => rfl
  | cons s list' =>
      apply (Option.isSome_iff_exists.mp (alive s (by simp [list]))).elim
      intro s1 there
      simp [there]

omit [AgpsVirtual κ μ] in
theorem hasActiveSubscribers_toMachine (alive : m.memory.Alive m.mSubscribers) :
    m.hasActiveSubscribers = (m.toMachine.hasActiveSubscribers, m) := by
  have found := find_forMe (.broadcast .broadcastActive .statusMax false) m.memory m.mSubscribers
  have active : m.toMachine.activeSubscriber =
      (m.mSubscribers.find? (m.memory.forMe (.broadcast .broadcastActive .statusMax false))).bind
        m.memory.objects := found.symm
  rw [hasActiveSubscribers, findSubscriber_eq alive fun r h => by cases h]
  simp only [AgpsStateMachine.hasActiveSubscribers, active]
  cases first : m.mSubscribers.find?
      (m.memory.forMe (.broadcast .broadcastActive .statusMax false)) with
  | none => rfl
  | some s =>
      have there := alive s (List.mem_of_find?_eq_some first)
      simp [there]

theorem releaseIfUnused_toMachine (alive : m.memory.Alive m.mSubscribers) :
    m.releaseIfUnused.toMachine = m.toMachine.releaseIfUnused := by
  simp only [releaseIfUnused, AgpsStateMachine.releaseIfUnused, hasSubscribers_toMachine alive,
    hasActiveSubscribers_toMachine alive]
  split
  · exact sendRsrcRequest_toMachine (m := { m with mStatePtr := .released })
      .releaseAgpsDataConn alive
  · split
    · exact sendRsrcRequest_toMachine (m := { m with mStatePtr := .releasing })
        .releaseAgpsDataConn alive
    · rfl

omit [SubscriberKind κ] [AgpsVirtual κ μ] in
theorem closeIfUnused_toMachine (alive : m.memory.Alive m.mSubscribers) :
    (if !m.hasSubscribers then { m with mStatePtr := .released } else m).toMachine =
      if !m.toMachine.hasSubscribers then { m.toMachine with mStatePtr := .released }
      else m.toMachine := by
  rw [hasSubscribers_toMachine alive]
  split
  · rfl
  · rfl

theorem dropSubscriber_toMachine (sound : m.Sound) {r i : Nat} (listed : r ∈ m.mSubscribers)
    {subscriber : Subscriber κ} (object : m.memory.objects r = some subscriber)
    (index : m.toMachine.mSubscribers[i]? = some subscriber)
    (leaves : SubscriberKind.waitForCloseComplete subscriber.client = false)
    (last : m.memory.equals r r = true → m.memory.GoesLast m.mSubscribers r) :
    (m.dropSubscriber r).toMachine = m.toMachine.dropSubscriber i := by
  have same := notifySubscribers_own_toMachine (n := .to r .unsubscribe true) sound rfl rfl rfl
    listed last
  have resolved : (NotificationPtr.to r .unsubscribe true).resolve m.memory =
      .to subscriber .unsubscribe true := by
    simp [NotificationPtr.resolve, NotificationPtr.to, object, Notification.to]
  rw [resolved] at same
  simp only [dropSubscriber, object, AgpsStateMachine.dropSubscriber, index, leaves]
  exact same

omit [AgpsVirtual κ μ] in
/-- The subscriber that a request finds has an index in the list of values. -/
theorem findIdx_request {request r : Nat} {asked subscriber : Subscriber κ}
    (caller : m.memory.objects request = some asked)
    (found : m.mSubscribers.find? (m.memory.equals · request) = some r)
    (object : m.memory.objects r = some subscriber) :
    ∃ i, m.toMachine.mSubscribers.findIdx? (·.forMe (.to asked .statusMax false)) = some i ∧
      m.toMachine.mSubscribers[i]? = some subscriber := by
  have present : (m.memory.objects request).isSome := by simp [caller]
  have same : m.memory.forMe (.to request .statusMax false) = (m.memory.equals · request) :=
    funext fun s => forMe_eq_equals rfl present
  have resolved : (NotificationPtr.to request .statusMax false).resolve m.memory =
      .to asked .statusMax false := by
    simp [NotificationPtr.resolve, NotificationPtr.to, caller, Notification.to]
  rw [← same] at found
  have index := findIdx_forMe found
  rw [resolved, object] at index
  exact index

/-- An unsubscription that uses no deleted subscriber is one of the machine over values. -/
theorem unsubscribeRsrc_refines_values (sound : m.Sound) {request r : Nat}
    {asked subscriber : Subscriber κ} (state : m.mStatePtr ≠ .released)
    (caller : m.memory.objects request = some asked)
    (found : m.mSubscribers.find? (m.memory.equals · request) = some r)
    (object : m.memory.objects r = some subscriber)
    (leaves : SubscriberKind.waitForCloseComplete subscriber.client = false)
    (last : m.memory.equals r r = true → m.memory.GoesLast m.mSubscribers r) :
    (m.unsubscribeRsrc request).1 = (m.toMachine.unsubscribeRsrc asked).1 ∧
      (m.unsubscribeRsrc request).2.toMachine = (m.toMachine.unsubscribeRsrc asked).2 := by
  have search := findSubscriber_request sound.alive (show (m.memory.objects request).isSome by
    simp [caller])
  rw [found] at search
  apply (findIdx_request caller found object).elim
  intro i first
  have index := first.1
  have listed := List.mem_of_find?_eq_some found
  have traced := sound.withWorld (AgpsVirtual.trace (κ := κ) m.mStatePtr .unsubscribe
    m.memory.world)
  have value := dropSubscriber_toMachine traced listed object first.2 leaves last
  have dropped := (dropSubscriber_clean traced listed object leaves).1
  have here' : m.toMachine.mStatePtr = m.mStatePtr := rfl
  cases here : m.mStatePtr with
  | released => exact (state here).elim
  | pending | acquired =>
      simp only [unsubscribeRsrc, search, onUnsubscribe, AgpsStateMachine.unsubscribeRsrc, index,
        AgpsStateMachine.dispatch, here, here', true_and] at value dropped ⊢
      rw [releaseIfUnused_toMachine dropped, value]
      rfl
  | releasing =>
      simp only [unsubscribeRsrc, search, onUnsubscribe, AgpsStateMachine.unsubscribeRsrc, index,
        AgpsStateMachine.dispatch, here, here', true_and] at value dropped ⊢
      apply (closeIfUnused_toMachine dropped).trans
      rw [value]
      rfl

theorem only_client_leaves_values :
    (granted (atl 7) [atl 7]).toMachine.mSubscribers = [⟨atl 7, false⟩] ∧
      ((granted (atl 7) [atl 7]).unsubscribeRsrc 0).1 = true ∧
      ((granted (atl 7) [atl 7]).unsubscribeRsrc 0).2.toMachine =
        ((granted (atl 7) [atl 7]).toMachine.unsubscribeRsrc ⟨atl 7, false⟩).2 := by
  have refined := unsubscribeRsrc_refines_values (m := granted (atl 7) [atl 7])
    ⟨by decide, by simp [Alive, granted], by simp [Clean, granted]⟩ (r := 1)
    (by decide) (show (granted (atl 7) [atl 7]).memory.objects 0 = some ⟨atl 7, false⟩ by decide)
    (by decide)
    (show _ = some ⟨atl 7, false⟩ by decide) (by decide) fun _ => ⟨by decide, by decide⟩
  exact ⟨by decide, refined.1.trans (by decide), refined.2⟩

end ObjectMachine
end Msm8974.Agps
