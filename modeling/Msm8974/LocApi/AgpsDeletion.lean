import Mathlib.Data.List.Nodup
import Msm8974.LocApi.AgpsObjects
import Msm8974.LocApi.AgpsSubscribers

/-!
When notifySubscribers() uses a subscriber that it has deleted. The search after a removal begins
at the head again and asks every element it meets whether it equals the receiver; once the
receiver is deleted, any element that is left is one too many.
-/

namespace Msm8974.Agps
variable {κ μ : Type}

/-- The notification with the object that its pointer leads to. -/
def NotificationPtr.resolve (n : NotificationPtr) (mem : Memory κ μ) : Notification κ :=
  ⟨n.rcver.bind mem.objects, n.groupID, n.rsrcStatus, n.postNotifyDelete⟩

namespace Memory

/-- The objects of the list exist. -/
def Alive (mem : Memory κ μ) (list : List Nat) : Prop := ∀ s ∈ list, (mem.objects s).isSome

/-- Nothing was used after its deletion. -/
def Clean (mem : Memory κ μ) : Prop := ∀ s, .usedDeleted s ∉ mem.log

section Views

variable {n : NotificationPtr} {mem : Memory κ μ} {s : Nat} {s1 : Subscriber κ}

theorem clean_record {e : MemoryEvent} :
    (mem.record e).Clean ↔ mem.Clean ∧ ∀ s, e ≠ .usedDeleted s := by
  simp only [Clean, record, List.mem_append, List.mem_singleton, not_or, forall_and]
  exact and_congr_right fun _ => forall_congr' fun s => ne_comm

theorem view_eq (found : mem.objects s = some s1)
    (receiver : ∀ r ∈ n.rcver, (mem.objects r).isSome) :
    mem.view n s = .ok (s1, n.resolve mem) := by
  cases rcver : n.rcver with
  | none =>
      simp only [view, read, found, deref, rcver, NotificationPtr.resolve]
      rfl
  | some r =>
      apply (Option.isSome_iff_exists.mp (receiver r rcver)).elim
      intro other there
      simp only [view, read, found, deref, rcver, there, NotificationPtr.resolve]
      simp [there]
      rfl

theorem view_dangling {r : Nat} (found : mem.objects s = some s1) (rcver : n.rcver = some r)
    (gone : mem.objects r = none) : mem.view n s = .error r := by
  simp only [view, read, found, deref, rcver, gone]
  rfl

end Views

section Disposal

variable [AgpsVirtual κ μ] {n : NotificationPtr} {mem : Memory κ μ} {s : Nat}

/-- A subscriber is notified. -/
def notify (n : NotificationPtr) (mem : Memory κ μ) (s : Nat) : Memory κ μ :=
  match mem.objects s with
  | some s1 =>
      { mem with world := AgpsVirtual.notifyRsrcStatus s1.client n.rsrcStatus mem.world }.record
        (.notified s)
  | none => mem

/-- A subscriber is notified and deleted. -/
def dispose (n : NotificationPtr) (mem : Memory κ μ) (s : Nat) : Memory κ μ :=
  (mem.notify n s).delete s

theorem notify_objects (n : NotificationPtr) (mem : Memory κ μ) (s : Nat) :
    (mem.notify n s).objects = mem.objects := by
  unfold notify
  split <;> rfl

theorem dispose_objects (alive : (mem.objects s).isSome) :
    (mem.dispose n s).objects = Function.update mem.objects s none := by
  apply (Option.isSome_iff_exists.mp alive).elim
  intro s1 found
  simp [dispose, delete, notify_objects, found, record]

theorem dispose_log (alive : (mem.objects s).isSome) :
    (mem.dispose n s).log = mem.log ++ [.notified s, .deleted s] := by
  apply (Option.isSome_iff_exists.mp alive).elim
  intro s1 found
  simp [dispose, delete, found, record, notify]

theorem dispose_clean (alive : (mem.objects s).isSome) :
    (mem.dispose n s).Clean ↔ mem.Clean := by
  simp [Clean, dispose_log alive]

/-- The others are as they were when one of the list has gone. -/
theorem dispose_others (before : List Nat) {after : List Nat}
    (distinct : (before ++ s :: after).Nodup)
    (alive : mem.Alive (before ++ s :: after)) :
    (before ++ after).Nodup ∧ (mem.dispose n s).Alive (before ++ after) ∧
      ∀ t ≠ s, (mem.dispose n s).objects t = mem.objects t := by
  have parts := List.nodup_middle.mp distinct
  have same : ∀ t ≠ s, (mem.dispose n s).objects t = mem.objects t := fun t ne => by
    rw [dispose_objects (alive s (by simp)), Function.update_of_ne ne]
  refine ⟨parts.tail, fun t mem_t => ?_, same⟩
  rw [same t fun eq => (List.nodup_cons.mp parts).1 (eq ▸ mem_t)]
  apply alive
  simp at mem_t ⊢
  tauto

end Disposal

section Predicates

variable [SubscriberKind κ] {n : NotificationPtr} {mem other : Memory κ μ} {s r : Nat}

/-- `s->equals(r)` -/
def equals (mem : Memory κ μ) (s r : Nat) : Bool :=
  (mem.objects s).any fun s1 => (mem.objects r).any s1.equals

/-- `s->forMe(n)` -/
def forMe (n : NotificationPtr) (mem : Memory κ μ) (s : Nat) : Bool :=
  (mem.objects s).any (·.forMe (n.resolve mem))

theorem forMe_congr (same : other.objects s = mem.objects s)
    (receiver : ∀ r ∈ n.rcver, other.objects r = mem.objects r) :
    other.forMe n s = mem.forMe n s := by
  have resolved : n.resolve other = n.resolve mem := by
    unfold NotificationPtr.resolve
    cases rcver : n.rcver with
    | none => rfl
    | some r => simp [receiver r rcver]
  rw [forMe, forMe, same, resolved]

theorem forMe_eq_equals (rcver : n.rcver = some r) (alive : (mem.objects r).isSome) :
    mem.forMe n s = mem.equals s r := by
  apply (Option.isSome_iff_exists.mp alive).elim
  intro other there
  simp [forMe, equals, NotificationPtr.resolve, rcver, there, Subscriber.forMe]

variable [AgpsVirtual κ μ]

theorem notifySubscriber_of_not_forMe (alive : (mem.objects s).isSome)
    (receiver : ∀ r ∈ n.rcver, (mem.objects r).isSome) (h : mem.forMe n s = false) :
    notifySubscriber n s mem = (false, mem) := by
  apply (Option.isSome_iff_exists.mp alive).elim
  intro s1 found
  rw [forMe, found, Option.any_some] at h
  simp [notifySubscriber, view_eq found receiver, Subscriber.notifyRsrcStatus, h]

theorem notifySubscriber_of_forMe (live : n.rsrcStatus.notified = true)
    (alive : (mem.objects s).isSome) (receiver : ∀ r ∈ n.rcver, (mem.objects r).isSome)
    (h : mem.forMe n s = true) :
    notifySubscriber n s mem = (n.postNotifyDelete, mem.notify n s) := by
  apply (Option.isSome_iff_exists.mp alive).elim
  intro s1 found
  rw [forMe, found, Option.any_some] at h
  have status : (n.resolve mem).rsrcStatus = n.rsrcStatus := rfl
  simp [notifySubscriber, view_eq found receiver, Subscriber.notifyRsrcStatus, h, status, live,
    notify, found]

theorem notifySubscriber_dangling (alive : (mem.objects s).isSome) (rcver : n.rcver = some r)
    (gone : mem.objects r = none) :
    notifySubscriber n s mem = (false, mem.record (.usedDeleted r)) := by
  apply (Option.isSome_iff_exists.mp alive).elim
  intro s1 found
  rw [notifySubscriber, view_dangling found rcver gone]

/-- One round of the loop: nobody is left to be notified, or the first one is and goes. -/
theorem notifyLoop_cases {list : List Nat} (live : n.rsrcStatus.notified = true)
    (delete : n.postNotifyDelete = true) (alive : mem.Alive list)
    (receiver : ∀ r ∈ n.rcver, (mem.objects r).isSome) (rounds : Nat) :
    ((∀ s ∈ list, mem.forMe n s = false) ∧ notifyLoop n (rounds + 1) list mem = (list, mem)) ∨
    ∃ before s after, list = before ++ s :: after ∧ (∀ t ∈ before, mem.forMe n t = false) ∧
      mem.forMe n s = true ∧
      notifyLoop n (rounds + 1) list mem =
        notifyLoop n rounds (before ++ after) (mem.dispose n s) := by
  cases found : list.find? (mem.forMe n) with
  | none =>
      have nobody : ∀ s ∈ list, mem.forMe n s = false := by simpa using found
      have search := linkedListSearch_rejecting_of (I := (· = mem)) (notifySubscriber n)
        (fun _ mem => mem) true list mem rfl fun s hs w same => by
          rw [same]
          exact ⟨notifySubscriber_of_not_forMe (alive s hs) receiver (nobody s hs), rfl⟩
      refine .inl ⟨nobody, ?_⟩
      simp [notifyLoop, search]
  | some s =>
      apply (List.find?_eq_some_iff_append.mp found).2.elim
      intro before ⟨after, eq, passed⟩
      have passed : ∀ t ∈ before, mem.forMe n t = false := by simpa using passed
      have accepted := (List.find?_eq_some_iff_append.mp found).1
      have notified := notifySubscriber_of_forMe live (alive s (by simp [eq])) receiver accepted
      rw [delete] at notified
      have search := linkedListSearch_finds (notifySubscriber n) true before s after mem
        (fun t ht => notifySubscriber_of_not_forMe (alive t (by simp [eq, ht])) receiver
          (passed t ht))
        notified
      refine .inr ⟨before, s, after, eq, passed, accepted, ?_⟩
      rw [eq, notifyLoop, search]
      rfl

/-- A loop whose receiver is gone uses it, unless the list is empty. -/
theorem notifyLoop_dangling {list : List Nat} (alive : mem.Alive list) (rcver : n.rcver = some r)
    (gone : mem.objects r = none) (rounds : Nat) (enough : list.length ≤ rounds) :
    (notifyLoop n rounds list mem).1 = list ∧
    (notifyLoop n rounds list mem).2.objects = mem.objects ∧
      ((notifyLoop n rounds list mem).2.Clean ↔ mem.Clean ∧ list = []) := by
  cases rounds with
  | zero =>
      have empty : list = [] := List.length_eq_zero_iff.mp (by omega)
      simp [notifyLoop, empty]
  | succ rounds =>
      have search := linkedListSearch_rejecting_of (I := fun w => w.objects = mem.objects)
        (notifySubscriber n) (fun _ w => w.record (.usedDeleted r)) true list mem rfl
        fun s hs w same => ⟨notifySubscriber_dangling (same ▸ alive s hs) rcver (same ▸ gone), same⟩
      have step : notifyLoop n (rounds + 1) list mem =
          (list, list.foldl (fun w _ => w.record (.usedDeleted r)) mem) := by
        rw [notifyLoop, search]
      rw [step]
      have recorded (l : List Nat) (w : Memory κ μ) :
          (l.foldl (fun w _ => w.record (.usedDeleted r)) w).objects = w.objects ∧
            ((l.foldl (fun w _ => w.record (.usedDeleted r)) w).Clean ↔ w.Clean ∧ l = []) := by
        induction l generalizing w with
        | nil => simp
        | cons s l ih =>
            refine ⟨(ih _).1, ?_⟩
            rw [List.foldl_cons, (ih _).2, clean_record]
            simp
      exact ⟨rfl, (recorded list mem).1, (recorded list mem).2⟩

/-- `r` stands last and everyone else equals it: all of them go before it does. -/
def GoesLast (mem : Memory κ μ) (list : List Nat) (r : Nat) : Prop :=
  list.getLast? = some r ∧ ∀ t ∈ list, t ≠ r → mem.equals t r = true

section Round

variable {before after : List Nat}

omit [AgpsVirtual κ μ] in
theorem goesLast_erase (ne : s ≠ r) (own : mem.equals r r = true)
    (passed : ∀ t ∈ before, mem.equals t r = false) (accepted : mem.equals s r = true) :
    mem.GoesLast (before ++ s :: after) r ↔ mem.GoesLast (before ++ after) r := by
  have absent : r ∉ before := fun mem_r => Bool.false_ne_true ((passed r mem_r).symm.trans own)
  have last : (before ++ s :: after).getLast? = some r ↔ (before ++ after).getLast? = some r := by
    cases after with
    | nil =>
        refine iff_of_false (by simp [ne]) fun h => absent ?_
        rw [List.append_nil] at h
        exact List.mem_of_getLast? h
    | cons t after => simp [List.getLast?_cons_cons]
  rw [GoesLast, GoesLast, last]
  apply and_congr_right
  intro _
  constructor
  · exact fun equal t mem_t => equal t (by simp at mem_t ⊢; tauto)
  · intro equal t mem_t ne_r
    by_cases eq : t = s
    · rw [eq, accepted]
    · exact equal t (by simp [eq] at mem_t ⊢; tauto) ne_r

omit [AgpsVirtual κ μ] in
theorem goesLast_self (distinct : (before ++ r :: after).Nodup)
    (passed : ∀ t ∈ before, mem.equals t r = false) :
    mem.GoesLast (before ++ r :: after) r ↔ before ++ after = [] := by
  have fresh := (List.nodup_cons.mp (List.nodup_middle.mp distinct)).1
  constructor
  · intro ⟨last, equal⟩
    have none_after : after = [] := by
      cases after with
      | nil => rfl
      | cons t after =>
          rw [List.getLast?_append_cons, List.getLast?_cons_cons] at last
          exact (fresh (List.mem_append_right _ (List.mem_of_getLast? last))).elim
    have none_before : before = [] := by
      rw [List.eq_nil_iff_forall_not_mem]
      intro t mem_t
      have ne : t ≠ r := fun eq => fresh (eq ▸ List.mem_append_left _ mem_t)
      exact Bool.false_ne_true ((passed t mem_t).symm.trans (equal t (by simp [mem_t]) ne))
    rw [none_before, none_after, List.nil_append]
  · intro empty
    have parts := List.append_eq_nil_iff.mp empty
    rw [parts.1, parts.2]
    exact ⟨rfl, fun t mem_t ne => (ne (List.mem_singleton.mp mem_t)).elim⟩

end Round

omit [AgpsVirtual κ μ] in
theorem equals_congr {t : Nat} (left : other.objects t = mem.objects t)
    (right : other.objects r = mem.objects r) : other.equals t r = mem.equals t r := by
  rw [equals, equals, left, right]

omit [AgpsVirtual κ μ] in
theorem goesLast_congr {list : List Nat} (same : ∀ t ∈ list, other.equals t r = mem.equals t r) :
    other.GoesLast list r ↔ mem.GoesLast list r := by
  apply and_congr_right
  intro _
  apply forall₂_congr
  intro t mem_t
  rw [same t mem_t]

/-- The deletion of another one changes nothing about `r`. -/
theorem dispose_keeps (before : List Nat) {after : List Nat}
    (distinct : (before ++ s :: after).Nodup) (alive : mem.Alive (before ++ s :: after))
    (ne : s ≠ r) (passed : ∀ t ∈ before, mem.equals t r = false)
    (accepted : mem.equals s r = true) :
    (mem.dispose n s).equals r r = mem.equals r r ∧ (mem.equals r r = true →
      ((mem.dispose n s).GoesLast (before ++ after) r ↔
        mem.GoesLast (before ++ s :: after) r)) := by
  have others := (dispose_others (n := n) before distinct alive).2.2
  have same (t : Nat) (ne_t : t ≠ s) : (mem.dispose n s).equals t r = mem.equals t r :=
    equals_congr (others t ne_t) (others r (Ne.symm ne))
  have fresh := (List.nodup_cons.mp (List.nodup_middle.mp distinct)).1
  refine ⟨same r (Ne.symm ne), fun own => ?_⟩
  rw [goesLast_erase ne own passed accepted]
  exact goesLast_congr fun t mem_t => same t fun eq => fresh (eq ▸ mem_t)

/-- The loop whose receiver is an element of the list. -/
theorem notifyLoop_own {list : List Nat} (live : n.rsrcStatus.notified = true)
    (delete : n.postNotifyDelete = true) (rcver : n.rcver = some r) {rounds : Nat}
    (enough : list.length < rounds) (distinct : list.Nodup) (alive : mem.Alive list)
    (listed : r ∈ list) :
    (notifyLoop n rounds list mem).2.Alive (notifyLoop n rounds list mem).1 ∧
      ((notifyLoop n rounds list mem).2.Clean ↔
        mem.Clean ∧ (mem.equals r r = true → mem.GoesLast list r)) := by
  induction rounds generalizing list mem with
  | zero => omega
  | succ rounds ih =>
      have own : (mem.objects r).isSome := alive r listed
      have forMe_eq (s : Nat) : mem.forMe n s = mem.equals s r := forMe_eq_equals rcver own
      have receiver : ∀ r' ∈ n.rcver, (mem.objects r').isSome := fun r' h => by
        rw [rcver] at h
        exact Option.some.inj h ▸ own
      cases notifyLoop_cases live delete alive receiver rounds with
      | inl h =>
          rw [h.2]
          refine ⟨alive, (and_iff_left fun equal => ?_).symm⟩
          exact (Bool.false_ne_true ((h.1 r listed).symm.trans ((forMe_eq r).trans equal))).elim
      | inr h =>
          apply h.elim
          intro before ⟨s, after, eq, passed, accepted, step⟩
          subst eq
          rw [forMe_eq] at accepted
          have passed : ∀ t ∈ before, mem.equals t r = false := fun t ht => by
            rw [← forMe_eq, passed t ht]
          have ⟨distinct', alive', _⟩ := dispose_others (n := n) before distinct alive
          have here : (mem.objects s).isSome := alive s (by simp)
          rw [step]
          by_cases last : s = r
          · subst last
            have gone : (mem.dispose n s).objects s = none := by
              rw [dispose_objects here, Function.update_self]
            have ⟨kept, same, clean⟩ := notifyLoop_dangling alive' rcver gone rounds
              (by simp at enough ⊢; omega)
            rw [kept, clean, dispose_clean here, goesLast_self distinct passed]
            refine ⟨fun t mem_t => same ▸ alive' t mem_t, and_congr_right fun _ => ?_⟩
            exact ⟨fun empty _ => empty, fun empty => empty accepted⟩
          · have listed' : r ∈ before ++ after := by
              simp at listed ⊢
              tauto
            have rest := ih (by simp at enough ⊢; omega) distinct' alive' listed'
            have kept := dispose_keeps (n := n) before distinct alive last passed accepted
            refine ⟨rest.1, rest.2.trans ?_⟩
            rw [dispose_clean here, kept.1]
            apply and_congr_right
            intro _
            exact imp_congr_right kept.2

end Predicates
end Memory

namespace ObjectMachine
open Memory

variable [SubscriberKind κ] {m : ObjectMachine κ μ} {n : NotificationPtr}

theorem hasSubscriber_eq {mem : Memory κ μ} {s : Nat} (alive : (mem.objects s).isSome)
    (receiver : ∀ r ∈ n.rcver, (mem.objects r).isSome) :
    hasSubscriber n s mem = (mem.forMe n s, mem) := by
  apply (Option.isSome_iff_exists.mp alive).elim
  intro s1 found
  rw [hasSubscriber, view_eq found receiver, forMe, found, Option.any_some]

theorem findSubscriber_eq (alive : m.memory.Alive m.mSubscribers)
    (receiver : ∀ r ∈ n.rcver, (m.memory.objects r).isSome) :
    m.findSubscriber n = (m.mSubscribers.find? (m.memory.forMe n), m) := by
  cases found : m.mSubscribers.find? (m.memory.forMe n) with
  | none =>
      have nobody : ∀ s ∈ m.mSubscribers, m.memory.forMe n s = false := by simpa using found
      have search := linkedListSearch_rejecting_of (I := (· = m.memory)) (hasSubscriber n)
        (fun _ mem => mem) false m.mSubscribers m.memory rfl fun s hs w same => by
          rw [same, hasSubscriber_eq (alive s hs) receiver, nobody s hs]
          exact ⟨rfl, rfl⟩
      simp [findSubscriber, search]
  | some s =>
      apply (List.find?_eq_some_iff_append.mp found).2.elim
      intro before ⟨after, eq, passed⟩
      have search := linkedListSearch_finds (hasSubscriber n) false before s after m.memory
        (fun t ht => by
          rw [hasSubscriber_eq (alive t (by simp [eq, ht])) receiver]
          simpa using passed t ht)
        (by rw [hasSubscriber_eq (alive s (by simp [eq])) receiver, List.find?_some found])
      rw [← eq] at search
      rw [findSubscriber, search]

/-- The search for the subscriber of a request. -/
theorem findSubscriber_request {request : Nat} (alive : m.memory.Alive m.mSubscribers)
    (caller : (m.memory.objects request).isSome) :
    m.findSubscriber (.to request .statusMax false) =
      (m.mSubscribers.find? (m.memory.equals · request), m) := by
  have same : m.memory.forMe (.to request .statusMax false) = (m.memory.equals · request) :=
    funext fun s => forMe_eq_equals rfl caller
  have search := findSubscriber_eq (n := .to request .statusMax false) alive
    fun r h => Option.some.inj h ▸ caller
  rw [search, same]

variable [AgpsVirtual κ μ]

theorem sendRsrcRequest_memory (action : AGpsStatusValue)
    (alive : m.memory.Alive m.mSubscribers) :
    (m.sendRsrcRequest action).memory.log = m.memory.log := by
  rw [sendRsrcRequest, findSubscriber_eq alive fun r h => by cases h]

theorem releaseIfUnused_clean (alive : m.memory.Alive m.mSubscribers) :
    m.releaseIfUnused.memory.Clean ↔ m.memory.Clean := by
  unfold releaseIfUnused Clean
  split
  · rw [sendRsrcRequest_memory]
    exact alive
  · simp only [hasActiveSubscribers, findSubscriber_eq (n := .broadcast .broadcastActive
      .statusMax false) alive fun r h => by cases h]
    split
    · rw [sendRsrcRequest_memory]
      exact alive
    · rfl

/-- The list of a machine that has used no deleted subscriber. -/
structure Sound (m : ObjectMachine κ μ) : Prop where
  distinct : m.mSubscribers.Nodup
  alive : m.memory.Alive m.mSubscribers
  clean : m.memory.Clean

omit [SubscriberKind κ] [AgpsVirtual κ μ] in
theorem Sound.withWorld (sound : m.Sound) (w : μ) :
    ({ m with memory := { m.memory with world := w } } : ObjectMachine κ μ).Sound :=
  ⟨sound.distinct, sound.alive, sound.clean⟩

theorem dropSubscriber_clean (sound : m.Sound) {r : Nat} (listed : r ∈ m.mSubscribers)
    {subscriber : Subscriber κ} (object : m.memory.objects r = some subscriber)
    (leaves : SubscriberKind.waitForCloseComplete subscriber.client = false) :
    (m.dropSubscriber r).memory.Alive (m.dropSubscriber r).mSubscribers ∧
      ((m.dropSubscriber r).memory.Clean ↔
        (m.memory.equals r r = true → m.memory.GoesLast m.mSubscribers r)) := by
  have own := notifyLoop_own (n := .to r .unsubscribe true) rfl rfl rfl (Nat.lt_succ_self _)
    sound.distinct sound.alive listed
  rw [dropSubscriber, object]
  simp only [leaves]
  exact ⟨own.1, own.2.trans (and_iff_right sound.clean)⟩

/-- No deleted subscriber is used exactly when the one that leaves is the last to be deleted. -/
theorem unsubscribe_uses_no_deleted_iff (m : ObjectMachine κ μ) (request : Nat) {r : Nat}
    {subscriber : Subscriber κ} (sound : m.Sound) (state : m.mStatePtr ≠ .released)
    (caller : (m.memory.objects request).isSome)
    (found : m.mSubscribers.find? (m.memory.equals · request) = some r)
    (object : m.memory.objects r = some subscriber)
    (leaves : SubscriberKind.waitForCloseComplete subscriber.client = false) :
    (m.unsubscribeRsrc request).2.memory.Clean ↔
      (m.memory.equals r r = true → m.memory.GoesLast m.mSubscribers r) := by
  have search := findSubscriber_request sound.alive caller
  rw [found] at search
  have dropped := dropSubscriber_clean (sound.withWorld (AgpsVirtual.trace (κ := κ) m.mStatePtr
    .unsubscribe m.memory.world)) (List.mem_of_find?_eq_some found) object leaves
  cases here : m.mStatePtr with
  | released => exact (state here).elim
  | pending | acquired =>
      simp only [unsubscribeRsrc, search, onUnsubscribe, here] at dropped ⊢
      exact (releaseIfUnused_clean dropped.1).trans dropped.2
  | releasing =>
      simp only [unsubscribeRsrc, search, onUnsubscribe, here] at dropped ⊢
      refine Iff.trans ?_ dropped.2
      split <;> rfl

/-- A granted machine with these subscribers at the addresses from 1 on, and a request at 0. -/
def granted (request : Client) (clients : List Client) : ObjectMachine Client Replies where
  mStatePtr := .acquired
  mSubscribers := List.range' 1 clients.length
  mEnforceSingleSubscriber := false
  memory :=
    { objects := fun s => (request :: clients)[s]?.map (⟨·, false⟩)
      world := ⟨3, none, -1, []⟩
      log := [] }

def atl (ID : BitVec 32) : Client := ⟨.ATLSubscriber false, ID, Vector.replicate 16 0⟩

theorem only_subscriber_leaves : ((granted (atl 7) [atl 7]).unsubscribeRsrc 0).2.memory.Clean :=
  (unsubscribe_uses_no_deleted_iff (granted (atl 7) [atl 7]) 0 (r := 1)
    ⟨by decide, by simp [Alive, granted], by simp [Clean, granted]⟩ (by decide) (by decide)
    (by decide) (show _ = some ⟨atl 7, false⟩ by decide) (by decide)).mpr fun _ =>
    ⟨by decide, by decide⟩

/-- The first of two clients is deleted, and the other one is asked whether it equals it. -/
theorem second_subscriber_is_asked :
    ¬∀ (m : ObjectMachine Client Replies) (request r : Nat) (subscriber : Subscriber Client),
      m.Sound → m.mStatePtr ≠ .released → (m.memory.objects request).isSome →
      m.mSubscribers.find? (m.memory.equals · request) = some r →
      m.memory.objects r = some subscriber →
      SubscriberKind.waitForCloseComplete subscriber.client = false →
        (m.unsubscribeRsrc request).2.memory.Clean := by
  intro h
  have clean := h (granted (atl 7) [atl 7, atl 8]) 0 1 ⟨atl 7, false⟩
    ⟨by decide, by simp [Alive, granted], by simp [Clean, granted]⟩ (by decide) (by decide)
    (by decide) (by decide) (by decide)
  exact clean 1 (by decide)

end ObjectMachine
end Msm8974.Agps
