import Mathlib.Data.List.Induction
import Msm8974.LocApi.AgpsDeletion

/-!
A notification to everyone it is for, each once. As long as the receiver is no element of the
list, the rounds of notifySubscribers() amount to one pass: what is deleted is never needed again,
and the order of those that stay is that of the list.
-/

namespace Msm8974.Agps
variable {κ μ : Type}

namespace Memory

section Pass

variable [AgpsVirtual κ μ] {n : NotificationPtr} {mem : Memory κ μ} {s : Nat} {list : List Nat}

/-- What telling `s` does to the world. -/
def told (n : NotificationPtr) (mem : Memory κ μ) (w : μ) (s : Nat) : μ :=
  match mem.objects s with
  | some s1 => AgpsVirtual.notifyRsrcStatus s1.client n.rsrcStatus w
  | none => w

theorem notify_eq (alive : (mem.objects s).isSome) : mem.notify n s =
    { mem with world := mem.told n mem.world s, log := mem.log ++ [.notified s] } := by
  apply (Option.isSome_iff_exists.mp alive).elim
  intro s1 found
  simp [notify, told, found, record]

theorem dispose_world (alive : (mem.objects s).isSome) :
    (mem.dispose n s).world = mem.told n mem.world s := by
  apply (Option.isSome_iff_exists.mp alive).elim
  intro s1 found
  simp [dispose, notify_eq alive, delete, found, record]

/-- A pass that deletes. -/
theorem foldl_dispose (distinct : list.Nodup) (alive : mem.Alive list) :
    list.foldl (dispose n) mem =
      { objects := fun t => if t ∈ list then none else mem.objects t
        world := list.foldl (mem.told n) mem.world
        log := mem.log ++ list.flatMap fun s => [.notified s, .deleted s] } := by
  induction list generalizing mem with
  | nil => simp
  | cons s list ih =>
      have fresh := List.nodup_cons.mp distinct
      have here : (mem.objects s).isSome := alive s List.mem_cons_self
      have others := dispose_others (n := n) [] distinct alive
      have told_same : ∀ w, ∀ t ∈ list, (mem.dispose n s).told n w t = mem.told n w t := by
        intro w t mem_t
        rw [told, told, others.2.2 t fun eq => fresh.1 (eq ▸ mem_t)]
      rw [List.foldl_cons, ih fresh.2 others.2.1, dispose_log here, dispose_objects here,
        dispose_world here, List.foldl_cons]
      congr 1
      · funext t
        by_cases eq : t = s
        · simp [eq]
        · simp [eq]
      · exact List.foldl_ext _ _ _ fun w t mem_t => told_same w t mem_t
      · simp

/-- A pass that keeps. -/
theorem foldl_notify (alive : mem.Alive list) :
    list.foldl (notify n) mem =
      { mem with
        world := list.foldl (mem.told n) mem.world
        log := mem.log ++ list.map .notified } := by
  induction list generalizing mem with
  | nil => simp
  | cons s list ih =>
      have here : (mem.objects s).isSome := alive s List.mem_cons_self
      have rest : (mem.notify n s).Alive list := fun t mem_t => by
        rw [notify_objects]
        exact alive t (List.mem_cons_of_mem s mem_t)
      rw [List.foldl_cons, ih rest, notify_eq here]
      simp
      rfl

end Pass

variable [SubscriberKind κ] [AgpsVirtual κ μ] {n : NotificationPtr} {mem : Memory κ μ}
  {list : List Nat}

/-- The rounds of the loop are one pass over those it is for. -/
theorem notifyLoop_pass (live : n.rsrcStatus.notified = true) (delete : n.postNotifyDelete = true)
    {rounds : Nat} (enough : list.length < rounds) (distinct : list.Nodup)
    (alive : mem.Alive list)
    (receiver : ∀ r ∈ n.rcver, (mem.objects r).isSome ∧ (r ∈ list → mem.forMe n r = false)) :
    notifyLoop n rounds list mem = (list.filter (!mem.forMe n ·),
      (list.filter (mem.forMe n)).foldl (dispose n) mem) := by
  induction rounds generalizing list mem with
  | zero => omega
  | succ rounds ih =>
      cases notifyLoop_cases live delete alive (fun r h => (receiver r h).1) rounds with
      | inl h =>
          have all : list.filter (!mem.forMe n ·) = list :=
            List.filter_eq_self.mpr fun s hs => by simp [h.1 s hs]
          have nobody : list.filter (mem.forMe n) = [] :=
            List.filter_eq_nil_iff.mpr fun s hs => by simp [h.1 s hs]
          rw [h.2, all, nobody]
          rfl
      | inr h =>
          apply h.elim
          intro before ⟨s, after, eq, passed, accepted, step⟩
          subst eq
          have ⟨distinct', alive', others⟩ := dispose_others (n := n) before distinct alive
          have fresh := (List.nodup_cons.mp (List.nodup_middle.mp distinct)).1
          have apart : ∀ r ∈ n.rcver, r ≠ s := fun r h eq => by
            have own := (receiver r h).2 (by simp [eq])
            rw [eq, accepted] at own
            cases own
          have same : ∀ t ≠ s, (mem.dispose n s).forMe n t = mem.forMe n t := fun t ne =>
            forMe_congr (others t ne) fun r h => others r (apart r h)
          have receiver' : ∀ r ∈ n.rcver, ((mem.dispose n s).objects r).isSome ∧
              (r ∈ before ++ after → (mem.dispose n s).forMe n r = false) := fun r h => by
            rw [others r (apart r h), same r (apart r h)]
            exact ⟨(receiver r h).1, fun mem_r => (receiver r h).2 (by simp at mem_r ⊢; tauto)⟩
          have same : ∀ t ∈ before ++ after, (mem.dispose n s).forMe n t = mem.forMe n t :=
            fun t mem_t => same t fun eq => fresh (eq ▸ mem_t)
          have kept : (before ++ after).filter (!(mem.dispose n s).forMe n ·) =
              (before ++ s :: after).filter (!mem.forMe n ·) := by
            rw [List.filter_congr fun t mem_t => by rw [same t mem_t]]
            simp [accepted]
          have told : s :: (before ++ after).filter ((mem.dispose n s).forMe n) =
              (before ++ s :: after).filter (mem.forMe n) := by
            rw [List.filter_congr same]
            have none_before : before.filter (mem.forMe n) = [] :=
              List.filter_eq_nil_iff.mpr fun t mem_t => by simp [passed t mem_t]
            simp [accepted, none_before]
          rw [step, ih (by simp at enough ⊢; omega) distinct' alive' receiver', kept, ← told,
            List.foldl_cons]

/-- Without deletion a single search passes everyone. -/
theorem search_pass (live : n.rsrcStatus.notified = true) (keep : n.postNotifyDelete = false)
    (alive : mem.Alive list) (receiver : ∀ r ∈ n.rcver, (mem.objects r).isSome) :
    linkedListSearch (notifySubscriber n) false list mem =
      (none, list, (list.filter (mem.forMe n)).foldl (notify n) mem) := by
  have search := linkedListSearch_rejecting_of (I := fun w => w.objects = mem.objects)
    (notifySubscriber n) (fun s w => if mem.forMe n s then w.notify n s else w) false list mem rfl
    fun s hs w same => by
      have forMe_same : w.forMe n s = mem.forMe n s :=
        forMe_congr (congrFun same s) fun r _ => congrFun same r
      have alive' : (w.objects s).isSome := same ▸ alive s hs
      have receiver' : ∀ r ∈ n.rcver, (w.objects r).isSome := same ▸ receiver
      cases mine : mem.forMe n s with
      | false =>
          rw [mine] at forMe_same
          exact ⟨notifySubscriber_of_not_forMe alive' receiver' forMe_same, same⟩
      | true =>
          rw [mine] at forMe_same
          rw [notifySubscriber_of_forMe live alive' receiver' forMe_same, keep]
          exact ⟨rfl, (notify_objects n w s).trans same⟩
  rw [search, List.foldl_filter]

end Memory

namespace ObjectMachine
open Memory

/-- What a subscriber is sent. -/
def sentTo (n : NotificationPtr) (m : ObjectMachine Client Replies) (s : Nat) : List Reply :=
  match m.memory.objects s with
  | some s1 => (s1.client.reply n.rsrcStatus m.memory.world).getD []
  | none => []

/-- Everyone the notification is for is notified once, in the order of the list; they leave it
and are deleted if that is asked for, and nobody else is touched. -/
structure NotifiedOnce (n : NotificationPtr) (m m' : ObjectMachine Client Replies) : Prop where
  terminates : n.postNotifyDelete = true → ∀ rounds, m.mSubscribers.length < rounds →
    notifyLoop n rounds m.mSubscribers m.memory = (m'.mSubscribers, m'.memory)
  list : m'.mSubscribers = if n.postNotifyDelete then
    m.mSubscribers.filter (!m.memory.forMe n ·) else m.mSubscribers
  log : m'.memory.log = m.memory.log ++ (m.mSubscribers.filter (m.memory.forMe n)).flatMap
    fun s => if n.postNotifyDelete then [.notified s, .deleted s] else [.notified s]
  sent : m'.memory.world.sent = m.memory.world.sent ++
    (m.mSubscribers.filter (m.memory.forMe n)).flatMap (m.sentTo n)
  objects : ∀ s, m'.memory.objects s =
    if n.postNotifyDelete ∧ s ∈ m.mSubscribers.filter (m.memory.forMe n) then none
    else m.memory.objects s

/-- No reply changes what another one says. -/
theorem foldl_told (n : NotificationPtr) (m : ObjectMachine Client Replies) (list : List Nat) :
    list.foldl (m.memory.told n) m.memory.world =
      { m.memory.world with sent := m.memory.world.sent ++ list.flatMap (m.sentTo n) } := by
  induction list using List.reverseRecOn with
  | nil => simp
  | append_singleton list s ih =>
      rw [List.foldl_append, ih, List.foldl_cons, List.foldl_nil, told, List.flatMap_append,
        List.flatMap_singleton, sentTo]
      cases m.memory.objects s with
      | none => simp
      | some s1 =>
          have same : s1.client.reply n.rsrcStatus { m.memory.world with
              sent := m.memory.world.sent ++ list.flatMap (m.sentTo n) } =
                s1.client.reply n.rsrcStatus m.memory.world := by
            unfold Client.reply
            cases s1.client.kind <;> rfl
          simp only [AgpsVirtual.notifyRsrcStatus, Client.notified, same, List.append_assoc]

theorem notification_is_exact (m : ObjectMachine Client Replies) (n : NotificationPtr)
    (sound : m.Sound) (live : n.rsrcStatus.notified = true)
    (receiver : ∀ r ∈ n.rcver, (m.memory.objects r).isSome ∧ r ∉ m.mSubscribers) :
    NotifiedOnce n m (m.notifySubscribers n) := by
  have told : (m.mSubscribers.filter (m.memory.forMe n)).Nodup := sound.distinct.filter _
  have alive : m.memory.Alive (m.mSubscribers.filter (m.memory.forMe n)) := fun s hs =>
    sound.alive s (List.mem_of_mem_filter hs)
  cases delete : n.postNotifyDelete with
  | true =>
      have pass (rounds : Nat) (enough : m.mSubscribers.length < rounds) :=
        notifyLoop_pass live delete enough sound.distinct sound.alive fun r h =>
          ⟨(receiver r h).1, fun listed => ((receiver r h).2 listed).elim⟩
      have eq : m.notifySubscribers n = { m with
          mSubscribers := m.mSubscribers.filter (!m.memory.forMe n ·)
          memory := (m.mSubscribers.filter (m.memory.forMe n)).foldl (dispose n) m.memory } := by
        rw [notifySubscribers, if_pos delete, pass _ (Nat.lt_succ_self _)]
      rw [eq]
      refine ⟨fun _ rounds enough => pass rounds enough, by simp [delete], ?_, ?_, fun s => ?_⟩
      · simp [foldl_dispose told alive, delete]
      · simp [foldl_dispose told alive, foldl_told]
      · simp [foldl_dispose told alive, delete]
  | false =>
      have eq : m.notifySubscribers n = { m with
          memory := (m.mSubscribers.filter (m.memory.forMe n)).foldl (notify n) m.memory } := by
        rw [notifySubscribers, if_neg (by simp [delete]),
          search_pass live delete sound.alive fun r h => (receiver r h).1]
      rw [eq]
      refine ⟨fun h => ?_, by simp [delete], ?_, ?_, fun s => ?_⟩
      · rw [delete] at h
        cases h
      · simp [foldl_notify alive, delete, List.map_eq_flatMap]
      · simp [foldl_notify alive, foldl_told]
      · simp [foldl_notify alive, delete]

/-- A request of client 7 is told to the one that equals it. -/
theorem equal_subscriber_is_notified_once :
    NotifiedOnce (.to 0 .released true) (granted (atl 7) [atl 8, atl 7, atl 9])
      ((granted (atl 7) [atl 8, atl 7, atl 9]).notifySubscribers (.to 0 .released true)) :=
  notification_is_exact (granted (atl 7) [atl 8, atl 7, atl 9]) (.to 0 .released true)
    ⟨by decide, by simp [Alive, granted], by simp [Clean, granted]⟩ rfl
    fun r h => by
      cases h
      exact ⟨rfl, by decide⟩

end ObjectMachine
end Msm8974.Agps
