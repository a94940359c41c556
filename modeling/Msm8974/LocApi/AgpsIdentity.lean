import Mathlib.Data.Set.Defs
import Msm8974.LocApi.AgpsInvariant
import Msm8974.LocApi.AgpsSubscribers

/-!
Which requests an AGPS machine takes for requests of one client. Requests of the modem and of the
BIT daemon stand in one list; the element of the list compares, with the method of its own class,
and a binary address is compared as a string.
-/

namespace Msm8974.Agps
open AgpsStateMachine

/-- What the modem or the BIT daemon asks with, to subscribe and to unsubscribe. -/
inductive AgpsRequest
  | ATL (id : BitVec 32) (compatibleMode : Bool)
  | BIT (ipv4 : BitVec 32) (ipv6 : Option (Vector UInt8 16))

def SameClient : AgpsRequest → AgpsRequest → Prop
  | .ATL id _, .ATL id' _ => id = id'
  | .BIT ipv4 ipv6, .BIT ipv4' ipv6' => ipv4 = ipv4' ∧ (ipv4 = INADDR_NONE → ipv6 = ipv6')
  | .ATL .., .BIT .. | .BIT .., .ATL .. => False

instance : DecidableRel SameClient
  | .ATL id _, .ATL id' _ => inferInstanceAs (Decidable (id = id'))
  | .BIT ipv4 ipv6, .BIT ipv4' ipv6' =>
      inferInstanceAs (Decidable (ipv4 = ipv4' ∧ (ipv4 = INADDR_NONE → ipv6 = ipv6')))
  | .ATL .., .BIT .. | .BIT .., .ATL .. => inferInstanceAs (Decidable False)

theorem sameClient_equivalence : Equivalence SameClient where
  refl r := by
    cases r with
    | ATL id mode => rfl
    | BIT ipv4 ipv6 => exact ⟨rfl, fun _ => rfl⟩
  symm {r s} h := by
    cases r <;> cases s
    case ATL.ATL => exact Eq.symm h
    case BIT.BIT => exact ⟨h.1.symm, fun none => (h.2 (h.1.trans none)).symm⟩
    all_goals exact h
  trans {r s t} h h' := by
    cases r <;> cases s <;> cases t
    case ATL.ATL.ATL => exact Eq.trans h h'
    case BIT.BIT.BIT =>
      exact ⟨h.1.trans h'.1, fun none => (h.2 none).trans (h'.2 (h.1.symm.trans none))⟩
    all_goals first | exact h.elim | exact h'.elim

/-- The object of a request, with the 16 bytes that were in memory where a BITSubscriber has its
address. -/
structure RequestObject where
  request : AgpsRequest
  bytes : Vector UInt8 16

namespace RequestObject

/-- The constructors of ATLSubscriber and BITSubscriber. -/
def client (a : RequestObject) : Client :=
  match a.request with
  | .ATL id compatibleMode => ⟨.ATLSubscriber compatibleMode, id, a.bytes⟩
  | .BIT ipv4 none => ⟨.BITSubscriber, ipv4, a.bytes.set 0 0⟩
  | .BIT ipv4 (some ipv6) => ⟨.BITSubscriber, ipv4, ipv6⟩

def subscriber (a : RequestObject) : Subscriber Client := ⟨a.client, false⟩

/-- The string that is found where a BITSubscriber has its address. -/
def text (a : RequestObject) : List UInt8 := a.client.mIPv6Addr.toList.takeWhile (· ≠ 0)

end RequestObject

/-- When `b` is not taken for the client of the listed `a` unless it is. -/
def ToldApart (a b : RequestObject) : Prop :=
  match a.request, b.request with
  | .ATL .., .ATL .. => True
  | .BIT ipv4 ipv6, .BIT ipv4' ipv6' =>
      ipv4 = INADDR_NONE → ipv4' = INADDR_NONE → ipv6 ≠ ipv6' → a.text ≠ b.text
  | .ATL id _, .BIT ipv4 _ => id ≠ ipv4
  | .BIT ipv4 _, .ATL id _ => ipv4 = id → ipv4 = INADDR_NONE ∧ a.text ≠ b.text

theorem strncmpZero_iff {n : Nat} {s1 s2 : List UInt8} (length1 : s1.length = n)
    (length2 : s2.length = n) :
    strncmpZero n s1 s2 = true ↔ s1.takeWhile (· ≠ 0) = s2.takeWhile (· ≠ 0) := by
  induction n generalizing s1 s2 with
  | zero =>
      rw [List.length_eq_zero_iff.mp length1, List.length_eq_zero_iff.mp length2]
      exact iff_of_true rfl rfl
  | succ n ih =>
      cases s1 with
      | nil => cases length1
      | cons c s1 =>
          cases s2 with
          | nil => cases length2
          | cons d s2 =>
              have rest := ih (Nat.succ.inj length1) (Nat.succ.inj length2)
              by_cases same : c = d
              · by_cases nul : d = 0
                · simp [strncmpZero, same, nul]
                · simp [strncmpZero, same, nul, rest]
              · refine iff_of_false (by simp [strncmpZero, same]) fun equal => same ?_
                rw [List.takeWhile_cons, List.takeWhile_cons] at equal
                grind

section Equality

variable {a b : RequestObject}

/-- Two requests with one address, or without any, have the same text. -/
theorem text_congr {ipv4 ipv4' : BitVec 32} {ipv6 : Option (Vector UInt8 16)}
    (left : a.request = .BIT ipv4 ipv6) (right : b.request = .BIT ipv4' ipv6) :
    a.text = b.text := by
  cases ipv6 with
  | none =>
      have empty (bytes : Vector UInt8 16) :
          (bytes.set 0 0).toList.takeWhile (· ≠ 0) = [] := by
        rw [Vector.toList_set]
        cases bytes.toList <;> simp
      simp only [RequestObject.text, RequestObject.client, left, right, empty]
  | some address => simp only [RequestObject.text, RequestObject.client, left, right]

theorem equals_iff : a.client.equals b.client = true ↔
    a.client.ID = b.client.ID ∧
      (a.client.kind = .BITSubscriber → a.client.ID = INADDR_NONE → a.text = b.text) := by
  have compared : strncmpZero 16 a.client.mIPv6Addr.toList b.client.mIPv6Addr.toList = true ↔
      a.text = b.text := strncmpZero_iff (by simp) (by simp)
  unfold Client.equals
  cases a.client.kind with
  | BITSubscriber =>
      rw [Bool.and_eq_true, Bool.or_eq_true, compared]
      simp
      grind
  | ATLSubscriber mode => simp
  | WIFISubscriber => simp
  | DSSubscriber => simp

theorem client_of_ATL {id : BitVec 32} {mode : Bool} (request : a.request = .ATL id mode) :
    a.client.kind = .ATLSubscriber mode ∧ a.client.ID = id := by
  simp [RequestObject.client, request]

theorem client_of_BIT {ipv4 : BitVec 32} {ipv6 : Option (Vector UInt8 16)}
    (request : a.request = .BIT ipv4 ipv6) :
    a.client.kind = .BITSubscriber ∧ a.client.ID = ipv4 := by
  cases ipv6 <;> simp [RequestObject.client, request]

/-- A pair of requests is treated right exactly when it is told apart. -/
theorem toldApart_iff :
    ToldApart a b ↔ (a.client.equals b.client = true ↔ SameClient a.request b.request) := by
  rw [equals_iff]
  cases left : a.request with
  | ATL id mode =>
      have listed := client_of_ATL left
      cases right : b.request with
      | ATL id' mode' =>
          have asked := client_of_ATL right
          simp [ToldApart, left, right, listed, asked, SameClient]
      | BIT ipv4 ipv6 =>
          have asked := client_of_BIT right
          simp [ToldApart, left, right, listed, asked, SameClient]
  | BIT ipv4 ipv6 =>
      have listed := client_of_BIT left
      cases right : b.request with
      | ATL id mode =>
          have asked := client_of_ATL right
          simp only [ToldApart, left, right, listed, asked, SameClient]
          grind
      | BIT ipv4' ipv6' =>
          have asked := client_of_BIT right
          have same : ipv6 = ipv6' → a.text = b.text := fun eq => text_congr left (eq ▸ right)
          simp only [ToldApart, left, right, listed, asked, SameClient]
          grind

end Equality

section Searches

variable {κ μ : Type} [SubscriberKind κ] {m : AgpsStateMachine κ μ} {s : Subscriber κ}

theorem addSubscriber_swallows :
    (m.addSubscriber s).mSubscribers = m.mSubscribers ↔
      ∃ t ∈ m.mSubscribers, t.equals s = true := by
  rw [addSubscriber_eq]
  cases listed : m.mSubscribers.any (·.equals s) with
  | true => exact iff_of_true rfl (List.any_eq_true.mp listed)
  | false =>
      refine iff_of_false (by simp) fun found => ?_
      exact Bool.false_ne_true (listed.symm.trans (List.any_eq_true.mpr found))

variable [AgpsVirtual κ μ]

theorem unsubscribeRsrc_finds :
    (m.unsubscribeRsrc s).1 = true ↔ ∃ t ∈ m.mSubscribers, t.equals s = true := by
  apply (unsubscribeRsrc_cases s m).elim
  · intro ⟨absent, others⟩
    rw [absent]
    exact iff_of_false Bool.false_ne_true fun ⟨t, listed, equal⟩ =>
      Bool.false_ne_true ((others t listed).symm.trans equal)
  · intro ⟨i, t, index, equal, found⟩
    rw [found]
    exact iff_of_true rfl ⟨t, List.mem_of_getElem? index, equal⟩

/-- A machine that is not released removes all that the one it finds equals to. -/
theorem unsubscribeRsrc_mSubscribers
    (leaves : ∀ t ∈ m.mSubscribers, SubscriberKind.waitForCloseComplete t.client = false)
    (state : m.mStatePtr ≠ .released) :
    ((m.unsubscribeRsrc s).2.mSubscribers = m.mSubscribers ∧
      ∀ t ∈ m.mSubscribers, t.equals s = false) ∨
    ∃ t ∈ m.mSubscribers, t.equals s = true ∧
      (m.unsubscribeRsrc s).2.mSubscribers = m.mSubscribers.filter (!·.equals t) := by
  apply (unsubscribeRsrc_cases s m).imp
  · intro ⟨absent, others⟩
    exact ⟨by rw [absent], others⟩
  · intro ⟨i, t, index, equal, found⟩
    have listed := List.mem_of_getElem? index
    refine ⟨t, listed, equal, ?_⟩
    have dropped (w : μ) : (({ m with world := w } : AgpsStateMachine κ μ).dropSubscriber
        i).mSubscribers = m.mSubscribers.filter (!·.equals t) := by
      have removed := notifySubscribers_delete (.to t .unsubscribe true) rfl rfl
        ({ m with world := w } : AgpsStateMachine κ μ)
      simp only [dropSubscriber, index, leaves t listed]
      exact congrArg AgpsStateMachine.mSubscribers removed
    rw [found]
    cases here : m.mStatePtr with
    | released => exact (state here).elim
    | pending | acquired =>
        simp only [dispatch, here, pendingOnRsrcEvent, acquiredOnRsrcEvent,
          releaseIfUnused_mSubscribers] at dropped ⊢
        exact dropped _
    | releasing =>
        simp only [dispatch, here, releasingOnRsrcEvent] at dropped ⊢
        split <;> exact dropped _

theorem unsubscribeRsrc_released (state : m.mStatePtr = .released) :
    (m.unsubscribeRsrc s).2.mSubscribers = m.mSubscribers := by
  apply (unsubscribeRsrc_cases s m).elim
  · intro ⟨absent, _⟩
    rw [absent]
  · intro ⟨i, t, index, _, found⟩
    rw [found]
    simp only [dispatch, state, releasedOnRsrcEvent, index]

end Searches

section Machines

variable {μ : Type} [AgpsVirtual Client μ]

/-- The machine when these requests are on its list. -/
def AgpsStateMachine.serving (list : List RequestObject) (m : AgpsStateMachine Client μ) :
    AgpsStateMachine Client μ :=
  { m with mSubscribers := list.map (·.subscriber) }

/-- What the machine does to the clients on its list when `b` is asked. -/
structure Identifies (m : AgpsStateMachine Client μ) (list : List RequestObject)
    (b : RequestObject) : Prop where
  /-- The request is swallowed when its client is listed. -/
  swallowed : ((m.serving list).addSubscriber b.subscriber).mSubscribers =
    (m.serving list).mSubscribers ↔ ∃ a ∈ list, SameClient a.request b.request
  /-- The release finds a subscriber when its client is listed. -/
  found : ((m.serving list).unsubscribeRsrc b.subscriber).1 = true ↔
    ∃ a ∈ list, SameClient a.request b.request
  /-- The release removes its own client and no other, in Released nobody. -/
  removed : ((m.serving list).unsubscribeRsrc b.subscriber).2.mSubscribers =
    (list.filter fun a => m.mStatePtr = .released ∨ ¬SameClient a.request b.request).map
      (·.subscriber)

variable {m : AgpsStateMachine Client μ} {callers : Set RequestObject}

@[simp] theorem subscriber_equals (a b : RequestObject) :
    a.subscriber.equals b.subscriber = a.client.equals b.client := rfl

/-- Neither class waits for the connection to close. -/
theorem subscriber_leaves (a : RequestObject) :
    SubscriberKind.waitForCloseComplete a.subscriber.client = false := by
  cases request : a.request with
  | ATL id mode =>
      simp [RequestObject.subscriber, SubscriberKind.waitForCloseComplete,
        Client.waitForCloseComplete, client_of_ATL request]
  | BIT ipv4 ipv6 =>
      simp [RequestObject.subscriber, SubscriberKind.waitForCloseComplete,
        Client.waitForCloseComplete, client_of_BIT request]

omit [AgpsVirtual Client μ] in
theorem listed_iff {list : List RequestObject} {b : RequestObject}
    (right : ∀ a ∈ list, (a.client.equals b.client = true ↔ SameClient a.request b.request)) :
    (∃ t ∈ (m.serving list).mSubscribers, t.equals b.subscriber = true) ↔
      ∃ a ∈ list, SameClient a.request b.request := by
  simp only [serving, List.mem_map, exists_exists_and_eq_and, subscriber_equals]
  exact exists_congr fun a => and_congr_right fun listed => right a listed

theorem identifies_of_toldApart (apart : ∀ a ∈ callers, ∀ b ∈ callers, ToldApart a b)
    {list : List RequestObject} {b : RequestObject} (members : ∀ a ∈ list, a ∈ callers)
    (asked : b ∈ callers) : Identifies m list b := by
  have right (a c : RequestObject) (ha : a ∈ callers) (hc : c ∈ callers) :=
    toldApart_iff.mp (apart a ha c hc)
  have known := listed_iff (m := m) fun a listed => right a b (members a listed) asked
  refine ⟨addSubscriber_swallows.trans known, unsubscribeRsrc_finds.trans known, ?_⟩
  by_cases state : m.mStatePtr = .released
  · rw [unsubscribeRsrc_released (m := m.serving list) state]
    simp [state, serving]
  · have leaves : ∀ t ∈ (m.serving list).mSubscribers,
        SubscriberKind.waitForCloseComplete t.client = false :=
      List.forall_mem_map.mpr fun a _ => subscriber_leaves a
    apply (unsubscribeRsrc_mSubscribers (s := b.subscriber) leaves state).elim
    · intro ⟨same, others⟩
      have stays : ∀ a ∈ list, ¬SameClient a.request b.request := fun a listed client =>
        Bool.false_ne_true ((List.forall_mem_map.mp others a listed).symm.trans
          ((right a b (members a listed) asked).mpr client))
      rw [same, List.filter_eq_self.mpr fun a listed => by simp [stays a listed]]
      rfl
    · intro ⟨t, listed, equal, removed⟩
      apply (List.mem_map.mp listed).elim
      intro a ⟨own, eq⟩
      subst eq
      rw [removed, serving, List.filter_map]
      congr 1
      apply List.filter_congr
      intro c member
      have client := (right a b (members a own) asked).mp equal
      have equal_iff := right c a (members c member) (members a own)
      have same_iff : SameClient c.request a.request ↔ SameClient c.request b.request :=
        ⟨fun h => sameClient_equivalence.trans h client,
          fun h => sameClient_equivalence.trans h (sameClient_equivalence.symm client)⟩
      rw [same_iff] at equal_iff
      simp [state, ← equal_iff]

/-- A machine tells its clients apart exactly when each pair of their requests is told apart. -/
theorem clients_are_identified_iff (m : AgpsStateMachine Client μ) (callers : Set RequestObject) :
    (∀ list b, (∀ a ∈ list, a ∈ callers) → b ∈ callers → Identifies m list b) ↔
      ∀ a ∈ callers, ∀ b ∈ callers, ToldApart a b := by
  constructor
  · intro identified a ha b hb
    have pair := identified [a] b (by simpa using ha) hb
    have known := addSubscriber_swallows.symm.trans pair.swallowed
    simpa [toldApart_iff, serving] using known
  · exact fun apart list b members asked => identifies_of_toldApart apart members asked

end Machines

/-- The address 2000::last -/
def ipv6Address (last : UInt8) : Vector UInt8 16 :=
  ((Vector.replicate 16 0).set 0 0x20).set 15 last

/-- A client of the BIT daemon is taken for the modem's, and 2000::2 for 2000::1. -/
theorem clients_are_taken_for_each_other :
    ¬Identifies (.new false ⟨3, none, -1, []⟩ : AgpsStateMachine Client Replies)
        [⟨.ATL 7 false, Vector.replicate 16 0⟩] ⟨.BIT 7 none, Vector.replicate 16 0⟩ ∧
      ¬Identifies (.new false ⟨3, none, -1, []⟩ : AgpsStateMachine Client Replies)
        [⟨.BIT INADDR_NONE (some (ipv6Address 1)), Vector.replicate 16 0⟩]
        ⟨.BIT INADDR_NONE (some (ipv6Address 2)), Vector.replicate 16 0⟩ := by
  constructor
  · intro identified
    exact absurd (identified.swallowed.mp (by decide)) (by decide)
  · intro identified
    exact absurd (identified.swallowed.mp (by decide)) (by decide)

end Msm8974.Agps
