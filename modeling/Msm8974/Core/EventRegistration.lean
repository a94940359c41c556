import Msm8974.Core.AdapterRegistry
import Msm8974.Library.Runs

/-!
Which events the modem reports: LocOpenMsg and LocSsrMsg of LocApiBase.cpp between the registry and
open(), which is virtual and may be any function of what is registered and the mask it gets. The
messages wait for the worker, close() runs on the caller's thread, and the adapters' calls do not
overlap.
-/

namespace Msm8974.Core
open Slots Runs
universe u
variable {Adapter : Type u}

inductive LocMsg
  | locOpen (mMask : EventMask)
  | locSsr
  deriving DecidableEq

/-- `opened` is the mask that the modem has registered, `none` while it has no client. -/
structure World (Adapter : Type u) where
  api : LocApiBase Adapter
  msgs : List LocMsg
  opened : Option EventMask

inductive Label (Adapter : Type u)
  /-- a call of the registry -/
  | call (event : Event Adapter)
  /-- handleEngineUpEvent(): the modem was restarted and knows no client -/
  | engineUp
  /-- the worker takes up the next message -/
  | proc

namespace World
variable (opening : Option EventMask → EventMask → EventMask)

def new (excludedMask : EventMask) (mEvtMask : Adapter → EventMask) : World Adapter :=
  ⟨.new excludedMask mEvtMask, [], none⟩

def deliver (w : World Adapter) : Call → World Adapter
  | .open mask => { w with msgs := w.msgs ++ [.locOpen mask] }
  | .close => { w with opened := none }

/-- What proc() leaves registered. -/
def procMsg (api : LocApiBase Adapter) (opened : Option EventMask) : LocMsg → Option EventMask
  | .locOpen mMask => some (opening opened mMask)
  | .locSsr => some (opening none api.getEvtMask)

variable [DecidableEq Adapter]

def step (w : World Adapter) : Label Adapter → Option (World Adapter)
  | .call event =>
      let api := { w.api with calls := [] }.step event
      some (api.calls.foldl deliver { w with api })
  | .engineUp => some { w with msgs := w.msgs ++ [.locSsr], opened := none }
  | .proc =>
      match w.msgs with
      | [] => none
      | msg :: msgs => some { w with msgs, opened := procMsg opening w.api w.opened msg }

end World

/-- open() adds to what is registered; what is excluded it may leave out. -/
structure Adds (excludedMask : EventMask) (opening : Option EventMask → EventMask → EventMask) :
    Prop where
  keeps : ∀ held mask i, held.getLsbD i = true → (opening (some held) mask).getLsbD i = true
  adds : ∀ held mask i, mask.getLsbD i = true → excludedMask.getLsbD i = false →
    (opening held mask).getLsbD i = true

namespace World
variable (opening : Option EventMask → EventMask → EventMask)

/-- What is registered once the messages on their way are processed. -/
def settled (w : World Adapter) : Option EventMask :=
  w.msgs.foldl (procMsg opening w.api) w.opened

/-- Each adapter has its events registered, and the modem has a client as long as there is an
adapter. -/
structure Agrees (w : World Adapter) : Prop where
  covers : ∀ adapter, some adapter ∈ w.api.mLocAdapters.toList → ∀ i,
    (w.api.mEvtMask adapter).getLsbD i = true → w.api.mExcludedMask.getLsbD i = false →
    ((w.settled opening).getD 0).getLsbD i = true
  closed : w.settled opening = none ↔ w.api.mLocAdapters = Vector.replicate maxAdapters none

/-- The last adapter does not go while messages are on their way, and without an adapter there is
neither a call of updateEvtMask() nor an engine that comes up. -/
def Careful (w : World Adapter) : Label Adapter → Prop
  | .call (.removeAdapter adapter) =>
      some adapter ∈ w.api.mLocAdapters.toList →
        (∀ slot ∈ w.api.mLocAdapters.toList, slot = none ∨ slot = some adapter) → w.msgs = []
  | .call (.updateEvtMask _ _ _) | .engineUp =>
      w.api.mLocAdapters ≠ Vector.replicate maxAdapters none
  | .call (.addAdapter _) | .proc => True

end World

section Registry
variable {slots : Vector (Option Adapter) maxAdapters} {xs : List Adapter} {adapter : Adapter}
  {api : LocApiBase Adapter}

theorem some_mem_iff (holds : Holds slots xs) : some adapter ∈ slots.toList ↔ adapter ∈ xs := by
  rw [Vector.mem_toList_iff, Vector.mem_iff_getElem]
  constructor
  · rintro ⟨i, h, here⟩
    obtain ⟨inside, rfl⟩ := (holds.eq_some_iff h).mp here
    exact List.getElem_mem inside
  · intro mem
    obtain ⟨i, inside, rfl⟩ := List.getElem_of_mem mem
    have h : i < maxAdapters := Nat.lt_of_lt_of_le inside holds.length_le
    exact ⟨i, h, (holds.eq_some_iff h).mpr ⟨inside, rfl⟩⟩

/-- The adapter is the only one. -/
theorem alone_iff (holds : Holds slots xs) (nodup : xs.Nodup) (mem : adapter ∈ xs) :
    (∀ slot ∈ slots.toList, slot = none ∨ slot = some adapter) ↔ xs = [adapter] := by
  constructor
  · intro alone
    refine List.perm_singleton.mp ((List.perm_ext_iff_of_nodup nodup (List.nodup_singleton _)).mpr
      fun other => ?_)
    rw [List.mem_singleton]
    constructor
    · intro here
      cases alone _ ((some_mem_iff holds).mpr here) with
      | inl none => cases none
      | inr same => exact Option.some.inj same
    · rintro rfl
      exact mem
  · rintro rfl slot here
    cases slot with
    | none => exact .inl rfl
    | some other =>
        exact .inr (congrArg some (List.mem_singleton.mp ((some_mem_iff holds).mp here)))

theorem getEvtMask_bit (holds : Holds api.mLocAdapters xs) (i : Nat) :
    api.getEvtMask.getLsbD i = true ↔ (∃ adapter ∈ xs, (api.mEvtMask adapter).getLsbD i = true) ∧
      api.mExcludedMask.getLsbD i = false := by
  have union (mask : EventMask) :
      (xs.foldl (fun mask adapter => mask ||| api.mEvtMask adapter) mask).getLsbD i = true ↔
        mask.getLsbD i = true ∨ ∃ adapter ∈ xs, (api.mEvtMask adapter).getLsbD i = true := by
    clear holds
    induction xs generalizing mask with
    | nil => simp
    | cons first rest ih =>
        rw [List.foldl_cons, ih, List.exists_mem_cons_iff, BitVec.getLsbD_or, Bool.or_eq_true,
          or_assoc]
  rw [LocApiBase.getEvtMask_eq holds, BitVec.getLsbD_and, Bool.and_eq_true, union,
    BitVec.getLsbD_not, Bool.and_eq_true, Bool.not_eq_true', decide_eq_true_eq]
  constructor
  · rintro ⟨here, -, free⟩
    exact ⟨by simpa using here, free⟩
  · rintro ⟨⟨adapter, mem, bit⟩, free⟩
    exact ⟨.inr ⟨adapter, mem, bit⟩, BitVec.lt_of_getLsbD bit, free⟩

variable [DecidableEq Adapter]

theorem addFrom_full (holds : Holds api.mLocAdapters xs) (absent : adapter ∉ xs)
    (full : maxAdapters ≤ xs.length) (i : Nat) : LocApiBase.addFrom adapter i api = api := by
  induction gap : maxAdapters - i generalizing i with
  | zero => rw [LocApiBase.addFrom, dif_neg (by omega)]
  | succ gap' ih =>
      have h : i < maxAdapters := by omega
      have inside : i < xs.length := Nat.lt_of_lt_of_le h full
      rw [LocApiBase.addFrom, dif_pos h, if_neg, if_neg (by rw [holds.eq_none_iff h]; omega)]
      · exact ih (i + 1) (by omega)
      · rw [holds.eq_some_iff h]
        rintro ⟨_, rfl⟩
        exact absent (List.getElem_mem inside)

end Registry

namespace World
variable {opening : Option EventMask → EventMask → EventMask} {w t : World Adapter}
  {xs ys : List Adapter} {l : Label Adapter} {excludedMask : EventMask}

/-- The registry holds these adapters. -/
structure Registry (excludedMask : EventMask) (w : World Adapter) (xs : List Adapter) : Prop where
  holds : Holds w.api.mLocAdapters xs
  nodup : xs.Nodup
  excluded : w.api.mExcludedMask = excludedMask

/-- What a step does with the adapters, the messages and the modem. -/
inductive Moves (opening : Option EventMask → EventMask → EventMask) (w : World Adapter)
    (xs : List Adapter) : Label Adapter → World Adapter → List Adapter → Prop
  | idle {event : Event Adapter} {t : World Adapter} :
      (∀ adapter event' isEnabled, event ≠ .updateEvtMask adapter event' isEnabled) →
      (∀ adapter, event = .removeAdapter adapter → adapter ∉ xs) →
      t.api.getEvtMask = w.api.getEvtMask → t.api.mEvtMask = w.api.mEvtMask →
      t.msgs = w.msgs → t.opened = w.opened → Moves opening w xs (.call event) t xs
  | added {adapter : Adapter} {t : World Adapter} :
      adapter ∉ xs → t.api.mEvtMask = w.api.mEvtMask →
      t.msgs = w.msgs ++ [.locOpen (w.api.mEvtMask adapter)] → t.opened = w.opened →
      Moves opening w xs (.call (.addAdapter adapter)) t (xs ++ [adapter])
  | removed {adapter : Adapter} {t : World Adapter} {ys : List Adapter} :
      adapter ∈ xs → xs ≠ [adapter] → ys ≠ [] → ys ⊆ xs → t.api.mEvtMask = w.api.mEvtMask →
      t.msgs = w.msgs ++ [.locOpen t.api.getEvtMask] → t.opened = w.opened →
      Moves opening w xs (.call (.removeAdapter adapter)) t ys
  | emptied {adapter : Adapter} {t : World Adapter} :
      xs = [adapter] → t.msgs = w.msgs → t.opened = none →
      Moves opening w xs (.call (.removeAdapter adapter)) t []
  | updated {adapter : Adapter} {event : EventMask} {isEnabled : Bool} {t : World Adapter} :
      t.msgs = w.msgs ++ [.locOpen t.api.getEvtMask] → t.opened = w.opened →
      Moves opening w xs (.call (.updateEvtMask adapter event isEnabled)) t xs
  | engineUp :
      Moves opening w xs .engineUp { w with msgs := w.msgs ++ [.locSsr], opened := none } xs
  | proc {msg : LocMsg} {msgs : List LocMsg} :
      w.msgs = msg :: msgs →
      Moves opening w xs .proc { w with msgs, opened := procMsg opening w.api w.opened msg } xs

section Moves
variable [DecidableEq Adapter]

theorem moves_addAdapter (r : w.Registry excludedMask xs) (adapter : Adapter)
    (h : w.step opening (.call (.addAdapter adapter)) = some t) :
    ∃ ys, Moves opening w xs (.call (.addAdapter adapter)) t ys ∧ t.Registry excludedMask ys := by
  obtain rfl := Option.some.inj h
  have holds : Holds { w.api with calls := [] }.mLocAdapters xs := r.holds
  by_cases mem : adapter ∈ xs
  · obtain ⟨j, hj, found⟩ := List.mem_iff_getElem.mp mem
    have same := LocApiBase.addFrom_of_mem holds (Nat.zero_le j) hj found
    refine ⟨xs, ?_, ?_⟩
    all_goals simp only [LocApiBase.step, LocApiBase.addAdapter, same, List.foldl_nil]
    · exact .idle (by simp) (by simp) rfl rfl rfl rfl
    · exact ⟨r.holds, r.nodup, r.excluded⟩
  · by_cases room : xs.length < maxAdapters
    · have put := LocApiBase.addFrom_of_not_mem holds mem room (Nat.zero_le _)
      refine ⟨xs ++ [adapter], ?_, ?_⟩
      all_goals simp only [LocApiBase.step, LocApiBase.addAdapter, put]
      · exact .added mem rfl rfl rfl
      · have nodup : (xs ++ [adapter]).Nodup :=
          List.nodup_append_comm.mp (List.nodup_cons.mpr ⟨mem, r.nodup⟩)
        exact ⟨r.holds.append room adapter, nodup, r.excluded⟩
    · have same := addFrom_full holds mem (Nat.le_of_not_lt room) 0
      refine ⟨xs, ?_, ?_⟩
      all_goals simp only [LocApiBase.step, LocApiBase.addAdapter, same, List.foldl_nil]
      · exact .idle (by simp) (by simp) rfl rfl rfl rfl
      · exact ⟨r.holds, r.nodup, r.excluded⟩

theorem moves_removeAdapter (r : w.Registry excludedMask xs) (adapter : Adapter)
    (h : w.step opening (.call (.removeAdapter adapter)) = some t) :
    ∃ ys, Moves opening w xs (.call (.removeAdapter adapter)) t ys ∧
      t.Registry excludedMask ys := by
  obtain rfl := Option.some.inj h
  have holds : Holds { w.api with calls := [] }.mLocAdapters xs := r.holds
  by_cases mem : adapter ∈ xs
  · obtain ⟨j, hj, rfl⟩ := List.mem_iff_getElem.mp mem
    have below : j < maxAdapters := Nat.lt_of_lt_of_le hj holds.length_le
    have inside : xs.length - 1 < maxAdapters := by have := holds.length_le; omega
    have gone := LocApiBase.removeFrom_of_mem holds r.nodup (Nat.zero_le j) hj rfl below inside
    have holds' := LocApiBase.withoutSlot_holds holds hj below inside
    have perm := moveLast_perm_erase hj r.nodup
    have nodup' := perm.nodup_iff.mpr (r.nodup.erase xs[j])
    have length := perm.length_eq
    rw [List.length_erase_of_mem mem] at length
    by_cases only : xs.length - 1 = 0
    · have alone : xs = [xs[j]] := by
        obtain ⟨x, rfl⟩ := List.length_eq_one_iff.mp (by omega : xs.length = 1)
        simp
      have empty : moveLast xs j = [] := List.eq_nil_of_length_eq_zero (length.trans only)
      refine ⟨[], ?_, ?_⟩
      all_goals simp only [LocApiBase.step, LocApiBase.removeAdapter, gone, if_pos only]
      · exact .emptied alone rfl rfl
      · exact ⟨empty ▸ holds', List.nodup_nil, r.excluded⟩
    · refine ⟨moveLast xs j, ?_, ?_⟩
      all_goals simp only [LocApiBase.step, LocApiBase.removeAdapter, gone, if_neg only]
      · refine .removed mem ?_ ?_ ?_ rfl rfl rfl
        · intro alone
          rw [alone] at only
          exact only rfl
        · exact List.ne_nil_of_length_pos (by omega)
        · exact List.Subset.trans perm.subset List.erase_subset
      · exact ⟨holds', nodup', r.excluded⟩
  · have same := LocApiBase.removeAdapter_of_not_mem holds mem
    refine ⟨xs, ?_, ?_⟩
    all_goals simp only [LocApiBase.step, same, List.foldl_nil]
    · exact .idle (by simp) (by simpa using mem) rfl rfl rfl rfl
    · exact ⟨r.holds, r.nodup, r.excluded⟩

/-- Every step is one of them. -/
theorem moves_of_step (r : w.Registry excludedMask xs) (h : w.step opening l = some t) :
    ∃ ys, Moves opening w xs l t ys ∧ t.Registry excludedMask ys := by
  cases l with
  | call event =>
      cases event with
      | addAdapter adapter => exact moves_addAdapter r adapter h
      | removeAdapter adapter => exact moves_removeAdapter r adapter h
      | updateEvtMask adapter event isEnabled =>
          obtain rfl := Option.some.inj h
          exact ⟨xs, .updated rfl rfl, r.holds, r.nodup, r.excluded⟩
  | engineUp =>
      obtain rfl := Option.some.inj h
      exact ⟨xs, .engineUp, r.holds, r.nodup, r.excluded⟩
  | proc =>
      rw [step] at h
      split at h
      · cases h
      · next msg msgs first =>
          obtain rfl := Option.some.inj h
          exact ⟨xs, .proc first, r.holds, r.nodup, r.excluded⟩

end Moves

section Settling
variable {api api' : LocApiBase Adapter} {msgs : List LocMsg} {opened : Option EventMask} {i : Nat}

theorem foldl_isSome (msgs : List LocMsg) (opened : Option EventMask) :
    msgs.foldl (procMsg opening api) opened = none ↔ msgs = [] ∧ opened = none := by
  induction msgs generalizing opened with
  | nil => simp
  | cons msg msgs ih =>
      rw [List.foldl_cons, ih]
      cases msg <;> simp [procMsg]

/-- Only LocSsrMsg looks at the registry. -/
theorem foldl_congr (plain : .locSsr ∉ msgs) (opened : Option EventMask) :
    msgs.foldl (procMsg opening api) opened = msgs.foldl (procMsg opening api') opened := by
  induction msgs generalizing opened with
  | nil => rfl
  | cons msg msgs ih =>
      obtain ⟨first, rest⟩ := not_or.mp (mt List.mem_cons.mpr plain)
      cases msg with
      | locOpen mMask => exact ih rest _
      | locSsr => exact absurd rfl first

theorem bit_open (adds : Adds excludedMask opening) {held : Option EventMask} (mMask : EventMask)
    (bit : (held.getD 0).getLsbD i = true) :
    ((procMsg opening api held (.locOpen mMask)).getD 0).getLsbD i = true := by
  cases held with
  | none => simp at bit
  | some held => exact adds.keeps held mMask i bit

/-- After LocSsrMsg the events of all adapters are registered, and they stay. -/
theorem bit_of_ssr (adds : Adds excludedMask opening) (free : excludedMask.getLsbD i = false)
    (bit : api.getEvtMask.getLsbD i = true) (sent : .locSsr ∈ msgs) (opened : Option EventMask) :
    ((msgs.foldl (procMsg opening api) opened).getD 0).getLsbD i = true := by
  induction msgs using List.reverseRecOn with
  | nil => cases sent
  | append_singleton msgs msg ih =>
      rw [List.foldl_concat]
      cases msg with
      | locOpen mMask =>
          refine bit_open adds mMask (ih ?_)
          simpa using sent
      | locSsr => exact adds.adds none _ i bit free

end Settling

section Steps

theorem settled_append (msg : LocMsg) (h : t.msgs = w.msgs ++ [msg]) :
    t.settled opening =
      procMsg opening t.api (w.msgs.foldl (procMsg opening t.api) t.opened) msg := by
  rw [settled, h, List.foldl_concat]

/-- A message that opens with the mask of the registry covers all adapters. -/
theorem agrees_of_update (adds : Adds excludedMask opening) (r : t.Registry excludedMask xs)
    (msg : LocMsg) (opens : msg = .locOpen t.api.getEvtMask ∨ msg = .locSsr)
    (h : t.msgs = w.msgs ++ [msg]) : t.Agrees opening ↔ xs ≠ [] := by
  have opened (held : Option EventMask) : ∃ held', procMsg opening t.api held msg =
      some (opening held' t.api.getEvtMask) := by
    obtain rfl | rfl := opens
    · exact ⟨held, rfl⟩
    · exact ⟨none, rfl⟩
  obtain ⟨held, after⟩ := opened (w.msgs.foldl (procMsg opening t.api) t.opened)
  have settled : t.settled opening = some (opening held t.api.getEvtMask) :=
    (settled_append msg h).trans after
  constructor
  · rintro ⟨-, closed⟩ rfl
    rw [settled, r.holds.eq_replicate_iff] at closed
    exact absurd (closed.mpr rfl) (by simp)
  · intro some_adapter
    refine ⟨fun adapter mem i bit free => ?_, ?_⟩
    · rw [settled]
      rw [r.excluded] at free
      refine adds.adds held _ i ((getEvtMask_bit r.holds i).mpr ⟨⟨adapter, ?_, bit⟩, ?_⟩) free
      · exact (some_mem_iff r.holds).mp mem
      · rw [r.excluded, free]
    · rw [settled, r.holds.eq_replicate_iff]
      exact iff_of_false (by simp) some_adapter

/-- A step keeps the registration in agreement exactly if it is careful. -/
theorem agrees_step (adds : Adds excludedMask opening) (r : w.Registry excludedMask xs)
    (agrees : w.Agrees opening) (moves : Moves opening w xs l t ys)
    (r' : t.Registry excludedMask ys) : t.Agrees opening ↔ w.Careful l := by
  cases moves with
  | @idle event _ calm absent same masks sent opened =>
      refine iff_of_true ?_ ?_
      · have procs : procMsg opening t.api = procMsg opening w.api := by
          funext held msg
          cases msg with
          | locOpen mMask => rfl
          | locSsr => rw [procMsg, procMsg, same]
        have settled : t.settled opening = w.settled opening := by
          rw [World.settled, World.settled, procs, sent, opened]
        refine ⟨fun adapter mem i bit free => ?_, ?_⟩
        · rw [settled]
          refine agrees.covers adapter ?_ i (masks ▸ bit) ?_
          · exact (some_mem_iff r.holds).mpr ((some_mem_iff r'.holds).mp mem)
          · rw [r.excluded, ← r'.excluded, free]
        · rw [settled, agrees.closed, r.holds.eq_replicate_iff, r'.holds.eq_replicate_iff]
      · cases event with
        | addAdapter adapter => trivial
        | removeAdapter adapter =>
            intro mem
            exact absurd ((some_mem_iff r.holds).mp mem) (absent adapter rfl)
        | updateEvtMask adapter event isEnabled => exact absurd rfl (calm adapter event isEnabled)
  | @added adapter _ absent masks sent same =>
      refine iff_of_true ⟨fun other mem i bit free => ?_, ?_⟩ trivial
      · rw [settled_append _ sent]
        rw [masks] at bit
        rw [r'.excluded] at free
        have listed := (some_mem_iff r'.holds).mp mem
        obtain old | new := List.mem_append.mp listed
        · refine bit_open adds _ ?_
          by_cases ssr : .locSsr ∈ w.msgs
          · refine bit_of_ssr adds free ((getEvtMask_bit r'.holds i).mpr ⟨?_, ?_⟩) ssr _
            · exact ⟨other, listed, masks ▸ bit⟩
            · rw [r'.excluded, free]
          · rw [foldl_congr ssr, same]
            refine agrees.covers other ((some_mem_iff r.holds).mpr old) i bit ?_
            rw [r.excluded, free]
        · obtain rfl := List.mem_singleton.mp new
          exact adds.adds _ _ i bit free
      · rw [settled_append _ sent, r'.holds.eq_replicate_iff]
        exact iff_of_false (by simp [procMsg]) (by simp)
  | @removed adapter _ _ mem several nonempty subset masks sent same =>
      refine iff_of_true ((agrees_of_update adds r' _ (.inl rfl) sent).mpr nonempty) ?_
      intro _ alone
      exact absurd ((alone_iff r.holds r.nodup mem).mp alone) several
  | @emptied adapter _ alone sent closed =>
      have mem : adapter ∈ xs := alone ▸ List.mem_singleton_self adapter
      have empty : t.settled opening = none ↔ w.msgs = [] := by
        rw [World.settled, foldl_isSome, closed, sent, and_iff_left rfl]
      constructor
      · intro agrees' _ _
        exact empty.mp (agrees'.closed.mpr (r'.holds.eq_replicate_iff.mpr rfl))
      · intro careful
        refine ⟨fun other here => ?_, ?_⟩
        · exact absurd ((some_mem_iff r'.holds).mp here) List.not_mem_nil
        · rw [empty, r'.holds.eq_replicate_iff]
          refine iff_of_true (careful ((some_mem_iff r.holds).mpr mem) ?_) rfl
          exact (alone_iff r.holds r.nodup mem).mpr alone
  | updated sent same =>
      rw [agrees_of_update adds r' _ (.inl rfl) sent, Careful, Ne, Ne, r.holds.eq_replicate_iff]
  | engineUp =>
      rw [agrees_of_update (w := w) adds r' _ (.inr rfl) rfl, Careful, Ne, Ne,
        r.holds.eq_replicate_iff]
  | @proc msg msgs first =>
      have settled : World.settled opening { w with
          msgs, opened := procMsg opening w.api w.opened msg } = w.settled opening := by
        simp only [World.settled, first, List.foldl_cons]
      refine iff_of_true ⟨fun adapter mem i bit free => ?_, ?_⟩ trivial
      · rw [settled]
        exact agrees.covers adapter mem i bit free
      · rw [settled]
        exact agrees.closed

end Steps

section Runs

theorem getEvtMask_of_holds (r : w.Registry excludedMask xs) :
    w.api.getEvtMask =
      xs.foldl (fun mask adapter => mask ||| w.api.mEvtMask adapter) 0 &&& ~~~ excludedMask := by
  rw [LocApiBase.getEvtMask_eq r.holds, r.excluded]

theorem and_not_of_free {mask : EventMask} (free : mask &&& excludedMask = 0) :
    mask &&& ~~~ excludedMask = mask := by
  refine BitVec.eq_of_getLsbD_eq fun i small => ?_
  have bit := congrArg (fun m : EventMask => m.getLsbD i) free
  simp only [BitVec.getLsbD_and, BitVec.getLsbD_not, small, decide_true, Bool.true_and] at bit ⊢
  cases here : mask.getLsbD i with
  | false => rfl
  | true => simpa [here] using bit

theorem new_registry (excludedMask : EventMask) (mEvtMask : Adapter → EventMask) :
    (new excludedMask mEvtMask).Registry excludedMask [] :=
  ⟨holds_replicate, List.nodup_nil, rfl⟩

theorem new_agrees (excludedMask : EventMask) (mEvtMask : Adapter → EventMask) :
    (new excludedMask mEvtMask).Agrees opening where
  covers adapter mem _ _ _ := by
    have none := (some_mem_iff (new_registry excludedMask mEvtMask).holds).mp mem
    cases none
  closed := iff_of_true rfl rfl

variable [DecidableEq Adapter]

/-- In any order of calls, restarts of the modem and work of the message task, with any open() that
adds to what is registered. -/
theorem registration_agrees_iff (excludedMask : EventMask) (mEvtMask : Adapter → EventMask)
    (adds : Adds excludedMask opening) {ls : List (Label Adapter)} {t : World Adapter}
    (run : Run (step opening) (new excludedMask mEvtMask) ls t) :
    Throughout (step opening) (Agrees opening) (new excludedMask mEvtMask) ls ↔
      Meets (step opening) Careful (new excludedMask mEvtMask) ls := by
  refine run.throughout_iff_meets (I := fun w => ∃ xs, w.Registry excludedMask xs) ?_ ?_
    ⟨[], new_registry excludedMask mEvtMask⟩ (new_agrees excludedMask mEvtMask)
  · intro w l t ⟨xs, r⟩ agrees h
    obtain ⟨ys, moves, r'⟩ := moves_of_step r h
    exact agrees_step adds r agrees moves r'
  · intro w l t ⟨xs, r⟩ h
    obtain ⟨ys, -, r'⟩ := moves_of_step r h
    exact ⟨ys, r'⟩

instance (w : World Adapter) : (l : Label Adapter) → Decidable (w.Careful l)
  | .call (.addAdapter _) | .proc => isTrue trivial
  | .call (.removeAdapter _) => inferInstanceAs (Decidable (_ → _ → _))
  | .call (.updateEvtMask _ _ _) | .engineUp => inferInstanceAs (Decidable (_ ≠ _))

def orderly : List (Label Nat) :=
  [.call (.addAdapter 1), .call (.addAdapter 2), .proc, .engineUp, .proc, .proc,
    .call (.removeAdapter 1), .proc, .call (.removeAdapter 2)]

/-- An open() that adds. -/
def union (held : Option EventMask) (mask : EventMask) : EventMask := held.getD 0 ||| mask

theorem orderly_registration_agrees : ∃ t,
    Run (step union) (new 0 fun adapter : Nat => .ofNat 32 adapter) orderly t ∧
      Throughout (step union) (Agrees union) (new 0 fun adapter : Nat => .ofNat 32 adapter)
        orderly := by
  have adds : Adds 0 union :=
    ⟨fun held mask i bit => by simp [union, bit], fun held mask i bit _ => by simp [union, bit]⟩
  have goes : (orderly.foldlM (step union)
      (new 0 fun adapter : Nat => .ofNat 32 adapter)).isSome = true := by decide +kernel
  obtain ⟨t, left⟩ := Option.isSome_iff_exists.mp goes
  have run := run_iff_foldlM.mpr left
  exact ⟨t, run, (registration_agrees_iff 0 _ adds run).mpr (by decide +kernel)⟩

/-- The only adapter goes before its LocOpenMsg is processed, which opens the modem for nobody. -/
example : ¬ Meets (step union) Careful (new 0 fun adapter : Nat => .ofNat 32 adapter)
    [.call (.addAdapter 1), .call (.removeAdapter 1), .proc] := by
  decide +kernel

section Exactness
variable {a : Adapter}

theorem step_proc {msg : LocMsg} (first : w.msgs = [msg]) :
    step opening w .proc =
      some { w with msgs := [], opened := procMsg opening w.api w.opened msg } := by
  rw [step, first]

/-- An adapter comes, and its message is processed. -/
theorem run_addAdapter (opening : Option EventMask → EventMask → EventMask)
    (r : w.Registry excludedMask xs) (absent : a ∉ xs) (room : xs.length < maxAdapters)
    (rest : w.msgs = []) :
    ∃ t, Run (step opening) w [.call (.addAdapter a), .proc] t ∧
      t.Registry excludedMask (xs ++ [a]) ∧ t.api.mEvtMask = w.api.mEvtMask ∧ t.msgs = [] ∧
      t.opened = some (opening w.opened (w.api.mEvtMask a)) := by
  have holds : Holds { w.api with calls := [] }.mLocAdapters xs := r.holds
  have put := LocApiBase.addFrom_of_not_mem holds absent room (Nat.zero_le _)
  have nodup : (xs ++ [a]).Nodup :=
    List.nodup_append_comm.mp (List.nodup_cons.mpr ⟨absent, r.nodup⟩)
  have added : step opening w (.call (.addAdapter a)) = some _ := rfl
  simp only [LocApiBase.step, LocApiBase.addAdapter, put] at added
  have sent : w.msgs ++ [.locOpen (w.api.mEvtMask a)] = [.locOpen (w.api.mEvtMask a)] := by
    rw [rest, List.nil_append]
  exact ⟨_, .cons added (.cons (step_proc sent) (.nil _)),
    ⟨r.holds.append room a, nodup, r.excluded⟩, rfl, rfl, rfl⟩

/-- The only adapter gives up events, and its message is processed. -/
theorem run_disable (opening : Option EventMask → EventMask → EventMask)
    (r : w.Registry excludedMask [a]) (rest : w.msgs = []) (event : EventMask) :
    ∃ t, Run (step opening) w [.call (.updateEvtMask a event false), .proc] t ∧
      t.Registry excludedMask [a] ∧ t.api.mEvtMask a = w.api.mEvtMask a &&& ~~~ event ∧
      t.msgs = [] ∧ t.opened = some (opening w.opened t.api.getEvtMask) := by
  have updated : step opening w (.call (.updateEvtMask a event false)) = some _ := rfl
  simp only [LocApiBase.step, LocApiBase.updateEvtMask, LocApiBase.call, List.foldl_cons,
    List.foldl_nil, List.nil_append, deliver, rest] at updated
  refine ⟨_, .cons updated (.cons (step_proc rfl) (.nil _)), ⟨r.holds, r.nodup, r.excluded⟩, ?_,
    rfl, rfl⟩
  exact Function.update_self _ _ _

/-- Whatever open() makes of the two masks, it cannot keep them exact: addAdapter() passes the mask
of one adapter and updateEvtMask() that of all of them. -/
theorem no_open_keeps_masks_exact (opening : Option EventMask → EventMask → EventMask)
    (mEvtMask : Adapter → EventMask) (a b : Adapter) (event excludedMask : EventMask)
    (free : mEvtMask a &&& excludedMask = 0) (disabled : mEvtMask a &&& event ≠ 0)
    (other : mEvtMask b = mEvtMask a &&& ~~~ event) :
    ∃ ls t, Run (step opening) (new excludedMask mEvtMask) ls t ∧
      Meets (step opening) Careful (new excludedMask mEvtMask) ls ∧ t.msgs = [] ∧
      t.opened ≠ some t.api.getEvtMask := by
  have differs : mEvtMask b ≠ mEvtMask a := by
    intro same
    refine disabled ?_
    rw [← same, other, BitVec.and_assoc]
    simp
  have distinct : b ∉ [a] := fun mem => differs (congrArg mEvtMask (List.mem_singleton.mp mem))
  obtain ⟨w, first, r, masks, rest, -⟩ := run_addAdapter opening
    (new_registry excludedMask mEvtMask) (List.not_mem_nil (a := a)) (Nat.zero_lt_succ 9) rfl
  obtain ⟨t, second, s, masks', rest', opened⟩ :=
    run_addAdapter opening r distinct (by simp [maxAdapters]) rest
  replace masks : w.api.mEvtMask = mEvtMask := masks
  obtain ⟨u, less, q, mask, rest'', opened'⟩ := run_disable opening r rest event
  have free' : mEvtMask b &&& excludedMask = 0 := by
    rw [other, BitVec.and_assoc, BitVec.and_comm (~~~ event), ← BitVec.and_assoc, free]
    simp
  have whole : t.api.getEvtMask = mEvtMask a := by
    have union : mEvtMask a ||| mEvtMask b = mEvtMask a := by
      rw [other]
      refine BitVec.eq_of_getLsbD_eq fun i _ => ?_
      cases here : (mEvtMask a).getLsbD i <;> simp [here]
    rw [getEvtMask_of_holds s, masks', masks]
    exact (congrArg (· &&& ~~~ excludedMask) (by simpa using union)).trans (and_not_of_free free)
  have part : u.api.getEvtMask = mEvtMask b := by
    rw [getEvtMask_of_holds q]
    have only : (0 ||| u.api.mEvtMask a) = mEvtMask b := by
      rw [mask, masks, other]
      exact BitVec.zero_or
    exact (congrArg (· &&& ~~~ excludedMask) only).trans (and_not_of_free free')
  have calm {ls : List (Label Adapter)} (start : World Adapter)
      (adding : ∀ l ∈ ls, l = .proc ∨ ∃ adapter, l = .call (.addAdapter adapter)) :
      Meets (step opening) Careful start ls := by
    refine meets_of_forall_mem fun l mem w => ?_
    obtain rfl | ⟨adapter, rfl⟩ := adding l mem
    · trivial
    · trivial
  by_cases exact_both : t.opened = some t.api.getEvtMask
  · refine ⟨_, u, run_append_iff.mpr ⟨w, first, less⟩, ?_, rest'', ?_⟩
    · refine first.meets_append.mpr ⟨calm _ (by simp), fun empty => ?_, fun v _ => ?_⟩
      · exact absurd (r.holds.eq_replicate_iff.mp empty) (by simp)
      · exact calm v (by simp)
    · have same : u.opened = t.opened := by rw [opened', opened, part, masks]
      rw [same, exact_both, whole, part]
      exact fun eq => differs (Option.some.inj eq).symm
  · exact ⟨_, t, run_append_iff.mpr ⟨w, first, second⟩, calm _ (by simp), rest', exact_both⟩

theorem two_masks_are_not_exact :
    ∃ ls t, Run (step union) (new 0 fun adapter : Bool => if adapter then 3 else 2) ls t ∧
      Meets (step union) Careful (new 0 fun adapter : Bool => if adapter then 3 else 2) ls ∧
      t.msgs = [] ∧ t.opened ≠ some t.api.getEvtMask :=
  no_open_keeps_masks_exact union (fun adapter : Bool => if adapter then 3 else 2) true false 1 0
    (by decide) (by decide) (by decide)

end Exactness
end Runs
end World
end Msm8974.Core
