import Mathlib.Data.List.Induction
import Msm8974.Core.LocApiBase

/-!
The array of adapters holds the adapters that were added and not removed since, in its
first slots and each once, as long as there are never more of them than slots. The two
macros go through exactly these, and the registry closes with its last adapter.
-/

namespace Msm8974.Core
open Slots
universe u v
variable {Adapter : Type u} {σ : Type v} {n : Nat} {slots : Vector (Option Adapter) n}
  {xs : List Adapter}

theorem toAllAdapters_eq (holds : Holds slots xs) (call : Adapter → σ → σ) (i : Nat) (s : σ) :
    toAllAdapters slots call i s = (xs.drop i).foldl (fun s adapter => call adapter s) s := by
  fun_induction toAllAdapters slots call i s with
  | case1 i s h empty =>
      rw [List.drop_eq_nil_of_le ((holds.eq_none_iff h).mp empty)]
      rfl
  | case2 i s h adapter found ih =>
      obtain ⟨inside, rfl⟩ := (holds.eq_some_iff h).mp found
      rw [ih, List.drop_eq_getElem_cons inside]
      rfl
  | case3 i s h =>
      rw [List.drop_eq_nil_of_le (Nat.le_trans holds.length_le (Nat.le_of_not_lt h))]
      rfl

/-- The first of the adapters that handles the call ends the traversal. -/
def firstHandling (call : Adapter → σ → Bool × σ) : List Adapter → σ → σ
  | [], s => s
  | adapter :: rest, s =>
      if (call adapter s).1 then (call adapter s).2
      else firstHandling call rest (call adapter s).2

theorem to1stHandlingAdapter_eq (holds : Holds slots xs) (call : Adapter → σ → Bool × σ)
    (i : Nat) (s : σ) :
    to1stHandlingAdapter slots call i s = firstHandling call (xs.drop i) s := by
  fun_induction to1stHandlingAdapter slots call i s with
  | case1 i s h empty =>
      rw [List.drop_eq_nil_of_le ((holds.eq_none_iff h).mp empty)]
      rfl
  | case2 i s h adapter found handled =>
      obtain ⟨inside, rfl⟩ := (holds.eq_some_iff h).mp found
      rw [List.drop_eq_getElem_cons inside, firstHandling, if_pos handled]
  | case3 i s h adapter found unhandled ih =>
      obtain ⟨inside, rfl⟩ := (holds.eq_some_iff h).mp found
      rw [ih, List.drop_eq_getElem_cons inside, firstHandling, if_neg unhandled]
  | case4 i s h =>
      rw [List.drop_eq_nil_of_le (Nat.le_trans holds.length_le (Nat.le_of_not_lt h))]
      rfl

/-- What the calls to `adapters` in order leave. -/
def afterCalls (call : Adapter → σ → Bool × σ) (adapters : List Adapter) (s : σ) : σ :=
  adapters.foldl (fun s adapter => (call adapter s).2) s

/-- The traversal calls `called`, a first part of the adapters: none of them but the last
handles the call, and the last one does unless all adapters were called. -/
structure StopsAtFirst (call : Adapter → σ → Bool × σ) (adapters called : List Adapter)
    (s : σ) : Prop where
  isPrefix : called <+: adapters
  unhandled : ∀ before adapter next after, called = before ++ adapter :: next :: after →
    (call adapter (afterCalls call before s)).1 = false
  handled : called ≠ adapters →
    ∃ before adapter, called = before ++ [adapter] ∧
      (call adapter (afterCalls call before s)).1 = true

theorem firstHandling_stops (call : Adapter → σ → Bool × σ) (adapters : List Adapter) (s : σ) :
    ∃ called, firstHandling call adapters s = afterCalls call called s ∧
      StopsAtFirst call adapters called s := by
  induction adapters generalizing s with
  | nil => exact ⟨[], rfl, List.prefix_rfl, by simp, by simp⟩
  | cons adapter rest ih =>
      rw [firstHandling]
      cases handles : (call adapter s).1 with
      | true =>
          refine ⟨[adapter], by simp [afterCalls], by simp, fun before a next after split => ?_,
            fun _ => ⟨[], adapter, rfl, handles⟩⟩
          have := congrArg List.length split
          simp at this
          omega
      | false =>
          obtain ⟨called, eq, stops⟩ := ih (call adapter s).2
          refine ⟨adapter :: called, by simpa [afterCalls] using eq,
            (List.prefix_cons_inj adapter).mpr stops.isPrefix, ?_, ?_⟩
          · intro before a next after split
            cases before with
            | nil =>
                obtain ⟨rfl, -⟩ := List.cons.inj split
                exact handles
            | cons b before =>
                obtain ⟨rfl, split'⟩ := List.cons.inj split
                exact stops.unhandled before a next after split'
          · intro more
            obtain ⟨before, last, split, isLast⟩ := stops.handled (by simpa using more)
            exact ⟨adapter :: before, last, by simp [split], isLast⟩

theorem nextNull_eq (holds : xs.length ≤ n) {i : Nat} (inside : i ≤ xs.length)
    (agree : ∀ k (h : k < n), i ≤ k → slots[k] = xs[k]?) : nextNull slots i = xs.length := by
  fun_induction nextNull slots i with
  | case1 i h empty =>
      rw [agree i h (Nat.le_refl _), Option.isNone_iff_eq_none, List.getElem?_eq_none_iff] at empty
      omega
  | case2 i h full ih =>
      rw [agree i h (Nat.le_refl _), Option.isNone_iff_eq_none, List.getElem?_eq_none_iff] at full
      exact ih (by omega) fun k hk le => agree k hk (by omega)
  | case3 i h => omega

namespace LocApiBase
variable {api : LocApiBase Adapter}

theorem getEvtMask_eq (holds : Holds api.mLocAdapters xs) :
    api.getEvtMask =
      xs.foldl (fun mask adapter => mask ||| api.mEvtMask adapter) 0 &&& ~~~ api.mExcludedMask := by
  rw [getEvtMask, toAllAdapters_eq holds, List.drop_zero]

theorem lastFrom_eq (holds : Holds api.mLocAdapters xs) {j : Nat} (hj : j < xs.length)
    (h : j < maxAdapters) :
    lastFrom (api.mLocAdapters.set j none) j = xs.length - 1 := by
  rw [lastFrom, nextNull_eq holds.length_le hj]
  intro k hk le
  rw [Vector.getElem_set_ne _ _ (by omega), holds.get k hk]

/-- The registry when the adapter in slot `j` is removed. -/
def withoutSlot (api : LocApiBase Adapter) (j last : Nat) (h : j < maxAdapters)
    (inside : last < maxAdapters) : LocApiBase Adapter :=
  let cleared := api.mLocAdapters.set j none
  { api with mLocAdapters := (cleared.set j cleared[last]).set last none }

theorem withoutSlot_holds (holds : Holds api.mLocAdapters xs) {j : Nat} (hj : j < xs.length)
    (h : j < maxAdapters) (inside : xs.length - 1 < maxAdapters) :
    Holds (api.withoutSlot j (xs.length - 1) h inside).mLocAdapters (moveLast xs j) := by
  refine holds.moveLast hj fun i hi => ?_
  simp only [withoutSlot, Vector.getElem_set]
  have last := holds.get (xs.length - 1) inside
  rw [← List.getLast?_eq_getElem?] at last
  grind

variable [DecidableEq Adapter] {adapter : Adapter}

theorem addFrom_of_mem (holds : Holds api.mLocAdapters xs) {i j : Nat} (le : i ≤ j)
    (hj : j < xs.length) (found : xs[j] = adapter) : addFrom adapter i api = api := by
  induction gap : j - i generalizing i with
  | zero =>
      obtain rfl : i = j := by omega
      have h : i < maxAdapters := Nat.lt_of_lt_of_le hj holds.length_le
      rw [addFrom, dif_pos h, if_pos ((holds.eq_some_iff h).mpr ⟨hj, found⟩)]
  | succ gap' ih =>
      have h : i < maxAdapters := Nat.lt_of_lt_of_le (by omega) holds.length_le
      rw [addFrom, dif_pos h]
      split
      · rfl
      · rw [if_neg (by rw [holds.eq_none_iff h]; omega)]
        exact ih (by omega) (by omega)

theorem addFrom_of_not_mem (holds : Holds api.mLocAdapters xs) (absent : adapter ∉ xs)
    (room : xs.length < maxAdapters) {i : Nat} (le : i ≤ xs.length) :
    addFrom adapter i api =
      { api with mLocAdapters := api.mLocAdapters.set xs.length (some adapter) }.call
        (.open (api.mEvtMask adapter)) := by
  induction gap : xs.length - i generalizing i with
  | zero =>
      obtain rfl : i = xs.length := by omega
      have empty := (holds.eq_none_iff room).mpr (Nat.le_refl _)
      rw [addFrom, dif_pos room, if_neg (by simp [empty]), if_pos empty]
  | succ gap' ih =>
      have h : i < maxAdapters := by omega
      rw [addFrom, dif_pos h, if_neg, if_neg (by rw [holds.eq_none_iff h]; omega)]
      · exact ih (by omega) (by omega)
      · rw [holds.eq_some_iff h]
        rintro ⟨inside, rfl⟩
        exact absent (List.getElem_mem inside)

theorem removeFrom_of_not_mem (holds : Holds api.mLocAdapters xs) (i : Nat)
    (absent : ∀ j (h : j < xs.length), i ≤ j → xs[j] ≠ adapter) :
    removeFrom adapter i api = api := by
  induction gap : maxAdapters - i generalizing i with
  | zero => rw [removeFrom, dif_neg (by omega)]
  | succ gap' ih =>
      have h : i < maxAdapters := by omega
      rw [removeFrom, dif_pos h]
      split
      · rfl
      · next found slot =>
          obtain ⟨inside, rfl⟩ := (holds.eq_some_iff h).mp slot
          rw [if_neg (absent i inside (Nat.le_refl i))]
          exact ih (i + 1) (fun j hj le => absent j hj (by omega)) (by omega)

theorem removeFrom_found {i last : Nat} (h : i < maxAdapters)
    (found : api.mLocAdapters[i] = some adapter)
    (isLast : lastFrom (api.mLocAdapters.set i none) i = last) (inside : last < maxAdapters) :
    removeFrom adapter i api =
      let api' := api.withoutSlot i last h inside
      removeFrom adapter (last + 1)
        (if last = 0 then api'.call .close else api'.call (.open api'.getEvtMask)) := by
  subst isLast
  rw [removeFrom, dif_pos h]
  simp only [found, if_pos]
  rfl

theorem removeFrom_of_mem (holds : Holds api.mLocAdapters xs) (nodup : xs.Nodup) {i j : Nat}
    (le : i ≤ j) (hj : j < xs.length) (found : xs[j] = adapter) (h : j < maxAdapters)
    (inside : xs.length - 1 < maxAdapters) :
    removeFrom adapter i api =
      let api' := api.withoutSlot j (xs.length - 1) h inside
      if xs.length - 1 = 0 then api'.call .close else api'.call (.open api'.getEvtMask) := by
  induction gap : j - i generalizing i with
  | zero =>
      obtain rfl : i = j := by omega
      have slot := (holds.eq_some_iff h).mpr ⟨hj, found⟩
      rw [removeFrom_found h slot (lastFrom_eq holds hj h) inside]
      have after := withoutSlot_holds holds hj h inside
      -- the moved index is past the last adapter, so the loop ends
      have length : (moveLast xs i).length = xs.length - 1 := by
        rw [(moveLast_perm hj).length_eq, List.length_eraseIdx_of_lt hj]
      refine removeFrom_of_not_mem (?_ : Holds _ (moveLast xs i)) _ fun k hk le => by omega
      split <;> exact after
  | succ gap' ih =>
      have hi : i < xs.length := by omega
      have slot := (holds.eq_some_iff (Nat.lt_trans (by omega) h)).mpr ⟨hi, rfl⟩
      rw [removeFrom, dif_pos (Nat.lt_trans (by omega) h)]
      simp only [slot]
      rw [if_neg]
      · exact ih (by omega) (by omega)
      · rw [← found, nodup.getElem_inj_iff]
        omega

theorem addAdapter_holds (adapter : Adapter) (holds : Holds api.mLocAdapters xs)
    (room : (xs.insert adapter).length ≤ maxAdapters) :
    ∃ ys, Holds (api.addAdapter adapter).mLocAdapters ys ∧ ys.Perm (xs.insert adapter) := by
  by_cases mem : adapter ∈ xs
  · obtain ⟨j, hj, found⟩ := List.mem_iff_getElem.mp mem
    rw [addAdapter, addFrom_of_mem holds (Nat.zero_le j) hj found, List.insert_of_mem mem]
    exact ⟨xs, holds, List.Perm.refl xs⟩
  · rw [List.insert_of_not_mem mem] at room ⊢
    rw [addAdapter, addFrom_of_not_mem holds mem room (Nat.zero_le _)]
    exact ⟨xs ++ [adapter], holds.append room adapter, List.perm_append_singleton adapter xs⟩

theorem removeAdapter_of_not_mem (holds : Holds api.mLocAdapters xs) (absent : adapter ∉ xs) :
    api.removeAdapter adapter = api := by
  refine removeFrom_of_not_mem holds 0 fun j hj _ found => absent ?_
  exact found ▸ List.getElem_mem hj

theorem removeAdapter_of_mem (holds : Holds api.mLocAdapters xs) (nodup : xs.Nodup)
    (mem : adapter ∈ xs) :
    ∃ ys, Holds (api.removeAdapter adapter).mLocAdapters ys ∧ ys.Perm (xs.erase adapter) ∧
      ∃ call, (api.removeAdapter adapter).calls = api.calls ++ [call] ∧
        (call = .close ↔ xs.length = 1) := by
  obtain ⟨j, hj, rfl⟩ := List.mem_iff_getElem.mp mem
  have h : j < maxAdapters := Nat.lt_of_lt_of_le hj holds.length_le
  have inside : xs.length - 1 < maxAdapters := by have := holds.length_le; omega
  rw [removeAdapter, removeFrom_of_mem holds nodup (Nat.zero_le j) hj rfl h inside]
  refine ⟨moveLast xs j, ?_, moveLast_perm_erase hj nodup, ?_⟩
  · have after := withoutSlot_holds holds hj h inside
    simp only
    split <;> exact after
  · by_cases only : xs.length - 1 = 0
    · exact ⟨.close, by simp [only, call, withoutSlot], by simp; omega⟩
    · exact ⟨.open _, by simp only [if_neg only]; rfl, by simp; omega⟩

end LocApiBase

/-- The adapters added and not removed since, as the events leave them. -/
def live [DecidableEq Adapter] (events : List (Event Adapter)) : List Adapter :=
  events.foldl (fun adapters event =>
    match event with
    | .addAdapter adapter => adapters.insert adapter
    | .removeAdapter adapter => adapters.erase adapter
    | .updateEvtMask _ _ _ => adapters) []

/-- The adapter was added, and not removed after that. -/
def AddedSince (events : List (Event Adapter)) (adapter : Adapter) : Prop :=
  ∃ before after, events = before ++ .addAdapter adapter :: after ∧
    .removeAdapter adapter ∉ after

theorem addedSince_concat (events : List (Event Adapter)) (event : Event Adapter)
    (adapter : Adapter) : AddedSince (events ++ [event]) adapter ↔
      event = .addAdapter adapter ∨ AddedSince events adapter ∧ event ≠ .removeAdapter adapter := by
  constructor
  · rintro ⟨before, after, split, kept⟩
    obtain rfl | ⟨after', last, rfl⟩ := List.eq_nil_or_concat after
    · exact .inl (by simpa using (List.append_inj' split rfl).2)
    · rw [List.concat_eq_append, ← List.cons_append, ← List.append_assoc] at split
      obtain ⟨rfl, eq⟩ := List.append_inj' split rfl
      obtain rfl : event = last := by simpa using eq
      simp only [List.concat_eq_append, List.mem_append, List.mem_singleton, not_or] at kept
      exact .inr ⟨⟨before, after', rfl, kept.1⟩, fun eq => kept.2 eq.symm⟩
  · rintro (rfl | ⟨⟨before, after, rfl, kept⟩, other⟩)
    · exact ⟨events, [], rfl, by simp⟩
    · refine ⟨before, after ++ [event], by simp, ?_⟩
      simpa [kept] using Ne.symm other

section Live
variable [DecidableEq Adapter]

theorem live_concat (events : List (Event Adapter)) (event : Event Adapter) :
    live (events ++ [event]) =
      match event with
      | .addAdapter adapter => (live events).insert adapter
      | .removeAdapter adapter => (live events).erase adapter
      | .updateEvtMask _ _ _ => live events := by
  rw [live, List.foldl_concat]
  rfl

theorem live_nodup (events : List (Event Adapter)) : (live events).Nodup := by
  induction events using List.reverseRecOn with
  | nil => exact List.nodup_nil
  | append_singleton events event ih =>
      rw [live_concat]
      cases event with
      | addAdapter adapter => exact ih.insert
      | removeAdapter adapter => exact ih.erase adapter
      | updateEvtMask _ _ _ => exact ih

theorem length_live_le (events : List (Event Adapter)) :
    (live events).length ≤ events.length := by
  induction events using List.reverseRecOn with
  | nil => exact Nat.le_refl 0
  | append_singleton events event ih =>
      rw [live_concat, List.length_append, List.length_singleton]
      cases event with
      | addAdapter adapter =>
          rw [List.length_insert]
          split <;> omega
      | removeAdapter adapter => exact Nat.le_trans List.length_erase_le (Nat.le_succ_of_le ih)
      | updateEvtMask _ _ _ => exact Nat.le_succ_of_le ih

theorem mem_live_iff (events : List (Event Adapter)) (adapter : Adapter) :
    adapter ∈ live events ↔ AddedSince events adapter := by
  induction events using List.reverseRecOn with
  | nil => simp [live, AddedSince]
  | append_singleton events event ih =>
      rw [live_concat, addedSince_concat, ← ih]
      cases event with
      | addAdapter other => simp [List.mem_insert_iff, eq_comm]
      | removeAdapter other =>
          simp [(live_nodup events).mem_erase_iff, and_comm, eq_comm]
      | updateEvtMask _ _ _ => simp

end Live

namespace LocApiBase
variable [DecidableEq Adapter]

theorem run_concat (api : LocApiBase Adapter) (events : List (Event Adapter))
    (event : Event Adapter) : api.run (events ++ [event]) = (api.run events).step event := by
  rw [run, List.foldl_concat]
  rfl

/-- Any order of calls with at most `MAX_ADAPTERS` adapters alive at a time. -/
theorem run_holds (excludedMask : EventMask) (mEvtMask : Adapter → EventMask)
    (events : List (Event Adapter))
    (few : ∀ before, before <+: events → (live before).length ≤ maxAdapters) :
    ∃ xs, Holds ((new excludedMask mEvtMask).run events).mLocAdapters xs ∧
      xs.Perm (live events) := by
  induction events using List.reverseRecOn with
  | nil => exact ⟨[], holds_replicate, List.Perm.refl _⟩
  | append_singleton events event ih =>
      obtain ⟨xs, holds, perm⟩ := ih fun before isPrefix =>
        few before (isPrefix.trans (List.prefix_append _ _))
      have room := few _ List.prefix_rfl
      rw [live_concat] at room ⊢
      rw [run_concat]
      cases event with
      | addAdapter adapter =>
          obtain ⟨ys, holds', perm'⟩ := addAdapter_holds adapter holds
            (by rw [(perm.insert adapter).length_eq]; exact room)
          exact ⟨ys, holds', perm'.trans (perm.insert adapter)⟩
      | removeAdapter adapter =>
          have nodup := perm.nodup_iff.mpr (live_nodup events)
          by_cases mem : adapter ∈ xs
          · obtain ⟨ys, holds', perm', -⟩ := removeAdapter_of_mem holds nodup mem
            exact ⟨ys, holds', perm'.trans (perm.erase adapter)⟩
          · rw [step, removeAdapter_of_not_mem holds mem]
            have absent : adapter ∉ live events := fun present => mem (perm.mem_iff.mpr present)
            exact ⟨xs, holds, perm.trans (List.Perm.of_eq (List.erase_of_not_mem absent).symm)⟩
      | updateEvtMask _ _ _ => exact ⟨xs, holds, perm⟩

theorem removeAdapter_closes_iff {xs : List Adapter} {api : LocApiBase Adapter}
    (holds : Holds api.mLocAdapters xs) (nodup : xs.Nodup) (adapter : Adapter) :
    ∃ sent, (api.removeAdapter adapter).calls = api.calls ++ sent ∧
      (Call.close ∈ sent ↔ api.mLocAdapters ≠ Vector.replicate maxAdapters none ∧
        (api.removeAdapter adapter).mLocAdapters = Vector.replicate maxAdapters none) := by
  by_cases mem : adapter ∈ xs
  · obtain ⟨ys, holds', perm, call, sent, closes⟩ := removeAdapter_of_mem holds nodup mem
    refine ⟨[call], sent, ?_⟩
    have length : ys.length = xs.length - 1 := by
      rw [perm.length_eq, List.length_erase_of_mem mem]
    have := List.length_pos_of_mem mem
    rw [List.mem_singleton, eq_comm, closes, Ne, holds.eq_replicate_iff, holds'.eq_replicate_iff,
      ← List.length_eq_zero_iff, ← List.length_eq_zero_iff]
    omega
  · rw [removeAdapter_of_not_mem holds mem]
    exact ⟨[], by simp, by simp⟩

/-- At most `MAX_ADAPTERS` adapters are added and not removed at any time. -/
theorem registry_is_a_prefix_without_duplicates (excludedMask : EventMask)
    (mEvtMask : Adapter → EventMask) (events : List (Event Adapter))
    (few : ∀ before, before <+: events → (live before).length ≤ maxAdapters) :
    let api := (new excludedMask mEvtMask).run events
    ∃ xs : List Adapter, Holds api.mLocAdapters xs ∧ xs.Nodup ∧
      (∀ adapter, adapter ∈ xs ↔ AddedSince events adapter) ∧
      (∀ (σ : Type v) (call : Adapter → σ → σ) (s : σ),
        toAllAdapters api.mLocAdapters call 0 s = xs.foldl (fun s adapter => call adapter s) s) ∧
      (∀ (σ : Type v) (call : Adapter → σ → Bool × σ) (s : σ), ∃ called,
        to1stHandlingAdapter api.mLocAdapters call 0 s = afterCalls call called s ∧
          StopsAtFirst call xs called s) ∧
      (∀ adapter, ∃ sent, (api.removeAdapter adapter).calls = api.calls ++ sent ∧
        (Call.close ∈ sent ↔ api.mLocAdapters ≠ Vector.replicate maxAdapters none ∧
          (api.removeAdapter adapter).mLocAdapters = Vector.replicate maxAdapters none)) := by
  obtain ⟨xs, holds, perm⟩ := run_holds excludedMask mEvtMask events few
  have nodup := perm.nodup_iff.mpr (live_nodup events)
  refine ⟨xs, holds, nodup, fun adapter => perm.mem_iff.trans (mem_live_iff events adapter),
    fun σ call s => toAllAdapters_eq holds call 0 s, fun σ call s => ?_,
    removeAdapter_closes_iff holds nodup⟩
  rw [to1stHandlingAdapter_eq holds]
  exact firstHandling_stops call xs s

/-- Two adapters; one is added twice and removed twice. -/
def twoAdapters : List (Event Nat) :=
  [.addAdapter 1, .addAdapter 2, .addAdapter 1, .removeAdapter 1, .removeAdapter 1]

theorem registry_of_two_adapters :
    ∃ xs : List Nat, Holds ((new 0 fun _ => 1).run twoAdapters).mLocAdapters xs ∧ xs.Nodup ∧
      ∀ adapter, adapter ∈ xs ↔ AddedSince twoAdapters adapter := by
  obtain ⟨xs, holds, nodup, mem_iff, -⟩ :=
    registry_is_a_prefix_without_duplicates.{0, 0} 0 (fun _ => 1) twoAdapters
      fun before isPrefix => Nat.le_trans (length_live_le before)
        (Nat.le_trans isPrefix.length_le (by decide))
  exact ⟨xs, holds, nodup, mem_iff⟩

end LocApiBase
end Msm8974.Core
