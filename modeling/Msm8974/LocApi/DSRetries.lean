import Msm8974.Library.Monitors
import Msm8974.LocApi.DSEffects

/-!
The retries of a data call that the engine is too busy to start. mRetries counts them across
the requests of all subscribers and is only wiped when a handle is given to the ordinary ATL
path, so it is the number of retries of a handle's own start sequence as long as each sequence
begins with none counted.
-/

namespace Msm8974.Agps
open Msm8974.Runs Msm8974.Traces

def DSEvent.busy : DSEvent := .openAndStartDataCall LOC_API_ADAPTER_ERR_ENGINE_BUSY

/-- For each handle the ENGINE_BUSY results in a row of its start sequence. -/
abbrev BusyRuns := ConnHandle → Nat

/-- A result is one of the handle that the call was started for. -/
def noteEvent (starter : Option ConnHandle) (runs : BusyRuns) (e : DSEvent) : BusyRuns := fun h =>
  match e with
  | .openAndStartDataCall ret =>
      if starter = some h then
        if ret = LOC_API_ADAPTER_ERR_ENGINE_BUSY then runs h + 1 else 0
      else runs h
  | e => if e.ends h then 0 else runs h

theorem foldl_noteEvent (starter : Option ConnHandle) {es : List DSEvent}
    (none_starts : ∀ e ∈ es, e.starts = false) (runs : BusyRuns) (h : ConnHandle) :
    es.foldl (noteEvent starter) runs h = if es.any (·.ends h) then 0 else runs h := by
  induction es generalizing runs with
  | nil => rfl
  | cons e es ih =>
      obtain ⟨first, rest⟩ := List.forall_mem_cons.mp none_starts
      have noted : noteEvent starter runs e h = if e.ends h then 0 else runs h := by
        cases e with
        | openAndStartDataCall => cases first
        | _ => rfl
      rw [List.foldl_cons, ih rest, noted, List.any_cons]
      cases e.ends h with
      | true => simp
      | false => rfl

namespace DSStateMachine

def noteBusy (m : DSStateMachine) (l : Label) (m' : DSStateMachine) (runs : BusyRuns) : BusyRuns :=
  (newEvents m.world.log m'.world.log).foldl (noteEvent (startsFor m l)) runs

/-- A busy result makes a handle fall back exactly if the call was started for the handle and the
busy results of its start sequence before this one are MAX_START_DATA_CALL_RETRIES. -/
def OnBudget (p : DSStateMachine × BusyRuns) (l : Label) (q : DSStateMachine × BusyRuns) : Prop :=
  ∀ h ∈ startsFor p.1 l, .busy ∈ newEvents p.1.world.log q.1.world.log → ∀ ID,
    (∃ agpsType, .requestATL ID agpsType ∈ newEvents p.1.world.log q.1.world.log) ↔
      ID = h ∧ p.2 h = MAX_START_DATA_CALL_RETRIES.toNat

/-- The first start of a start sequence finds no retries counted. -/
def StartsUnspent (p : DSStateMachine × BusyRuns) (l : Label) : Prop :=
  ∀ h ∈ startsFor p.1 l, p.2 h = 0 → p.1.world.mRetries = 0

section Counting
variable {m m' : DSStateMachine} {runs : BusyRuns} {l : Label} {es before after : List DSEvent}
  {c h : ConnHandle} {ret : Int} {p q : DSStateMachine × BusyRuns}

/-- mRetries is the busy run of the one handle that has one, and this handle waits. -/
structure Counted (p : DSStateMachine × BusyRuns) : Prop where
  bound : p.1.world.mRetries ≤ MAX_START_DATA_CALL_RETRIES
  count : ∀ h, p.2 h ≠ 0 → p.1.world.mRetries.toNat = p.2 h
  single : ∀ h h', p.2 h ≠ 0 → p.2 h' ≠ 0 → h = h'
  waits : ∀ h, p.2 h ≠ 0 → p.1.Waits h

theorem newEvents_append (log es : List DSEvent) : newEvents log (log ++ es) = es :=
  List.drop_left

theorem Quiet.noteBusy (quiet : Quiet m m' es) (h : ConnHandle) :
    noteBusy m l m' runs h = if es.any (·.ends h) then 0 else runs h := by
  rw [DSStateMachine.noteBusy, quiet.log, newEvents_append, foldl_noteEvent _ quiet.starts]

theorem Quiet.counted (quiet : Quiet m m' es) (counted : Counted (m, runs)) :
    Counted (m', DSStateMachine.noteBusy m l m' runs) := by
  have kept (h : ConnHandle) (nonzero : DSStateMachine.noteBusy m l m' runs h ≠ 0) :
      es.any (·.ends h) = false ∧ DSStateMachine.noteBusy m l m' runs h = runs h ∧ runs h ≠ 0 := by
    rw [quiet.noteBusy] at nonzero ⊢
    cases ended : es.any (·.ends h) with
    | true => simp [ended] at nonzero
    | false => exact ⟨rfl, rfl, by simpa [ended] using nonzero⟩
  have zero_le : (0 : BitVec 8) ≤ MAX_START_DATA_CALL_RETRIES := by decide
  refine ⟨?_, fun h nonzero => ?_, fun h h' nonzero nonzero' => ?_, fun h nonzero => ?_⟩
  · obtain same | ⟨wiped, -⟩ := quiet.retries
    · exact same ▸ counted.bound
    · exact wiped ▸ zero_le
  · obtain ⟨going, same, before⟩ := kept h nonzero
    obtain unchanged | ⟨-, gone⟩ := quiet.retries
    · exact (congrArg BitVec.toNat unchanged).trans ((counted.count h before).trans same.symm)
    · exact absurd (gone h (counted.waits h before)) (by simp [going])
  · exact counted.single h h' (kept h nonzero).2.2 (kept h' nonzero').2.2
  · obtain ⟨going, -, before⟩ := kept h nonzero
    exact (quiet.waits h (counted.waits h before)).resolve_right (by simp [going])

theorem Starts.noteBusy (starts : Starts m m' c before ret after) (handle : startsFor m l = some c)
    (h : ConnHandle) : DSStateMachine.noteBusy m l m' runs h =
      after.foldl (noteEvent (some c)) (fun h => if c = h then
        if ret = LOC_API_ADAPTER_ERR_ENGINE_BUSY then runs h + 1 else 0 else runs h) h := by
  have first : before.foldl (noteEvent (some c)) runs = runs := by
    funext h
    have none_ends : before.any (·.ends h) = false := by
      simpa using fun e mem => (starts.silent e mem).2 h
    rw [foldl_noteEvent _ (fun e mem => (starts.silent e mem).1), none_ends]
    rfl
  have started : noteEvent (some c) runs (.openAndStartDataCall ret) = fun h =>
      if c = h then if ret = LOC_API_ADAPTER_ERR_ENGINE_BUSY then runs h + 1 else 0
      else runs h := by
    funext h
    simp only [noteEvent, Option.some.injEq]
  rw [DSStateMachine.noteBusy, starts.log, newEvents_append, handle, List.foldl_append,
    List.foldl_cons, first, started]

/-- With nothing counted before its first start, mRetries is the busy run of the handle. -/
theorem Counted.retries (counted : Counted (m, runs))
    (unspent : runs c = 0 → m.world.mRetries = 0) :
    m.world.mRetries.toNat = runs c ∧ ∀ h, c ≠ h → runs h = 0 := by
  by_cases zero : runs c = 0
  · have none : m.world.mRetries.toNat = 0 := congrArg BitVec.toNat (unspent zero)
    refine ⟨none.trans zero.symm, fun h _ => ?_⟩
    by_contra nonzero
    exact nonzero ((counted.count h nonzero).symm.trans none)
  · refine ⟨counted.count c zero, fun h other => ?_⟩
    by_contra nonzero
    exact other (counted.single c h zero nonzero)

theorem Counted.of_one {k : Nat} (bound : m.world.mRetries ≤ MAX_START_DATA_CALL_RETRIES)
    (value : ∀ h, runs h = if c = h then k else 0)
    (count : k ≠ 0 → m.world.mRetries.toNat = k) (waits : m.Waits c) : Counted (m, runs) := by
  have only (h : ConnHandle) (nonzero : runs h ≠ 0) : c = h ∧ runs h = k := by
    rw [value] at nonzero ⊢
    by_cases same : c = h
    · exact ⟨same, if_pos same⟩
    · exact absurd (if_neg same) nonzero
  refine ⟨bound, fun h nonzero => ?_, fun h h' nonzero nonzero' => ?_, fun h nonzero => ?_⟩
  · obtain ⟨-, same⟩ := only h nonzero
    exact (count (same ▸ nonzero)).trans same.symm
  · exact (only h nonzero).1.symm.trans (only h' nonzero').1
  · exact (only h nonzero).1 ▸ waits

theorem Starts.counted (starts : Starts m m' c before ret after) (handle : startsFor m l = some c)
    (counted : Counted (m, runs)) (unspent : runs c = 0 → m.world.mRetries = 0) :
    Counted (m', DSStateMachine.noteBusy m l m' runs) := by
  obtain ⟨retries, others⟩ := counted.retries unspent
  have noted (h : ConnHandle) : DSStateMachine.noteBusy m l m' runs h = _ :=
    starts.noteBusy handle h
  have wiped : m'.world.mRetries = 0 → m'.world.mRetries ≤ MAX_START_DATA_CALL_RETRIES := by
    intro zero
    rw [zero]
    decide
  have outcome := starts.outcome
  generalize after_retries : m'.world.mRetries = retries' at wiped outcome
  cases outcome with
  | retried left =>
      have more : (m.world.mRetries + 1).toNat = runs c + 1 := by
        have bound : m.world.mRetries.toNat ≤ 4 := counted.bound
        rw [BitVec.toNat_add, retries]
        exact Nat.mod_eq_of_lt (by change runs c + 1 < 256; omega)
      refine .of_one (k := runs c + 1) (after_retries ▸ left) (fun h => ?_) ?_ starts.handle
      · rw [noted]
        by_cases same : c = h
        · simp [same]
        · simp [same, others h same]
      · exact fun _ => after_retries ▸ more
  | spent exhausted | failed notBusy =>
      refine .of_one (k := 0) (after_retries ▸ wiped rfl) (fun h => ?_) (absurd rfl) starts.handle
      rw [noted]
      by_cases same : c = h
      · simp [noteEvent, DSEvent.ends, same]
      · simp [noteEvent, DSEvent.ends, same, others h same]
  | goesOn notBusy =>
      refine .of_one (k := 0) (after_retries ▸ counted.bound) (fun h => ?_) (absurd rfl)
        starts.handle
      rw [noted]
      by_cases same : c = h
      · simp [same, notBusy]
      · simp [same, others h same]

/-- The retries of the start sequence are used up exactly if they are all there are. -/
theorem Starts.onBudget (starts : Starts m m' c before ret after) (handle : startsFor m l = some c)
    (counted : Counted (m, runs)) (unspent : runs c = 0 → m.world.mRetries = 0)
    (runs' : BusyRuns) : OnBudget (m, runs) l (m', runs') := by
  obtain ⟨retries, -⟩ := counted.retries unspent
  have bound : runs c ≤ 4 := retries ▸ counted.bound
  have full : MAX_START_DATA_CALL_RETRIES < m.world.mRetries + 1 ↔ runs c = 4 := by
    have one : (1 : BitVec 8).toNat = 1 := rfl
    have most : MAX_START_DATA_CALL_RETRIES.toNat = 4 := rfl
    rw [BitVec.lt_def, BitVec.toNat_add, retries, one, most, Nat.mod_eq_of_lt (by omega)]
    omega
  intro h mem busy ID
  obtain rfl : c = h := Option.some.inj (handle.symm.trans mem)
  simp only [starts.log, newEvents_append] at busy ⊢
  have silent {e : DSEvent} (listed : e ∈ before) : e.starts = false ∧ ∀ h, e.ends h = false :=
    starts.silent e listed
  have fallback (agpsType : Int) : .requestATL ID agpsType ∉ before := fun listed => by
    simpa [DSEvent.ends] using (silent listed).2 ID
  have fallsBack : (∃ agpsType, .requestATL ID agpsType ∈
      before ++ .openAndStartDataCall ret :: after) ↔
        ∃ agpsType, .requestATL ID agpsType ∈ after := by
    simp [fallback]
  rw [fallsBack]
  have result : ret = LOC_API_ADAPTER_ERR_ENGINE_BUSY ∨ .busy ∈ after := by
    obtain listed | here := List.mem_append.mp busy
    · cases (silent listed).1
    · obtain same | later := List.mem_cons.mp here
      · exact .inl (DSEvent.openAndStartDataCall.inj same).symm
      · exact .inr later
  have most : MAX_START_DATA_CALL_RETRIES.toNat = 4 := rfl
  rw [most]
  have outcome := starts.outcome
  generalize m'.world.mRetries = retries' at outcome
  cases outcome with
  | retried left =>
      have notFull : runs c ≠ 4 := fun all => BitVec.not_lt.mpr left (full.mpr all)
      simp [notFull]
  | spent exhausted => simp [full.mp exhausted]
  | failed notBusy => simp [notBusy, DSEvent.busy] at result
  | goesOn notBusy => simp [notBusy] at result

end Counting

theorem new_counted : Counted (new, fun _ => 0) :=
  ⟨by decide, fun _ nonzero => absurd rfl nonzero, fun _ _ nonzero => absurd rfl nonzero,
    fun _ nonzero => absurd rfl nonzero⟩

/-- The call for handle 7 opens at once; handle 8 falls back on its fifth busy result. -/
def fullBudget : List Label :=
  [.modemRequest 7 0, .opened, .releaseATL 7 false, .closed 0, .modemRequest 8 6, .timerExpire,
    .retryRequest 6, .timerExpire, .retryRequest 6, .timerExpire, .retryRequest 6, .timerExpire,
    .retryRequest 6]

instance (p : DSStateMachine × BusyRuns) (l : Label) : Decidable (StartsUnspent p l) :=
  match starter : startsFor p.1 l with
  | none => isTrue fun _ mem => nomatch starter.symm.trans mem
  | some c => decidable_of_iff (p.2 c = 0 → p.1.world.mRetries = 0)
      ⟨fun unspent _ mem => Option.some.inj (starter.symm.trans mem) ▸ unspent,
        fun all => all c starter⟩

/-- The first call starts on its first retry and is released; the start for the next handle
falls back after three retries. -/
def outlivedRetry : List Label :=
  [.modemRequest 7 6, .timerExpire, .retryRequest 0, .opened, .releaseATL 7 false, .closed 0,
    .modemRequest 8 6, .timerExpire, .retryRequest 6, .timerExpire, .retryRequest 6, .timerExpire,
    .retryRequest 6]

end DSStateMachine
end Msm8974.Agps
