import Msm8974.Utils.LocThread

/-!
Who deletes the runnable and the delegate of a LocThread. The reference count always counts the
threads that still have to call destroy(), whatever the order of steps. mRunnable, however, means
two things at once: a NULL stands for a thread that has ended as well as for one that was never
created, and it tells the spawned thread that it is to stop as well as that it has no runnable.
-/

namespace Msm8974.LocThread
open Runs

/-- The references that the creating thread will give back; before the thread is created, the
count is set as if it were. -/
def Creator.holds : Creator → Nat
  | .constructing => 2
  | .checking | .dropping | .holding | .joining | .leaving => 1
  | .refused | .gone => 0

def Spawned.holds : Spawned → Nat
  | .absent | .returned => 0
  | _ => 1

/-- How often a thread that read its runnable has deleted it. -/
def Spawned.deletes : Spawned → Nat
  | .destroying | .returned => 1
  | _ => 0

namespace State

def Finished (s : State) : Prop :=
  s.creator = .gone ∧ (s.spawned = .absent ∨ s.spawned = .returned)

/-- What may be seen of a delegate and its runnable in any state. -/
structure Sound (s : State) : Prop where
  runnable : s.runnableDeleted ≤ 1
  delegate : s.delegate.deleted ≤ 1
  untouched : s.delegate.touchedDeleted = false
  result : ∀ started, s.result = some started → s.created = some started
  finished : s.Finished → s.runnableDeleted = 1 ∧ s.delegate.deleted = 1

/-- create() looks at mRunnable before the spawned thread nulls it, and stop() nulls it after the
spawned thread has read it. -/
def InTime (s : State) : Label → Prop
  | .create => s.creator = .checking → s.created = some true → s.delegate.mRunnable = true
  | .stop => s.spawned ≠ .entry
  | .bye => s.delegate.mJoinable = true → s.spawned ≠ .entry
  | _ => True

instance (s : State) : (l : Label) → Decidable (s.InTime l)
  | .create => inferInstanceAs (Decidable (_ → _))
  | .stop => inferInstanceAs (Decidable (_ ≠ _))
  | .bye => inferInstanceAs (Decidable (_ → _))
  | .construct _ | .deleteRunnable | .join | .destroy | .threadMain _ => .isTrue trivial

/-- Who owns what, as long as all steps are in time. -/
structure Owned (s : State) : Prop where
  references : s.delegate.mRefCount = (s.creator.holds + s.spawned.holds : Nat)
  deleted : s.delegate.deleted = if s.creator.holds + s.spawned.holds = 0 then 1 else 0
  untouched : s.delegate.touchedDeleted = false
  runnable : s.runnableDeleted =
    s.spawned.deletes + if s.creator = .gone ∧ s.created = some false then 1 else 0
  running : s.spawned = .entry → s.delegate.mRunnable = true
  fresh : s.created = none → s.delegate.mRunnable = true
  unknown : s.created = none ↔ s.creator = .constructing
  absent : s.created ≠ some true → s.spawned = .absent
  failed : s.created = some false → s.delegate.mRunnable = false ∧
    s.creator ∉ [.holding, .joining, .leaving]
  live : s.created = some true → s.spawned ≠ .absent ∧ s.creator ∉ [.dropping, .refused]
  result : s.result = if s.creator ∈ [.constructing, .checking] then none else s.created

theorem initial_owned (joinable : Bool) : (initial joinable).Owned := by
  constructor <;> simp [initial, Creator.holds, Spawned.holds, Spawned.deletes]

namespace Owned
variable {s : State}

theorem access_eq (h : s.Owned) (held : s.creator.holds + s.spawned.holds ≠ 0) :
    s.delegate.access = s.delegate := by
  have kept : s.delegate.deleted = 0 := by rw [h.deleted, if_neg held]
  have same : (s.delegate.touchedDeleted || s.delegate.deleted != 0) =
      s.delegate.touchedDeleted := by simp [kept]
  rw [Delegate.access, same]

theorem destroy_eq (h : s.Owned) (held : s.creator.holds + s.spawned.holds ≠ 0) :
    s.delegate.destroy = { s.delegate with
      mRefCount := (s.creator.holds + s.spawned.holds - 1 : Nat)
      deleted := if s.creator.holds + s.spawned.holds - 1 = 0 then 1 else 0 } := by
  have count := h.references
  have kept : s.delegate.deleted = 0 := by rw [h.deleted, if_neg held]
  have positive : 0 < s.delegate.mRefCount := by omega
  have last : s.delegate.mRefCount = 1 ↔ s.creator.holds + s.spawned.holds - 1 = 0 := by omega
  simp only [Delegate.destroy, h.access_eq held, if_pos positive, last, kept]
  congr 1
  omega

/-- A step of the spawned thread before its destroy(). -/
theorem spawned_moves (h : s.Owned) {next : Spawned} {mRunnable : Bool} {runnableDeleted : Nat}
    (alive : s.spawned.holds = 1) (stays : next.holds = 1) (entered : next ≠ .entry)
    (deletes : runnableDeleted + s.spawned.deletes = s.runnableDeleted + next.deletes) :
    ({ s with spawned := next, delegate := { s.delegate with mRunnable }, runnableDeleted } :
      State).Owned := by
  have created : s.created = some true := by
    by_contra other
    simp [h.absent other, Spawned.holds] at alive
  refine ⟨?_, ?_, h.untouched, ?_, fun same => (entered same).elim, ?_, h.unknown, ?_, ?_, ?_,
    h.result⟩
  · simpa [alive, stays] using h.references
  · simpa [alive, stays] using h.deleted
  · have before := h.runnable
    simp only [created] at before ⊢
    omega
  · simp [created]
  · exact fun other => (other created).elim
  · simp [created]
  · refine fun _ => ⟨?_, (h.live created).2⟩
    rintro rfl
    simp [Spawned.holds] at stays

theorem isRunning_eq (h : s.Owned) (alive : s.spawned.holds = 1) (yes no : Spawned) :
    s.isRunning yes no = { s with spawned := if s.delegate.mRunnable then yes else no } := by
  rw [State.isRunning, h.access_eq (by omega)]

/-- The spawned thread goes on, having deleted nothing. -/
theorem spawned_goesOn (h : s.Owned) {next : Spawned} (alive : s.spawned.holds = 1)
    (early : s.spawned.deletes = 0) (stays : next.holds = 1) (entered : next ≠ .entry)
    (nothing : next.deletes = 0) : ({ s with spawned := next } : State).Owned :=
  h.spawned_moves alive stays entered (by omega)

theorem threadMain (h : s.Owned) {again : Bool} {t : State}
    (taken : s.threadMain again = some t) : t.Owned := by
  have goesOn : ∀ next : Spawned, s.spawned.holds = 1 → s.spawned.deletes = 0 →
      next ∈ [.prerunCheck, .prerun, .loopCheck, .run, .postrunCheck, .postrun, .nulling] →
      ({ s with spawned := next } : State).Owned := by
    intro next alive early mem
    apply h.spawned_goesOn alive early <;> revert next <;> decide
  cases at_step : s.spawned with
  | absent | returned => simp [State.threadMain, at_step] at taken
  | entry =>
      have alive : s.spawned.holds = 1 := by rw [at_step]; rfl
      obtain rfl := Option.some.inj (by simpa only [State.threadMain, at_step] using taken)
      rw [h.isRunning_eq alive, if_pos (h.running at_step)]
      exact goesOn _ alive (by rw [at_step]; rfl) (by decide)
  | prerunCheck | loopCheck | postrunCheck =>
      have alive : s.spawned.holds = 1 := by rw [at_step]; rfl
      obtain rfl := Option.some.inj (by simpa only [State.threadMain, at_step] using taken)
      rw [h.isRunning_eq alive]
      split
      · exact goesOn _ alive (by rw [at_step]; rfl) (by decide)
      · exact goesOn _ alive (by rw [at_step]; rfl) (by decide)
  | prerun | postrun =>
      obtain rfl := Option.some.inj (by simpa only [State.threadMain, at_step] using taken)
      exact goesOn _ (by rw [at_step]; rfl) (by rw [at_step]; rfl) (by decide)
  | run =>
      obtain rfl := Option.some.inj (by simpa only [State.threadMain, at_step] using taken)
      split
      · exact goesOn _ (by rw [at_step]; rfl) (by rw [at_step]; rfl) (by decide)
      · exact goesOn _ (by rw [at_step]; rfl) (by rw [at_step]; rfl) (by decide)
  | nulling =>
      have alive : s.spawned.holds = 1 := by rw [at_step]; rfl
      obtain rfl := Option.some.inj (by simpa only [State.threadMain, at_step] using taken)
      rw [h.access_eq (by omega)]
      exact h.spawned_moves alive rfl (by decide) (by rw [at_step]; rfl)
  | deleting =>
      obtain rfl := Option.some.inj (by simpa only [State.threadMain, at_step] using taken)
      exact h.spawned_moves (by rw [at_step]; rfl) rfl (by decide) (by rw [at_step]; rfl)
  | destroying =>
      have created : s.created = some true := by
        by_contra other
        simp [h.absent other] at at_step
      obtain rfl := Option.some.inj (by simpa only [State.threadMain, at_step] using taken)
      rw [h.destroy_eq (by simp [at_step, Spawned.holds])]
      refine ⟨?_, ?_, h.untouched, ?_, nofun, ?_, h.unknown, ?_, ?_, ?_, h.result⟩
      · simp [at_step, Spawned.holds]
      · simp only [at_step]
        rfl
      · rw [h.runnable, at_step]
        rfl
      · simp [created]
      · exact fun other => (other created).elim
      · simp [created]
      · exact fun _ => ⟨nofun, (h.live created).2⟩

/-- The creating thread goes on in possession of its reference. -/
theorem creator_goesOn (h : s.Owned) {next : Creator} {mRunnable mJoinable : Bool}
    (started : next ∈ [.holding, .joining, .leaving]) (held : s.creator.holds = 1)
    (created : s.created = some true) (entered : s.spawned = .entry → mRunnable = true)
    {result : Option Bool} (returned : result = some true) :
    ({ s with creator := next, delegate := { s.delegate with mRunnable, mJoinable }, result } :
      State).Owned := by
  have facts : next.holds = 1 ∧ next ∉ [.constructing, .checking, .dropping, .refused, .gone] := by
    revert next
    decide
  simp only [List.mem_cons, List.not_mem_nil, or_false, not_or] at facts
  have not_gone : s.creator ≠ .gone := by
    intro gone
    simp [gone, Creator.holds] at held
  refine ⟨?_, ?_, h.untouched, ?_, entered, ?_, ?_, h.absent, ?_, ?_, ?_⟩
  · simpa [held, facts.1] using h.references
  · simpa [held, facts.1] using h.deleted
  · simpa [not_gone, facts] using h.runnable
  · simp [created]
  · simp [created, facts]
  · simp [created]
  · simp [h.live created, facts]
  · simp [returned, created, facts]

theorem created_cases (h : s.Owned) (constructed : s.creator ≠ .constructing) :
    s.created = some true ∨ s.created = some false := by
  cases created : s.created with
  | none => exact (constructed (h.unknown.mp created)).elim
  | some answer => cases answer <;> simp

theorem create (h : s.Owned) (checking : s.creator = .checking)
    (inTime : s.created = some true → s.delegate.mRunnable = true) : s.create.Owned := by
  rw [State.create, h.access_eq (by simp [checking, Creator.holds])]
  obtain created | created := h.created_cases (by simp [checking])
  · rw [if_pos (inTime created)]
    exact h.creator_goesOn (by decide) (by rw [checking]; rfl) created (fun _ => inTime created) rfl
  · rw [if_neg (by simp [(h.failed created).1])]
    refine ⟨?_, ?_, h.untouched, ?_, h.running, h.fresh, ?_, h.absent, ?_, ?_, ?_⟩
    · simpa [checking, Creator.holds] using h.references
    · simpa [checking, Creator.holds] using h.deleted
    · simpa [checking] using h.runnable
    · simp [created]
    · simp [h.failed created]
    · simp [created]
    · simp [created]

theorem drop (h : s.Owned) (dropping : s.creator = .dropping) :
    ({ s with creator := .refused, delegate := s.delegate.destroy } : State).Owned := by
  have created : s.created = some false :=
    (h.created_cases (by simp [dropping])).resolve_left fun live => by
      simpa [dropping] using h.live live
  rw [h.destroy_eq (by simp [dropping, Creator.holds])]
  refine ⟨?_, ?_, h.untouched, ?_, h.running, h.fresh, ?_, h.absent, ?_, ?_, ?_⟩
  · simp [dropping, Creator.holds]
  · simp [dropping, Creator.holds]
  · simpa [dropping] using h.runnable
  · simp [created]
  · simp [h.failed created]
  · simp [created]
  · simpa [dropping] using h.result

theorem deleteRunnable (h : s.Owned) (refused : s.creator = .refused) :
    ({ s with creator := .gone, runnableDeleted := s.runnableDeleted + 1 } : State).Owned := by
  have created : s.created = some false :=
    (h.created_cases (by simp [refused])).resolve_left fun live => by
      simpa [refused] using h.live live
  refine ⟨?_, ?_, h.untouched, ?_, h.running, h.fresh, ?_, h.absent, ?_, ?_, ?_⟩
  · simpa [refused, Creator.holds] using h.references
  · simpa [refused, Creator.holds] using h.deleted
  · simpa [refused, created] using h.runnable
  · simp [created]
  · simp [h.failed created]
  · simp [created]
  · simpa [refused] using h.result

theorem started (h : s.Owned) (mem : s.creator ∈ [.holding, .joining, .leaving]) :
    s.created = some true ∧ s.creator.holds = 1 ∧ s.result = some true := by
  have facts : s.creator.holds = 1 ∧ s.creator ∉ [.constructing, .checking] := by
    revert mem
    generalize s.creator = creator
    revert creator
    decide
  have created : s.created = some true :=
    (h.created_cases fun same => by simp [same] at mem).resolve_right fun failed =>
      (h.failed failed).2 mem
  exact ⟨created, facts.1, by rw [h.result, if_neg facts.2, created]⟩

theorem stop (h : s.Owned) (holding : s.creator = .holding) (inTime : s.spawned ≠ .entry) :
    s.stop.Owned := by
  obtain ⟨created, held, result⟩ := h.started (by simp [holding])
  simp only [State.stop, h.access_eq (by omega)]
  split
  · exact h.creator_goesOn (by decide) held created (fun same => (inTime same).elim) result
  · exact h.creator_goesOn (by decide) held created (fun same => (inTime same).elim) result

theorem bye (h : s.Owned) (holding : s.creator = .holding)
    (inTime : s.delegate.mJoinable = true → s.spawned ≠ .entry) : s.bye.Owned := by
  obtain ⟨created, held, result⟩ := h.started (by simp [holding])
  unfold State.bye
  split
  case isTrue joinable => exact h.stop holding (inTime joinable)
  case isFalse =>
    rw [h.access_eq (by omega)]
    exact h.creator_goesOn (by decide) held created h.running result

theorem leave (h : s.Owned) (leaving : s.creator = .leaving) :
    ({ s with creator := .gone, delegate := s.delegate.destroy } : State).Owned := by
  obtain ⟨created, held, result⟩ := h.started (by simp [leaving])
  rw [h.destroy_eq (by omega)]
  refine ⟨?_, ?_, h.untouched, ?_, h.running, h.fresh, ?_, h.absent, ?_, ?_, ?_⟩
  · simp [leaving, Creator.holds]
  · simp [leaving, Creator.holds]
  · simpa [leaving, created] using h.runnable
  · simp [created]
  · simp [created]
  · simp [h.live created]
  · simpa [leaving] using h.result

theorem construct (h : s.Owned) (constructing : s.creator = .constructing) (created : Bool) :
    (s.construct created).Owned := by
  have unknown := h.unknown.mpr constructing
  have absent : s.spawned = .absent := h.absent (by simp [unknown])
  have references : s.delegate.mRefCount = 2 := by
    rw [h.references, constructing, absent]
    rfl
  have deleted : s.delegate.deleted = 0 := by
    rw [h.deleted, constructing, absent]
    rfl
  have runnable : s.runnableDeleted = 0 := by
    rw [h.runnable, constructing, absent]
    rfl
  have result : s.result = none := by rw [h.result, if_pos (by simp [constructing])]
  unfold State.construct
  split
  · refine ⟨references, deleted, h.untouched, ?_, fun _ => h.fresh unknown, nofun, ?_, ?_, nofun,
      ?_, ?_⟩
    · simp [runnable, Spawned.deletes]
    · simp
    · simp
    · simp
    · simp [result]
  · refine ⟨?_, ?_, h.untouched, ?_, ?_, nofun, ?_, ?_, ?_, nofun, ?_⟩
    · simp [absent, Creator.holds, Spawned.holds]
    · simp [deleted, Creator.holds]
    · simp [runnable, absent, Spawned.deletes]
    · simp [absent]
    · simp
    · simp [absent]
    · simp
    · simp [result]

theorem step (h : s.Owned) {l : Label} {t : State} (inTime : s.InTime l)
    (taken : step s l = some t) : t.Owned := by
  cases l with
  | construct created =>
      obtain ⟨constructing, rfl⟩ := by simpa [LocThread.step] using taken
      exact h.construct constructing created
  | create =>
      cases at_step : s.creator with
      | checking =>
          obtain rfl := by simpa [LocThread.step, at_step] using taken
          exact h.create at_step (inTime at_step)
      | dropping =>
          obtain rfl := by simpa [LocThread.step, at_step] using taken
          exact h.drop at_step
      | constructing | refused | holding | joining | leaving | gone =>
          simp [LocThread.step, at_step] at taken
  | deleteRunnable =>
      obtain ⟨refused, rfl⟩ := by simpa [LocThread.step] using taken
      exact h.deleteRunnable refused
  | stop =>
      obtain ⟨holding, rfl⟩ := by simpa [LocThread.step] using taken
      exact h.stop holding inTime
  | bye =>
      obtain ⟨holding, rfl⟩ := by simpa [LocThread.step] using taken
      exact h.bye holding inTime
  | join =>
      obtain ⟨⟨joining, returned⟩, rfl⟩ := by simpa [LocThread.step] using taken
      obtain ⟨created, held, result⟩ := h.started (by simp [joining])
      exact h.creator_goesOn (by decide) held created (fun same => by simp [returned] at same)
        result
  | destroy =>
      obtain ⟨leaving, rfl⟩ := by simpa [LocThread.step] using taken
      exact h.leave leaving
  | threadMain again => exact h.threadMain taken

theorem sound (h : s.Owned) : s.Sound := by
  have runnable : s.runnableDeleted ≤ 1 := by
    rw [h.runnable]
    by_cases failed : s.created = some false
    · rw [h.absent (by simp [failed])]
      split <;> decide
    · rw [if_neg fun both => failed both.2]
      cases s.spawned <;> decide
  have delegate : s.delegate.deleted ≤ 1 := by
    rw [h.deleted]
    split <;> decide
  refine ⟨runnable, delegate, h.untouched, ?_, ?_⟩
  · intro started returned
    have result := h.result
    split at result
    · simp [result] at returned
    · rw [← result, returned]
  · rintro ⟨gone, ended⟩
    obtain created | created := h.created_cases (by simp [gone])
    · have returned := ended.resolve_left (h.live created).1
      rw [h.runnable, h.deleted, gone, returned, created]
      exact ⟨rfl, rfl⟩
    · have absent := h.absent (by simp [created])
      rw [h.runnable, h.deleted, gone, absent, created]
      exact ⟨rfl, rfl⟩

end Owned

/-- create() returned NULL although the thread was created. -/
def Disowned (s : State) : Prop :=
  s.result = some false ∧ s.created = some true ∧ s.creator ∉ [.constructing, .checking]

/-- The spawned thread never got hold of its runnable. -/
def Leaked (s : State) : Prop :=
  s.runnableDeleted = 0 ∧ s.delegate.mRunnable = false ∧
    s.spawned ∈ [.entry, .destroying, .returned] ∧ s.creator ∈ [.joining, .leaving, .gone]

def Doomed (s : State) : Prop := s.Disowned ∨ s.Leaked

/-- What the creating thread leaves alone on its way out. -/
structure Leaves (s t : State) : Prop where
  creator : t.creator ∈ [.joining, .leaving]
  spawned : t.spawned = s.spawned
  runnableDeleted : t.runnableDeleted = s.runnableDeleted
  created : t.created = s.created
  result : t.result = s.result

theorem stop_leaves (s : State) : s.Leaves s.stop ∧ s.stop.delegate.mRunnable = false := by
  simp only [State.stop]
  split
  · exact ⟨⟨by simp, rfl, rfl, rfl, rfl⟩, rfl⟩
  · exact ⟨⟨by simp, rfl, rfl, rfl, rfl⟩, rfl⟩

theorem bye_leaves (s : State) : s.Leaves s.bye := by
  unfold State.bye
  split
  · exact s.stop_leaves.1
  · exact ⟨by simp, rfl, rfl, rfl, rfl⟩

theorem Leaves.disowned {s t : State} (h : s.Leaves t) (disowned : s.Disowned) : t.Disowned := by
  refine ⟨h.result ▸ disowned.1, h.created ▸ disowned.2.1, ?_⟩
  have creator := h.creator
  revert creator
  generalize t.creator = creator
  revert creator
  decide

theorem Leaves.leaked {s t : State} (h : s.Leaves t) (owned : s.Owned)
    (holding : s.creator = .holding) (entry : s.spawned = .entry)
    (null : t.delegate.mRunnable = false) : t.Leaked := by
  refine ⟨?_, null, by simp [h.spawned, entry], ?_⟩
  · rw [h.runnableDeleted, owned.runnable, entry, holding]
    rfl
  · exact List.mem_append_left [.gone] h.creator

theorem Disowned.step {s t : State} {l : Label} (h : s.Disowned) (taken : step s l = some t) :
    t.Disowned := by
  obtain ⟨result, created, past⟩ := h
  cases l with
  | construct answer =>
      obtain ⟨constructing, rfl⟩ := by simpa [LocThread.step] using taken
      simp [constructing] at past
  | create =>
      cases at_step : s.creator with
      | dropping =>
          obtain rfl := by simpa [LocThread.step, at_step] using taken
          exact ⟨result, created, by simp⟩
      | constructing | checking => simp [at_step] at past
      | refused | holding | joining | leaving | gone => simp [LocThread.step, at_step] at taken
  | deleteRunnable =>
      obtain ⟨-, rfl⟩ := by simpa [LocThread.step] using taken
      exact ⟨result, created, by simp⟩
  | stop =>
      obtain ⟨-, rfl⟩ := by simpa [LocThread.step] using taken
      exact s.stop_leaves.1.disowned ⟨result, created, past⟩
  | bye =>
      obtain ⟨-, rfl⟩ := by simpa [LocThread.step] using taken
      exact s.bye_leaves.disowned ⟨result, created, past⟩
  | join =>
      obtain ⟨-, rfl⟩ := by simpa [LocThread.step] using taken
      exact ⟨result, created, by simp⟩
  | destroy =>
      obtain ⟨-, rfl⟩ := by simpa [LocThread.step] using taken
      exact ⟨result, created, by simp⟩
  | threadMain again =>
      simp only [LocThread.step, State.threadMain] at taken
      split at taken <;> simp only [Option.some.injEq, reduceCtorEq] at taken <;> subst taken <;>
        exact ⟨result, created, past⟩

@[simp] theorem destroy_mRunnable (d : Delegate) : d.destroy.mRunnable = d.mRunnable := by
  simp only [Delegate.destroy]
  split <;> rfl

theorem Leaked.step {s t : State} {l : Label} (h : s.Leaked) (taken : step s l = some t) :
    t.Leaked := by
  obtain ⟨nothing, null, spawned, creator⟩ := h
  have other : ∀ at_step ∈ [Creator.constructing, .checking, .dropping, .refused, .holding],
      s.creator ≠ at_step := by
    rintro at_step mem rfl
    revert creator mem
    generalize s.creator = creator
    revert creator
    decide
  cases l with
  | construct answer =>
      obtain ⟨at_step, -⟩ := by simpa [LocThread.step] using taken
      exact (other _ (by decide) at_step).elim
  | create =>
      simp only [LocThread.step] at taken
      split at taken
      · next at_step => exact (other _ (by decide) at_step).elim
      · next at_step => exact (other _ (by decide) at_step).elim
      · contradiction
  | deleteRunnable | stop | bye =>
      obtain ⟨at_step, -⟩ := by simpa [LocThread.step] using taken
      exact (other _ (by decide) at_step).elim
  | join =>
      obtain ⟨-, rfl⟩ := by simpa [LocThread.step] using taken
      exact ⟨nothing, null, spawned, by simp⟩
  | destroy =>
      obtain ⟨-, rfl⟩ := by simpa [LocThread.step] using taken
      exact ⟨nothing, by simpa using null, spawned, by simp⟩
  | threadMain again =>
      simp only [LocThread.step, State.threadMain] at taken
      cases at_step : s.spawned with
      | entry =>
          simp only [at_step, Option.some.injEq] at taken
          subst taken
          exact ⟨nothing, null, by simp [State.isRunning, null], creator⟩
      | destroying =>
          simp only [at_step, Option.some.injEq] at taken
          subst taken
          exact ⟨nothing, by simpa using null, by simp, creator⟩
      | absent | returned => simp [at_step] at taken
      | prerunCheck | prerun | loopCheck | run | postrunCheck | postrun | nulling | deleting =>
          simp [at_step] at spawned

theorem Doomed.step {s t : State} {l : Label} (h : s.Doomed) (taken : step s l = some t) :
    t.Doomed :=
  h.imp (fun disowned => disowned.step taken) (fun leaked => leaked.step taken)

/-- A step that is not in time dooms the run. -/
theorem Owned.doomed {s t : State} {l : Label} (h : s.Owned) (late : ¬ s.InTime l)
    (taken : LocThread.step s l = some t) : t.Doomed := by
  cases l with
  | create =>
      simp only [InTime, Classical.not_imp, Bool.not_eq_true] at late
      obtain ⟨checking, created, null⟩ := late
      obtain rfl := by simpa [LocThread.step, checking] using taken
      rw [State.create, h.access_eq (by simp [checking, Creator.holds]), if_neg (by simp [null])]
      exact .inl ⟨rfl, created, by simp⟩
  | stop =>
      obtain ⟨holding, rfl⟩ := by simpa [LocThread.step] using taken
      exact .inr (s.stop_leaves.1.leaked h holding (not_not.mp late) s.stop_leaves.2)
  | bye =>
      simp only [InTime, Classical.not_imp, not_not] at late
      obtain ⟨holding, rfl⟩ := by simpa [LocThread.step] using taken
      have stops : s.bye = s.stop := if_pos late.1
      rw [stops]
      exact .inr (s.stop_leaves.1.leaked h holding late.2 s.stop_leaves.2)
  | construct _ | deleteRunnable | join | destroy | threadMain _ => exact (late trivial).elim

theorem Sound.not_doomed {s : State} (h : s.Sound) (finished : s.Finished) : ¬ s.Doomed := by
  rintro (⟨result, created, -⟩ | ⟨nothing, -⟩)
  · have same := h.result _ result
    simp [created] at same
  · have once := (h.finished finished).1
    omega

/-- Only a thread that was created is waited for. -/
def Awaitable (s : State) : Prop :=
  s.spawned = .absent → s.creator ≠ .constructing →
    s.delegate.mRunnable = false ∧ s.creator ∉ [.holding, .joining, .leaving]

theorem Awaitable.step {s t : State} {l : Label} (h : s.Awaitable) (taken : step s l = some t) :
    t.Awaitable := by
  cases l with
  | construct created =>
      obtain ⟨-, rfl⟩ := by simpa [LocThread.step] using taken
      cases created with
      | true => exact fun absent => by simp [construct] at absent
      | false => exact fun _ _ => ⟨rfl, by simp [construct]⟩
  | create =>
      intro absent _
      cases at_step : s.creator with
      | checking =>
          obtain rfl := by simpa [LocThread.step, at_step] using taken
          have null : s.delegate.access.mRunnable = false := by
            by_contra running
            simp only [State.create, if_pos (Bool.not_eq_false _ ▸ running)] at absent
            exact running (h absent (by simp [at_step])).1
          simp [State.create, null]
      | dropping =>
          obtain rfl := by simpa [LocThread.step, at_step] using taken
          exact ⟨by simpa using (h absent (by simp [at_step])).1, by simp⟩
      | constructing | refused | holding | joining | leaving | gone =>
          simp [LocThread.step, at_step] at taken
  | deleteRunnable =>
      obtain ⟨refused, rfl⟩ := by simpa [LocThread.step] using taken
      exact fun absent _ => ⟨(h absent (by simp [refused])).1, by simp⟩
  | stop =>
      obtain ⟨holding, rfl⟩ := by simpa [LocThread.step] using taken
      intro absent _
      rw [s.stop_leaves.1.spawned] at absent
      simpa [holding] using h absent
  | bye =>
      obtain ⟨holding, rfl⟩ := by simpa [LocThread.step] using taken
      intro absent _
      rw [s.bye_leaves.spawned] at absent
      simpa [holding] using h absent
  | join =>
      obtain ⟨⟨joining, -⟩, rfl⟩ := by simpa [LocThread.step] using taken
      exact fun absent _ => by simpa [joining] using h absent
  | destroy =>
      obtain ⟨leaving, rfl⟩ := by simpa [LocThread.step] using taken
      exact fun absent _ => by simpa [leaving] using h absent
  | threadMain again =>
      intro absent
      simp only [LocThread.step, State.threadMain] at taken
      cases at_step : s.spawned with
      | absent | returned => simp [at_step] at taken
      | entry | prerunCheck | loopCheck | postrunCheck =>
          simp only [at_step, Option.some.injEq] at taken
          subst taken
          simp only [isRunning] at absent
          split at absent <;> contradiction
      | run =>
          simp only [at_step, Option.some.injEq] at taken
          subst taken
          simp only at absent
          split at absent <;> contradiction
      | prerun | postrun | nulling | deleting | destroying =>
          simp only [at_step, Option.some.injEq] at taken
          subst taken
          contradiction

theorem Awaitable.moves {s : State} (h : s.Awaitable) :
    s.Finished ∨ ∃ l, (LocThread.step s l).isSome := by
  have spawned_moves : s.spawned ≠ .absent → s.spawned ≠ .returned →
      ∃ l, (LocThread.step s l).isSome := by
    intro present running
    refine ⟨.threadMain true, ?_⟩
    simp only [LocThread.step, State.threadMain]
    split <;> simp_all
  cases at_step : s.creator with
  | constructing => exact .inr ⟨.construct true, by simp [LocThread.step, at_step]⟩
  | checking | dropping => exact .inr ⟨.create, by simp [LocThread.step, at_step]⟩
  | refused => exact .inr ⟨.deleteRunnable, by simp [LocThread.step, at_step]⟩
  | holding => exact .inr ⟨.stop, by simp [LocThread.step, at_step]⟩
  | leaving => exact .inr ⟨.destroy, by simp [LocThread.step, at_step]⟩
  | joining =>
      by_cases returned : s.spawned = .returned
      · exact .inr ⟨.join, by simp [LocThread.step, at_step, returned]⟩
      · refine .inr (spawned_moves (fun absent => ?_) returned)
        simpa [at_step] using h absent
  | gone =>
      by_cases ended : s.spawned = .absent ∨ s.spawned = .returned
      · exact .inl ⟨at_step, ended⟩
      · obtain ⟨present, running⟩ := not_or.mp ended
        exact .inr (spawned_moves present running)

end State

/-- As long as create() and stop() come in time, runnable and delegate are deleted at most once and
not touched afterwards in any state, exactly once when both threads are done, and create() returns
what it should; a run of both threads to their end is so only then. No state is a deadlock. -/
theorem ownership_is_exact_iff (joinable : Bool) {ls : List Label} {t : State}
    (run : Run step (.initial joinable) ls t) :
    (Meets step State.InTime (.initial joinable) ls →
      Throughout step State.Sound (.initial joinable) ls) ∧
    (t.Finished → (Throughout step State.Sound (.initial joinable) ls ↔
      Meets step State.InTime (.initial joinable) ls)) ∧
    (t.Finished ∨ ∃ l, (step t l).isSome) := by
  have owned := State.initial_owned joinable
  have keeps : ∀ (s : State) l t, s.Owned → s.InTime l → step s l = some t → t.Owned :=
    fun _ _ _ owned inTime taken => owned.step inTime taken
  have sound : Meets step State.InTime (.initial joinable) ls →
      Throughout step State.Sound (.initial joinable) ls := fun meets =>
    throughout_of_meets keeps (fun _ owned => owned.sound) meets owned
  refine ⟨sound, fun finished => ⟨fun throughout => ?_, sound⟩, ?_⟩
  · have final : t.Sound := throughout ls [] t (by simp) run
    exact run.meets_of_not_doomed keeps (fun _ _ _ owned late taken => owned.doomed late taken)
      (fun _ _ _ doomed taken => doomed.step taken) owned (final.not_doomed finished)
  · have awaitable : (State.initial joinable).Awaitable := fun _ late => (late rfl).elim
    exact (run.invariant (fun _ _ _ awaitable taken => awaitable.step taken) awaitable).moves

/-- A joinable thread whose run() returns false at once, then stop(). -/
def soon : List Label :=
  [.construct true, .create] ++ List.replicate 10 (.threadMain false) ++ [.stop, .join, .destroy]

theorem thread_that_ends_soon_is_owned :
    ∃ t, Run step (.initial true) soon t ∧ t.Finished ∧ t.runnableDeleted = 1 ∧
      t.delegate.deleted = 1 := by
  obtain ⟨t, run, finished⟩ : ∃ t, Run step (.initial true) soon t ∧ t.Finished :=
    ⟨⟨.gone, .returned, ⟨false, false, 0, 1, false⟩, 1, some true, some true⟩,
      run_iff_foldlM.mpr rfl, rfl, .inr rfl⟩
  have sound := (ownership_is_exact_iff true run).1 (by decide)
  exact ⟨t, run, finished, (sound soon [] t (by simp) run).finished finished⟩

/-- The thread ends before create() looks; stop() comes before the thread looks. -/
theorem runnable_is_not_deleted_once :
    (∃ t, Run step (.initial false)
        ([.construct true] ++ List.replicate 9 (.threadMain false) ++
          [.create, .create, .deleteRunnable]) t ∧
      t.created = some true ∧ t.result = some false ∧ t.runnableDeleted = 2) ∧
    ∃ t, Run step (.initial true)
        [.construct true, .create, .stop, .threadMain false, .threadMain false, .join, .destroy] t ∧
      t.Finished ∧ t.runnableDeleted = 0 := by
  refine ⟨⟨_, run_iff_foldlM.mpr rfl, rfl, rfl, rfl⟩, _, run_iff_foldlM.mpr rfl, ?_, rfl⟩
  exact ⟨rfl, .inr rfl⟩

end Msm8974.LocThread
