import Mathlib.Logic.Function.Basic
import Msm8974.Library.Runs

/-!
LocTimerContainer::get, which makes the containers of timers and alarms, their poll task and their
message task when they are asked for first. A thread looks at the static pointer, takes mMutex only
if it is NULL, looks again, and reads the pointer once more to return it. The constructor and what
follows it under mMutex are several steps, in between which other threads look.
-/

namespace Msm8974.TimerStatics
open Runs

/-- `mDevFd` says that timerfd_create gave a descriptor, at once or as CLOCK_MONOTONIC. -/
structure LocTimerContainer where
  wakeOnExpire : Bool
  mDevFd : Bool
  deleted : Bool
deriving DecidableEq, Repr

/-- Where the thread that holds mMutex is, with the container it is making. -/
inductive Stage
  | look
  | create
  | getPollTaskLocked (container : Nat)
  | newPollTask (container : Nat)
  | getMsgTaskLocked (container : Nat)
  | newMsgTask (container : Nat)
  | publish (container : Nat)
  | check (container : Nat)
  | reset
  | unlock
deriving DecidableEq, Repr

inductive Place
  | outside
  | toLock (wakeOnExpire : Bool)
  | locked (wakeOnExpire : Bool) (stage : Stage)
  | toReturn (wakeOnExpire : Bool)
deriving DecidableEq, Repr

/-- `timers true` is mHwTimers, `timers false` mSwTimers. Objects are numbered as they are made. -/
structure Statics where
  timers : Bool → Option Nat
  mPollTask : Option Nat
  mMsgTask : Option Nat
  containers : List LocTimerContainer
  pollTasks : Nat
  msgTasks : Nat

namespace Statics

/-- One step under mMutex, and where it leads; `created` is the outcome of timerfd_create. -/
def work (s : Statics) (wakeOnExpire created : Bool) : Stage → Statics × Option Stage
  | .look => (s, some (if (s.timers wakeOnExpire).isSome then .unlock else .create))
  | .create =>
      let container := s.containers.length
      ({ s with containers := s.containers ++ [⟨wakeOnExpire, created, false⟩] },
        some (if created then .getPollTaskLocked container else .publish container))
  | .getPollTaskLocked container =>
      (s, some (if s.mPollTask.isNone then .newPollTask container
        else .getMsgTaskLocked container))
  | .newPollTask container =>
      ({ s with mPollTask := some s.pollTasks, pollTasks := s.pollTasks + 1 },
        some (.getMsgTaskLocked container))
  | .getMsgTaskLocked container =>
      (s, some (if s.mMsgTask.isNone then .newMsgTask container else .publish container))
  | .newMsgTask container =>
      ({ s with mMsgTask := some s.msgTasks, msgTasks := s.msgTasks + 1 },
        some (.publish container))
  | .publish container =>
      ({ s with timers := Function.update s.timers wakeOnExpire (some container) },
        some (.check container))
  | .check container =>
      if s.containers[container]?.any (·.mDevFd) then (s, some .unlock)
      else ({ s with
          containers := s.containers.modify container fun c => { c with deleted := true } },
        some .reset)
  | .reset =>
      ({ s with timers := Function.update s.timers wakeOnExpire none }, some .unlock)
  | .unlock => (s, none)

end Statics

structure Process (T : Type) where
  statics : Statics
  mMutex : Option T
  place : T → Place
  returned : List (Bool × Option Nat)

inductive Label (T : Type)
  | call (thread : T) (wakeOnExpire : Bool)
  | lock (thread : T)
  | work (thread : T) (created : Bool)
  | ret (thread : T)
deriving DecidableEq

variable {T : Type} [DecidableEq T]

def step (p : Process T) : Label T → Option (Process T)
  | .call thread wakeOnExpire =>
      match p.place thread with
      | .outside =>
          some { p with
            place := Function.update p.place thread
              (if (p.statics.timers wakeOnExpire).isSome then .toReturn wakeOnExpire
                else .toLock wakeOnExpire) }
      | _ => none
  | .lock thread =>
      match p.place thread, p.mMutex with
      | .toLock wakeOnExpire, none =>
          some { p with
            mMutex := some thread
            place := Function.update p.place thread (.locked wakeOnExpire .look) }
      | _, _ => none
  | .work thread created =>
      match p.place thread with
      | .locked wakeOnExpire stage =>
          match p.statics.work wakeOnExpire created stage with
          | (statics, some next) =>
              some { p with
                statics := statics
                place := Function.update p.place thread (.locked wakeOnExpire next) }
          | (statics, none) =>
              some { p with
                statics := statics
                mMutex := none
                place := Function.update p.place thread (.toReturn wakeOnExpire) }
      | _ => none
  | .ret thread =>
      match p.place thread with
      | .toReturn wakeOnExpire =>
          some { p with
            place := Function.update p.place thread .outside
            returned := p.returned ++ [(wakeOnExpire, p.statics.timers wakeOnExpire)] }
      | _ => none

/-- The static pointers are NULL and nobody has asked yet. -/
structure IsInit (p : Process T) : Prop where
  timers : ∀ wakeOnExpire, p.statics.timers wakeOnExpire = none
  mPollTask : p.statics.mPollTask = none
  mMsgTask : p.statics.mMsgTask = none
  containers : p.statics.containers = []
  pollTasks : p.statics.pollTasks = 0
  msgTasks : p.statics.msgTasks = 0
  mMutex : p.mMutex = none
  place : ∀ thread, p.place thread = .outside
  returned : p.returned = []

section Statics
variable {s : Statics} {held : Option (Bool × Stage)} {wakeOnExpire created : Bool} {stage : Stage}
  {c d : Nat}

/-- The container is there, is not deleted, and has a timerfd or not. -/
def Statics.Has (s : Statics) (wakeOnExpire mDevFd : Bool) (c : Nat) : Prop :=
  s.containers[c]? = some ⟨wakeOnExpire, mDevFd, false⟩

/-- The container that is made but not published. -/
def Stage.making : Stage → Option Nat
  | .getPollTaskLocked c | .newPollTask c | .getMsgTaskLocked c | .newMsgTask c | .publish c =>
      some c
  | .look | .create | .check _ | .reset | .unlock => none

/-- What the thread that holds mMutex has found out. -/
def Stage.Knows (s : Statics) (wakeOnExpire : Bool) : Stage → Prop
  | .look | .unlock => True
  | .create => s.timers wakeOnExpire = none
  | .getPollTaskLocked c | .getMsgTaskLocked c =>
      s.timers wakeOnExpire = none ∧ s.Has wakeOnExpire true c
  | .newPollTask c =>
      s.timers wakeOnExpire = none ∧ s.Has wakeOnExpire true c ∧ s.mPollTask = none
  | .newMsgTask c =>
      s.timers wakeOnExpire = none ∧ s.Has wakeOnExpire true c ∧ s.mMsgTask = none
  | .publish c => s.timers wakeOnExpire = none ∧ ∃ mDevFd, s.Has wakeOnExpire mDevFd c
  | .check c => s.timers wakeOnExpire = some c ∧ ∃ mDevFd, s.Has wakeOnExpire mDevFd c
  | .reset => ∃ c, s.timers wakeOnExpire = some c ∧
      s.containers[c]? = some ⟨wakeOnExpire, false, true⟩

/-- Nothing is deleted but what has no timerfd, and what has one is published or being made. -/
structure Ok (held : Option (Bool × Stage)) (s : Statics) : Prop where
  knows : ∀ wakeOnExpire stage, held = some (wakeOnExpire, stage) → stage.Knows s wakeOnExpire
  keeps : ∀ c container, s.containers[c]? = some container → container.mDevFd = true →
    container.deleted = false ∧ (s.timers container.wakeOnExpire = some c ∨
      ∃ stage, held = some (container.wakeOnExpire, stage) ∧ stage.making = some c)
  pollTask : s.pollTasks = s.mPollTask.toList.length
  msgTask : s.msgTasks = s.mMsgTask.toList.length

/-- There is at most one container of a kind with a timerfd. -/
theorem Ok.unique (h : Ok held s) (first : s.Has wakeOnExpire true c)
    (second : s.Has wakeOnExpire true d) : c = d := by
  obtain ⟨-, here⟩ := h.keeps c _ first rfl
  obtain ⟨-, there⟩ := h.keeps d _ second rfl
  -- while one is being made, none is published
  have none_out {stage : Stage} {made : Nat} (holder : held = some (wakeOnExpire, stage))
      (making : stage.making = some made) : s.timers wakeOnExpire = none := by
    have knows := h.knows _ _ holder
    cases stage <;> cases making <;> exact knows.1
  obtain here | ⟨stage, holder, making⟩ := here
  · obtain there | ⟨stage, holder, making⟩ := there
    · exact Option.some.inj (here.symm.trans there)
    · cases here.symm.trans (none_out holder making)
  · obtain there | ⟨stage', holder', making'⟩ := there
    · cases there.symm.trans (none_out holder making)
    · cases holder.symm.trans holder'
      exact Option.some.inj (making.symm.trans making')

theorem Ok.of_held (h : Ok none s) (wakeOnExpire : Bool) : Ok (some (wakeOnExpire, .look)) s where
  knows _ _ same := by
    cases same
    trivial
  keeps c container found mDevFd := by
    obtain ⟨live, out | ⟨_, none, -⟩⟩ := h.keeps c container found mDevFd
    · exact ⟨live, .inl out⟩
    · cases none
  pollTask := h.pollTask
  msgTask := h.msgTask

/-- With nothing being made, what has a timerfd is published. -/
theorem Ok.out {container : LocTimerContainer} (h : Ok (some (wakeOnExpire, stage)) s)
    (idle : stage.making = none) (found : s.containers[c]? = some container)
    (mDevFd : container.mDevFd = true) :
    container.deleted = false ∧ s.timers container.wakeOnExpire = some c := by
  obtain ⟨live, out | ⟨stage', same, making⟩⟩ := h.keeps c container found mDevFd
  · exact ⟨live, out⟩
  · cases same
    cases idle.symm.trans making

/-- A step that only looks. -/
theorem Ok.stay (h : Ok (some (wakeOnExpire, stage)) s) (next : Stage)
    (knows : next.Knows s wakeOnExpire) (making : next.making = stage.making) :
    Ok (some (wakeOnExpire, next)) s where
  knows _ _ same := by
    cases same
    exact knows
  keeps c container found mDevFd := by
    obtain ⟨live, out | ⟨stage', same, made⟩⟩ := h.keeps c container found mDevFd
    · exact ⟨live, .inl out⟩
    · cases same
      exact ⟨live, .inr ⟨next, rfl, making.trans made⟩⟩
  pollTask := h.pollTask
  msgTask := h.msgTask

theorem Ok.create (h : Ok (some (wakeOnExpire, .create)) s) (created : Bool) :
    Ok (some (wakeOnExpire, if created then .getPollTaskLocked s.containers.length
        else .publish s.containers.length))
      { s with containers := s.containers ++ [⟨wakeOnExpire, created, false⟩] } where
  knows _ _ same := by
    have free : s.timers wakeOnExpire = none := h.knows _ _ rfl
    cases created <;> cases same
    · exact ⟨free, false, by simp [Statics.Has]⟩
    · exact ⟨free, by simp [Statics.Has]⟩
  keeps c container found mDevFd := by
    rcases Nat.lt_trichotomy c s.containers.length with old | rfl | beyond
    · rw [List.getElem?_append_left old] at found
      obtain ⟨live, out⟩ := h.out rfl found mDevFd
      exact ⟨live, .inl out⟩
    · obtain rfl : _ = container := by simpa using found
      obtain rfl : created = true := mDevFd
      exact ⟨rfl, .inr ⟨_, rfl, rfl⟩⟩
    · have bound := (List.getElem?_eq_some_iff.mp found).1
      simp only [List.length_append, List.length_singleton] at bound
      omega
  pollTask := h.pollTask
  msgTask := h.msgTask

theorem Ok.publish (h : Ok (some (wakeOnExpire, .publish c)) s) :
    Ok (some (wakeOnExpire, .check c))
      { s with timers := Function.update s.timers wakeOnExpire (some c) } where
  knows _ _ same := by
    cases same
    exact ⟨Function.update_self .., (h.knows _ _ rfl).2⟩
  keeps d container found mDevFd := by
    obtain ⟨live, out | ⟨stage, same, making⟩⟩ := h.keeps d container found mDevFd
    · have other : container.wakeOnExpire ≠ wakeOnExpire := by
        rintro rfl
        cases out.symm.trans (h.knows _ _ rfl).1
      exact ⟨live, .inl ((Function.update_of_ne other ..).trans out)⟩
    · cases same
      cases making
      exact ⟨live, .inl (Function.update_self ..)⟩
  pollTask := h.pollTask
  msgTask := h.msgTask

theorem Ok.delete (h : Ok (some (wakeOnExpire, .check c)) s)
    (broken : s.Has wakeOnExpire false c) :
    Ok (some (wakeOnExpire, .reset))
      { s with
        containers := s.containers.modify c fun container => { container with deleted := true } }
    where
  knows _ _ same := by
    cases same
    refine ⟨c, (h.knows _ _ rfl).1, ?_⟩
    rw [List.getElem?_modify_eq, broken]
    rfl
  keeps d container found mDevFd := by
    by_cases here : c = d
    · subst here
      rw [List.getElem?_modify_eq, broken] at found
      cases found
      cases mDevFd
    · have before : s.containers[d]? = some container :=
        (List.getElem?_modify_ne _ _ here).symm.trans found
      obtain ⟨live, out⟩ := h.out rfl before mDevFd
      exact ⟨live, .inl out⟩
  pollTask := h.pollTask
  msgTask := h.msgTask

theorem Ok.reset (h : Ok (some (wakeOnExpire, .reset)) s) :
    Ok (some (wakeOnExpire, .unlock))
      { s with timers := Function.update s.timers wakeOnExpire none } where
  knows _ _ same := by
    cases same
    trivial
  keeps d container found mDevFd := by
    obtain ⟨c, published, broken⟩ := h.knows _ _ rfl
    obtain ⟨live, out⟩ := h.out rfl found mDevFd
    by_cases here : container.wakeOnExpire = wakeOnExpire
    · rw [here, published] at out
      cases out
      rw [broken] at found
      cases found
      cases mDevFd
    · exact ⟨live, .inl ((Function.update_of_ne here ..).trans out)⟩
  pollTask := h.pollTask
  msgTask := h.msgTask

theorem Ok.unlock (h : Ok (some (wakeOnExpire, .unlock)) s) : Ok none s where
  knows _ _ none := by cases none
  keeps c container found mDevFd := by
    obtain ⟨live, out⟩ := h.out rfl found mDevFd
    exact ⟨live, .inl out⟩
  pollTask := h.pollTask
  msgTask := h.msgTask

theorem Ok.work (h : Ok (some (wakeOnExpire, stage)) s) (created : Bool) :
    Ok ((s.work wakeOnExpire created stage).2.map (wakeOnExpire, ·))
      (s.work wakeOnExpire created stage).1 := by
  have knows := h.knows _ _ rfl
  cases stage with
  | look =>
      cases out : s.timers wakeOnExpire with
      | none => simpa [Statics.work, out] using h.stay .create out rfl
      | some c => simpa [Statics.work, out] using h.stay .unlock trivial rfl
  | create => exact h.create created
  | getPollTaskLocked c =>
      cases out : s.mPollTask with
      | none =>
          simpa [Statics.work, out] using h.stay (.newPollTask c)
            ⟨knows.1, knows.2, out⟩ rfl
      | some pollTask =>
          simpa [Statics.work, out] using h.stay (.getMsgTaskLocked c) knows rfl
  | newPollTask c =>
      obtain ⟨free, here, none⟩ := knows
      have count := h.pollTask
      rw [none] at count
      have stays := h.stay (.getMsgTaskLocked c) ⟨free, here⟩ rfl
      refine ⟨fun _ _ same => ?_, stays.keeps, congrArg (· + 1) count, h.msgTask⟩
      cases same
      exact ⟨free, here⟩
  | getMsgTaskLocked c =>
      cases out : s.mMsgTask with
      | none =>
          simpa [Statics.work, out] using h.stay (.newMsgTask c)
            ⟨knows.1, knows.2, out⟩ rfl
      | some msgTask =>
          simpa [Statics.work, out] using h.stay (.publish c) ⟨knows.1, true, knows.2⟩ rfl
  | newMsgTask c =>
      obtain ⟨free, here, none⟩ := knows
      have count := h.msgTask
      rw [none] at count
      have stays := h.stay (.publish c) ⟨free, true, here⟩ rfl
      refine ⟨fun _ _ same => ?_, stays.keeps, h.pollTask, congrArg (· + 1) count⟩
      cases same
      exact ⟨free, true, here⟩
  | publish c => exact h.publish
  | check c =>
      obtain ⟨out, mDevFd, here⟩ := knows
      cases mDevFd with
      | true =>
          have found : s.containers[c]? = some ⟨wakeOnExpire, true, false⟩ := here
          simpa [Statics.work, found] using h.stay .unlock trivial rfl
      | false =>
          have found : s.containers[c]? = some ⟨wakeOnExpire, false, false⟩ := here
          simpa [Statics.work, found] using h.delete here
  | reset => exact h.reset
  | unlock => exact h.unlock

/-- What has a timerfd is never deleted. -/
theorem Statics.Has.work {kind : Bool} (has : s.Has kind true c) (wakeOnExpire created : Bool)
    (stage : Stage) : (s.work wakeOnExpire created stage).1.Has kind true c := by
  have found : s.containers[c]? = some ⟨kind, true, false⟩ := has
  cases stage with
  | create =>
      have bound := (List.getElem?_eq_some_iff.mp found).1
      exact (List.getElem?_append_left bound).trans found
  | check container =>
      simp only [Statics.work]
      split
      · exact has
      · rename_i broken
        have other : container ≠ c := by
          rintro rfl
          simp [found] at broken
        exact (List.getElem?_modify_ne _ _ other).trans found
  | _ => exact has

end Statics

section Processes
variable {p q : Process T} {l : Label T}

def Place.stage : Place → Option (Bool × Stage)
  | .locked wakeOnExpire stage => some (wakeOnExpire, stage)
  | .outside | .toLock _ | .toReturn _ => none

/-- What is done under mMutex. -/
def Process.held (p : Process T) : Option (Bool × Stage) :=
  p.mMutex.bind fun thread => (p.place thread).stage

structure Sound (p : Process T) : Prop where
  mutex : ∀ thread, (p.place thread).stage.isSome → p.mMutex = some thread
  ok : Ok p.held p.statics

inductive Moves (p : Process T) : Label T → Process T → Prop
  | call {thread : T} {wakeOnExpire : Bool} {place : Place}
      (outside : p.place thread = .outside) (goes : place.stage = none) :
      Moves p (.call thread wakeOnExpire)
        { p with place := Function.update p.place thread place }
  | lock {thread : T} {wakeOnExpire : Bool} (waits : p.place thread = .toLock wakeOnExpire)
      (free : p.mMutex = none) :
      Moves p (.lock thread)
        { p with
          mMutex := some thread
          place := Function.update p.place thread (.locked wakeOnExpire .look) }
  | work {thread : T} {wakeOnExpire created : Bool} {stage next : Stage} {statics : Statics}
      (here : p.place thread = .locked wakeOnExpire stage)
      (works : p.statics.work wakeOnExpire created stage = (statics, some next)) :
      Moves p (.work thread created)
        { p with
          statics := statics
          place := Function.update p.place thread (.locked wakeOnExpire next) }
  | unlock {thread : T} {wakeOnExpire created : Bool} {stage : Stage} {statics : Statics}
      (here : p.place thread = .locked wakeOnExpire stage)
      (works : p.statics.work wakeOnExpire created stage = (statics, none)) :
      Moves p (.work thread created)
        { p with
          statics := statics
          mMutex := none
          place := Function.update p.place thread (.toReturn wakeOnExpire) }
  | ret {thread : T} {wakeOnExpire : Bool} (here : p.place thread = .toReturn wakeOnExpire) :
      Moves p (.ret thread)
        { p with
          place := Function.update p.place thread .outside
          returned := p.returned ++ [(wakeOnExpire, p.statics.timers wakeOnExpire)] }

theorem moves_of_step (taken : step p l = some q) : Moves p l q := by
  cases l with
  | call thread wakeOnExpire =>
      simp only [step] at taken
      split at taken
      · cases taken
        refine .call ‹_› ?_
        split <;> rfl
      · cases taken
  | lock thread =>
      simp only [step] at taken
      split at taken
      · cases taken
        exact .lock ‹_› ‹_›
      · cases taken
  | work thread created =>
      simp only [step] at taken
      split at taken
      · split at taken
        · cases taken
          exact .work ‹_› ‹_›
        · cases taken
          exact .unlock ‹_› ‹_›
      · cases taken
  | ret thread =>
      simp only [step] at taken
      split at taken
      · cases taken
        exact .ret ‹_›
      · cases taken

/-- Threads that do not hold mMutex change nothing under it. -/
theorem held_update {thread : T} {place : Place} {returned : List (Bool × Option Nat)}
    (before : (p.place thread).stage = none) (after : place.stage = none) :
    Process.held { p with
      place := Function.update p.place thread place, returned := returned } = p.held := by
  simp only [Process.held]
  refine Option.bind_congr fun other _ => ?_
  by_cases same : other = thread
  · rw [same, Function.update_self, before, after]
  · rw [Function.update_of_ne same]

theorem stage_update {places : T → Place} {thread other : T} {place : Place}
    (inside : (Function.update places thread place other).stage.isSome) :
    other = thread ∧ place.stage.isSome ∨ (places other).stage.isSome := by
  by_cases same : other = thread
  · subst same
    rw [Function.update_self] at inside
    exact .inl ⟨rfl, inside⟩
  · rw [Function.update_of_ne same] at inside
    exact .inr inside

theorem Sound.elsewhere (sound : Sound p) {thread : T} {place : Place}
    {returned : List (Bool × Option Nat)} (before : (p.place thread).stage = none)
    (after : place.stage = none) : Sound { p with
      place := Function.update p.place thread place, returned := returned } where
  mutex other inside := by
    obtain ⟨-, new⟩ | old := stage_update inside
    · rw [after] at new
      cases new
    · exact sound.mutex other old
  ok := by
    rw [held_update before after]
    exact sound.ok

omit [DecidableEq T] in
theorem Sound.holds (sound : Sound p) {thread : T} {wakeOnExpire : Bool} {stage : Stage}
    (here : p.place thread = .locked wakeOnExpire stage) :
    p.mMutex = some thread ∧ Ok (some (wakeOnExpire, stage)) p.statics := by
  have mutex := sound.mutex thread (by rw [here]; rfl)
  have held : p.held = some (wakeOnExpire, stage) := by
    rw [Process.held, mutex, Option.bind_some, here]
    rfl
  exact ⟨mutex, held ▸ sound.ok⟩

omit [DecidableEq T] in
/-- Only the holder of mMutex is anywhere under it. -/
theorem Sound.alone (sound : Sound p) {thread other : T} (mutex : p.mMutex = some thread)
    (inside : (p.place other).stage.isSome) : other = thread :=
  Option.some.inj ((sound.mutex other inside).symm.trans mutex)

theorem Sound.moves (sound : Sound p) (moves : Moves p l q) : Sound q := by
  cases moves with
  | call outside goes => exact sound.elsewhere (by rw [outside]; rfl) goes
  | ret here => exact sound.elsewhere (by rw [here]; rfl) rfl
  | @lock thread wakeOnExpire waits free =>
      have nobody : p.held = none := by rw [Process.held, free, Option.bind_none]
      refine ⟨fun other inside => ?_, ?_⟩
      · obtain ⟨rfl, -⟩ | old := stage_update inside
        · rfl
        · cases free.symm.trans (sound.mutex other old)
      · have ok := sound.ok
        rw [nobody] at ok
        simpa [Process.held, Place.stage] using ok.of_held wakeOnExpire
  | @work thread wakeOnExpire created stage next statics here works =>
      obtain ⟨mutex, ok⟩ := sound.holds here
      have after := ok.work created
      rw [works] at after
      refine ⟨fun other inside => ?_, ?_⟩
      · obtain ⟨rfl, -⟩ | old := stage_update inside
        · exact mutex
        · exact sound.mutex other old
      · simpa [Process.held, Place.stage, mutex] using after
  | @unlock thread wakeOnExpire created stage statics here works =>
      obtain ⟨mutex, ok⟩ := sound.holds here
      have after := ok.work created
      rw [works] at after
      refine ⟨fun other inside => ?_, ?_⟩
      · simp only [Function.update_apply] at inside
        split at inside
        · cases inside
        · rename_i other_ne
          exact (other_ne (sound.alone mutex inside)).elim
      · simpa [Process.held] using after

omit [DecidableEq T] in
theorem Sound.of_init (initial : IsInit p) : Sound p where
  mutex thread inside := by simp [initial.place thread, Place.stage] at inside
  ok := by
    have nobody : p.held = none := by rw [Process.held, initial.mMutex, Option.bind_none]
    rw [nobody]
    refine ⟨fun _ _ none => (by cases none), fun c container found => ?_, ?_, ?_⟩
    · simp [initial.containers] at found
    · rw [initial.pollTasks, initial.mPollTask]
      rfl
    · rw [initial.msgTasks, initial.mMsgTask]
      rfl

/-- Every container that get has returned has a timerfd and is not deleted. -/
def HandsOutTimerfds (p : Process T) : Prop :=
  ∀ wakeOnExpire c, (wakeOnExpire, some c) ∈ p.returned → p.statics.Has wakeOnExpire true c

/-- What a thread is about to return has a timerfd. -/
def Statics.ReturnsTimerfd (s : Statics) : Place → Prop
  | .toReturn wakeOnExpire => ∀ c ∈ s.timers wakeOnExpire, s.Has wakeOnExpire true c
  | .outside | .toLock _ | .locked _ _ => True

/-- get does not return while a container without a timerfd is published. -/
def PublishedHasTimerfd (p : Process T) : Label T → Prop
  | .ret thread => p.statics.ReturnsTimerfd (p.place thread)
  | .call _ _ | .lock _ | .work _ _ => True

theorem handsOut_moves (hands : HandsOutTimerfds p) (moves : Moves p l q) :
    HandsOutTimerfds q ↔ PublishedHasTimerfd p l := by
  cases moves with
  | call | lock => exact iff_of_true hands trivial
  | @work _ kind created stage _ _ _ works | @unlock _ kind created stage _ _ works =>
      refine iff_of_true (fun other c mem => ?_) trivial
      have kept := (hands other c mem).work kind created stage
      rwa [works] at kept
  | @ret thread wakeOnExpire here =>
      simp only [PublishedHasTimerfd, Statics.ReturnsTimerfd, here]
      constructor
      · intro after c out
        refine after wakeOnExpire c (List.mem_append_right _ ?_)
        rw [Option.mem_def.mp out]
        exact List.mem_singleton_self _
      · intro careful kind c mem
        obtain old | new := List.mem_append.mp mem
        · exact hands kind c old
        · obtain ⟨rfl, out⟩ := Prod.mk.inj (List.mem_singleton.mp new)
          exact careful c out.symm

end Processes

/-- However many threads call get at the same time: one poll task and one message task are made,
each kind has at most one container with a timerfd, and nothing else is ever returned exactly if
no thread reads the static pointer while it points to a container without a timerfd. -/
theorem get_hands_out_one_container {p q : Process T} (initial : IsInit p) {ls : List (Label T)}
    (run : Run step p ls q) :
    (Throughout step HandsOutTimerfds p ls ↔ Meets step PublishedHasTimerfd p ls) ∧
      (∀ wakeOnExpire c d, q.statics.Has wakeOnExpire true c → q.statics.Has wakeOnExpire true d →
        c = d) ∧
      q.statics.pollTasks ≤ 1 ∧ q.statics.msgTasks ≤ 1 := by
  have keeps : ∀ (p : Process T) l q, Sound p → step p l = some q → Sound q :=
    fun _ _ _ sound taken => sound.moves (moves_of_step taken)
  have ok := (run.invariant keeps (.of_init initial)).ok
  refine ⟨?_, fun _ _ _ first second => ok.unique first second, ?_, ?_⟩
  · refine run.throughout_iff_meets (I := Sound) (P := HandsOutTimerfds)
      (fun _ _ _ _ hands taken => handsOut_moves hands (moves_of_step taken)) keeps
      (.of_init initial) fun kind c mem => ?_
    simp [initial.returned] at mem
  · rw [ok.pollTask]
    exact Option.length_toList_le
  · rw [ok.msgTask]
    exact Option.length_toList_le

section Runs

instance (s : Statics) (wakeOnExpire mDevFd : Bool) (c : Nat) :
    Decidable (s.Has wakeOnExpire mDevFd c) := inferInstanceAs (Decidable (_ = _))

instance (s : Statics) : (place : Place) → Decidable (s.ReturnsTimerfd place)
  | .toReturn wakeOnExpire =>
      inferInstanceAs (Decidable (∀ c ∈ s.timers wakeOnExpire, s.Has wakeOnExpire true c))
  | .outside | .toLock _ | .locked _ _ => isTrue trivial

instance (p : Process T) : (l : Label T) → Decidable (PublishedHasTimerfd p l)
  | .ret thread => inferInstanceAs (Decidable (p.statics.ReturnsTimerfd (p.place thread)))
  | .call _ _ | .lock _ | .work _ _ => isTrue trivial

def loaded : Process Bool where
  statics := ⟨fun _ => none, none, none, [], 0, 0⟩
  mMutex := none
  place _ := .outside
  returned := []

/-- One thread asks for a timer while another one makes the container of alarms. -/
def timerAndAlarm : List (Label Bool) :=
  [.call false false, .call true true, .lock true] ++ List.replicate 9 (.work true true) ++
    [.lock false] ++ List.replicate 7 (.work false true) ++ [.ret false, .ret true]

theorem two_threads_share_the_tasks : ∃ q, Run step loaded timerAndAlarm q ∧
    q.returned = [(false, some 1), (true, some 0)] ∧ Throughout step HandsOutTimerfds loaded
      timerAndAlarm ∧ q.statics.pollTasks ≤ 1 ∧ q.statics.msgTasks ≤ 1 := by
  have initial : IsInit loaded :=
    ⟨fun _ => rfl, rfl, rfl, rfl, rfl, rfl, rfl, fun _ => rfl, rfl⟩
  have careful : Meets step PublishedHasTimerfd loaded timerAndAlarm := by decide
  obtain ⟨q, run, returned⟩ : ∃ q, Run step loaded timerAndAlarm q ∧
      q.returned = [(false, some 1), (true, some 0)] := ⟨_, run_iff_foldlM.mpr rfl, rfl⟩
  obtain ⟨hands, -, tasks⟩ := get_hands_out_one_container initial run
  exact ⟨q, run, returned, hands.mpr careful, tasks⟩

/-- timerfd_create fails, and a thread that does not wait for mMutex returns the container. -/
example : ¬ Meets step PublishedHasTimerfd loaded
    ([.call true true, .lock true] ++ List.replicate 3 (.work true false) ++
      [.call false true, .ret false]) := by
  decide

end Runs
end Msm8974.TimerStatics
