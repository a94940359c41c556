import Msm8974.LocApi.DSMachine

/-!
What a data-services machine in Pending waits for: a data call that was accepted
and whose opened or closed event is still to come. A start out of Released is only
followed by Pending when it was accepted; the one out of Releasing always is.
-/

namespace Msm8974.Agps
open Msm8974.Runs Msm8974.Traces

def DSEvent.startsOrConsumes : DSEvent → Bool
  | .openAndStartDataCall _ => true
  | .onRsrcEvent _ .granted | .onRsrcEvent _ .released | .onRsrcEvent _ .denied => true
  | _ => false

/-- The last data call was accepted and none of its events was consumed yet. -/
def Outstanding (log : List DSEvent) : Prop :=
  Since (· = .openAndStartDataCall LOC_API_ADAPTER_ERR_SUCCESS) (·.startsOrConsumes = true) log

instance (log : List DSEvent) : Decidable (Outstanding log) :=
  inferInstanceAs (Decidable (Since _ _ log))

theorem outstanding_concat {log : List DSEvent} {e : DSEvent} (h : e.startsOrConsumes = false) :
    Outstanding (log ++ [e]) ↔ Outstanding log := by
  have other : e ≠ .openAndStartDataCall LOC_API_ADAPTER_ERR_SUCCESS := by
    intro same
    simp [same, DSEvent.startsOrConsumes] at h
  simp [Outstanding, since_concat, h, other]

theorem outstanding_start {log : List DSEvent} {ret : Int} :
    Outstanding (log ++ [.openAndStartDataCall ret]) ↔ ret = LOC_API_ADAPTER_ERR_SUCCESS := by
  simp [Outstanding, since_concat, DSEvent.startsOrConsumes]

namespace DSWorld

theorem informStatus_outstanding (status : AgpsRsrcStatus) (ID : ConnHandle) (w : DSWorld) :
    Outstanding (w.informStatus status ID).log ↔ Outstanding w.log := by
  cases status with
  | unsubscribe | granted | released | denied => exact outstanding_concat rfl
  | subscribe | statusMax => rfl

theorem start_outstanding (s : Option DSSubscriber) (w : DSWorld) :
    Outstanding (w.sendRsrcRequest .requestAgpsDataConn s).2.log ↔
      w.startResult = LOC_API_ADAPTER_ERR_SUCCESS := by
  obtain ⟨w', ret, log, -, ⟨-, h⟩ | ⟨-, h⟩⟩ := start_cases s w
  · rw [h, informStatus_outstanding, log, outstanding_start]
  · rw [h, log, outstanding_start]

theorem start_accepted (s : Option DSSubscriber) (w : DSWorld) :
    (w.sendRsrcRequest .requestAgpsDataConn s).1 = 0 ↔
      w.startResult = LOC_API_ADAPTER_ERR_SUCCESS := by
  obtain ⟨w', ret, -, accepted, ⟨-, h⟩ | ⟨-, h⟩⟩ := start_cases s w
  · rw [h]
    exact accepted
  · rw [h]
    exact accepted

end DSWorld

namespace DSStateMachine

def WaitsForData (m : DSStateMachine) : Prop :=
  m.mStatePtr = .pending → Outstanding m.world.log

/-- A close that finds active subscribers in Releasing starts a data call that is accepted. -/
def RestartAccepted (m : DSStateMachine) : Label → Prop
  | .closed startResult =>
      m.mStatePtr = .releasing → (∃ s ∈ m.mSubscribers, s.mIsInactive = false) →
        startResult = LOC_API_ADAPTER_ERR_SUCCESS
  | _ => True

theorem withWorld_waitsForData {m : DSStateMachine} (waits : WaitsForData m)
    {f : DSWorld → DSWorld} (quiet : Outstanding (f m.world).log ↔ Outstanding m.world.log) :
    WaitsForData (withWorld f m) :=
  fun pending => quiet.mpr (waits pending)

theorem dispatch_subscribe_waits {m : DSStateMachine} (waits : WaitsForData m)
    (s : Subscriber DSSubscriber) : WaitsForData (m.dispatch (.subscribe s)) := by
  obtain ⟨state, list, single, w⟩ := m
  intro pending
  cases state with
  | released =>
      simp only [AgpsStateMachine.dispatch, AgpsStateMachine.releasedOnRsrcEvent] at pending ⊢
      split at pending
      next accepted =>
        simp only [AgpsStateMachine.sendRsrcRequest, AgpsVirtual.sendRsrcRequest] at accepted
        rw [DSWorld.start_accepted] at accepted
        split
        · exact (DSWorld.start_outstanding _ _).mpr accepted
        · exact (DSWorld.start_outstanding _ _).mpr accepted
      · simp at pending
  | pending =>
      simp only [AgpsStateMachine.dispatch, AgpsStateMachine.pendingOnRsrcEvent,
        AgpsStateMachine.addSubscriber_world]
      exact (outstanding_concat rfl).mpr (waits rfl)
  | acquired =>
      simp [AgpsStateMachine.dispatch, AgpsStateMachine.acquiredOnRsrcEvent] at pending
  | releasing =>
      simp [AgpsStateMachine.dispatch, AgpsStateMachine.releasingOnRsrcEvent] at pending

theorem dropSubscriber_outstanding (i : Nat) (m : DSStateMachine) :
    Outstanding (m.dropSubscriber i).world.log ↔ Outstanding m.world.log := by
  obtain ⟨-, h⟩ | ⟨s, -, -, h⟩ | ⟨s, -, wait, -⟩ := AgpsStateMachine.dropSubscriber_cases i m
  · rw [h]
  · rw [h]
    exact DSWorld.informStatus_outstanding .unsubscribe s.client.ID m.world
  · cases wait

theorem releaseIfUnused_waits {m : DSStateMachine} (waits : WaitsForData m) :
    WaitsForData m.releaseIfUnused := by
  intro pending
  obtain ⟨-, h⟩ | ⟨-, -, h⟩ | ⟨-, h⟩ := AgpsStateMachine.releaseIfUnused_cases m
  · simp [h] at pending
  · simp [h] at pending
  · rw [h] at pending ⊢
    exact waits pending

theorem dispatch_unsubscribe_waits {m : DSStateMachine} (waits : WaitsForData m) (i : Nat) :
    WaitsForData (m.dispatch (.unsubscribe i)) := by
  obtain ⟨state, list, single, w⟩ := m
  let entered : DSStateMachine := ⟨state, list, single, w.record (.onRsrcEvent state .unsubscribe)⟩
  have waits' : WaitsForData entered := fun pending => (outstanding_concat rfl).mpr (waits pending)
  have dropped : WaitsForData (entered.dropSubscriber i) := by
    intro pending
    rw [(AgpsStateMachine.dropSubscriber_fields i entered).1] at pending
    exact (dropSubscriber_outstanding i entered).mpr (waits' pending)
  cases state with
  | released =>
      intro pending
      simp only [AgpsStateMachine.dispatch, AgpsStateMachine.releasedOnRsrcEvent] at pending
      split at pending <;> cases pending
  | pending | acquired => exact releaseIfUnused_waits dropped
  | releasing =>
      intro pending
      simp only [AgpsStateMachine.dispatch, AgpsStateMachine.releasingOnRsrcEvent] at pending
      split at pending
      · cases pending
      · rw [(AgpsStateMachine.dropSubscriber_fields i _).1] at pending
        cases pending

theorem opened_waits (m : DSStateMachine) : WaitsForData (onRsrcEvent .granted m) := by
  obtain ⟨state, list, single, w⟩ := m
  intro pending
  cases state <;> simp [onRsrcEvent, AgpsStateMachine.dispatch,
    AgpsStateMachine.releasedOnRsrcEvent, AgpsStateMachine.pendingOnRsrcEvent,
    AgpsStateMachine.acquiredOnRsrcEvent, AgpsStateMachine.releasingOnRsrcEvent,
    AgpsStateMachine.notifySubscribers_granted] at pending

/-- Outside Releasing a closed event leaves the machine in Released. -/
theorem closed_released {m : DSStateMachine} (h : m.mStatePtr ≠ .releasing) :
    (onRsrcEvent .released m).mStatePtr = .released := by
  obtain ⟨state, list, single, w⟩ := m
  cases state with
  | released => rfl
  | pending =>
      simp [onRsrcEvent, AgpsStateMachine.dispatch, AgpsStateMachine.pendingOnRsrcEvent,
        AgpsStateMachine.notifySubscribers_all .denied rfl]
  | acquired =>
      simp [onRsrcEvent, AgpsStateMachine.dispatch, AgpsStateMachine.acquiredOnRsrcEvent,
        AgpsStateMachine.notifySubscribers_all .released rfl]
  | releasing => exact absurd rfl h

theorem deliver_released_startResult {n : Notification DSSubscriber}
    (status : n.rsrcStatus = .released) (list : List (Subscriber DSSubscriber)) (w : DSWorld) :
    (n.deliver list w).startResult = w.startResult := by
  obtain ⟨log, logged⟩ := deliver_released_log status list w
  rw [logged]

theorem closed_releasing_waits_iff {m : DSStateMachine} (h : m.mStatePtr = .releasing) :
    WaitsForData (onRsrcEvent .released m) ↔
      ((∃ s ∈ m.mSubscribers, s.mIsInactive = false) →
        m.world.startResult = LOC_API_ADAPTER_ERR_SUCCESS) := by
  obtain ⟨state, list, single, w⟩ := m
  obtain rfl : state = .releasing := h
  let entered : DSStateMachine :=
    ⟨.releasing, list, single, w.record (.onRsrcEvent .releasing .released)⟩
  have delivered := deliver_released_startResult
    (n := .broadcast .broadcastInactive .released true) rfl list entered.world
  rw [onRsrcEvent_releasing_released]
  obtain ⟨active, after⟩ | ⟨inactive, after⟩ :=
    AgpsStateMachine.releasingOnRsrcEvent_close (.inl rfl) entered
  · rw [after]
    simp only [WaitsForData, AgpsStateMachine.sendRsrcRequest, AgpsVirtual.sendRsrcRequest,
      DSWorld.start_outstanding, forall_const]
    exact ⟨fun accepted _ => delivered.symm.trans accepted,
      fun accepted => delivered.trans (accepted active)⟩
  · rw [after]
    refine iff_of_true (fun pending => by cases pending) ?_
    rintro ⟨s, hs, active⟩
    exact absurd (inactive s hs) (by simp [active])

theorem requestSuplEsProc_waits {m : DSStateMachine} (inv : Invariant m) (waits : WaitsForData m)
    (mID : ConnHandle) (startResult : Int) :
    WaitsForData (requestSuplEsProc mID startResult m) := by
  rw [requestSuplEsProc_eq inv]
  exact dispatch_subscribe_waits (withWorld_waitsForData waits Iff.rfl) _

theorem step_waits_iff {m m' : DSStateMachine} {l : Label} (inv : Invariant m)
    (waits : WaitsForData m) (h : step m l = some m') :
    WaitsForData m' ↔ RestartAccepted m l := by
  cases l with
  | modemRequest mID startResult =>
      obtain rfl := Option.some.inj h
      exact iff_of_true (requestSuplEsProc_waits (inv.withWorld _)
        (withWorld_waitsForData waits (outstanding_concat rfl)) _ _) trivial
  | retryRequest startResult =>
      simp only [step] at h
      split at h
      · cases h
      · obtain rfl := Option.some.inj h
        exact iff_of_true (requestSuplEsProc_waits (inv.withWorld _)
          (withWorld_waitsForData waits Iff.rfl) _ _) trivial
  | releaseATL mID onAgpsMachine =>
      obtain rfl := Option.some.inj h
      refine iff_of_true ?_ trivial
      obtain ⟨-, h⟩ | ⟨-, -, h⟩ | ⟨-, i, s, -, -, h⟩ := releaseATLProc_cases mID onAgpsMachine m
      · exact h ▸ withWorld_waitsForData waits (outstanding_concat rfl)
      · exact h ▸ withWorld_waitsForData waits (outstanding_concat rfl)
      · exact h ▸ dispatch_unsubscribe_waits waits i
  | timerExpire =>
      simp only [step] at h
      split at h
      · obtain rfl := Option.some.inj h
        refine iff_of_true ?_ trivial
        unfold retryCallback
        split
        · exact withWorld_waitsForData waits Iff.rfl
        · exact withWorld_waitsForData (withWorld_waitsForData waits Iff.rfl)
            (outstanding_concat rfl)
      · cases h
  | opened =>
      obtain rfl := Option.some.inj h
      exact iff_of_true (opened_waits m) trivial
  | closed startResult =>
      obtain rfl := Option.some.inj h
      by_cases releasing : m.mStatePtr = .releasing
      · rw [closed_releasing_waits_iff (m := withWorld _ m) releasing]
        exact ⟨fun accepted _ => accepted, fun accepted => accepted releasing⟩
      · refine iff_of_true (fun pending => ?_) (fun h => absurd h releasing)
        rw [closed_released (m := withWorld _ m) releasing] at pending
        cases pending

/-- In every state of a run, Pending has a data call to wait for, exactly when no restart
out of Releasing is turned down. -/
theorem pending_waits_iff_restarts_accepted (ls : List Label) (m : DSStateMachine)
    (run : Run step new ls m) :
    Throughout step WaitsForData new ls ↔ Meets step RestartAccepted new ls :=
  run.throughout_iff_meets (P := WaitsForData) (I := Invariant)
    (fun _ _ _ inv waits h => step_waits_iff inv waits h)
    (fun _ _ _ inv h => inv.step h) new_invariant (fun pending => by cases pending)

theorem pending_waits_while_opening :
    Throughout step WaitsForData new [.modemRequest 7 0, .opened] :=
  (pending_waits_iff_restarts_accepted _ _ (run_iff_foldlM.mpr rfl)).mpr
    ⟨trivial, fun _ _ => ⟨trivial, fun _ _ => trivial⟩⟩

/-- The restart for handle 8 is unsupported and the machine is in Pending all the same. -/
theorem restart_turned_down_leaves_pending :
    ∃ m, Run step new [.modemRequest 7 0, .opened, .releaseATL 7 false, .modemRequest 8 0,
      .closed 2] m ∧ m.mStatePtr = .pending ∧ ¬ Outstanding m.world.log :=
  ⟨_, run_iff_foldlM.mpr rfl, by decide⟩

end DSStateMachine
end Msm8974.Agps
