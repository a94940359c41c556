import Msm8974.LocApi.AgpsInterface

/-!
What a modem restart does to the machines. The restart empties the subscriber lists behind
the machines' back: no state sees an event and nothing is released. A machine comes out of
it sound exactly if it had nothing to lose.
-/

namespace Msm8974.Agps
open Msm8974.Runs Msm8974.Traces

variable {κ : Type}

namespace LocEngAgps

theorem handleEngineUp_nifs {s : LocEngAgps κ} (initialised : s.agps_status_cb = true)
    {k : NifId} (dropped : k ≠ .wifi) :
    s.handleEngineUp.nifs k = (s.nifs k).map (·.dropAllSubscribers) := by
  rw [handleEngineUp, if_pos initialised]
  cases k with
  | agnss => simp [update]
  | internet => simp [update]
  | wifi => exact absurd rfl dropped

theorem handleEngineUp_wifi (s : LocEngAgps κ) : s.handleEngineUp.nifs .wifi = s.nifs .wifi := by
  unfold handleEngineUp
  split
  · simp [update]
  · rfl

/-- An engine-up finds both machines in Released. -/
def Idle (s : LocEngAgps κ) : NifLabel κ → Prop
  | .engineUp => ∀ k ∈ [NifId.agnss, .internet], ∀ m ∈ s.nifs k, m.mStatePtr = .released
  | .op _ _ => True

instance (s : LocEngAgps κ) : (l : NifLabel κ) → Decidable (Idle s l)
  | .engineUp => inferInstanceAs (Decidable (∀ k ∈ _, ∀ m ∈ s.nifs k, _))
  | .op _ _ => isTrue trivial

theorem Idle.released {s : LocEngAgps κ} (idle : Idle s .engineUp) {k : NifId}
    {m : AgpsStateMachine κ (Nif κ)} (dropped : k ≠ .wifi) (found : s.nifs k = some m) :
    m.mStatePtr = .released := by
  refine idle k ?_ m found
  cases k with
  | agnss | internet => simp
  | wifi => exact absurd rfl dropped

structure Sound (s : LocEngAgps κ) : Prop where
  initialised : s.agps_status_cb = true
  base : ∀ {k m}, s.nifs k = some m → BaseInvariant m
  ledger : ∀ {k m}, s.nifs k = some m → Ledger m.world.log m.mStatePtr.holds

namespace Sound
variable {s : LocEngAgps κ}
open AgpsStateMachine

theorem init (CAPABILITIES : BitVec 32) : Sound (agpsInit CAPABILITIES : LocEngAgps κ) := by
  have fresh : ∀ {k m}, (agpsInit CAPABILITIES : LocEngAgps κ).nifs k = some m →
      ∃ single mType, m = .new single ⟨mType, []⟩ := by
    intro k m found
    cases k with
    | agnss =>
        simp only [agpsInit, Option.ite_none_right_eq_some, Option.some.injEq] at found
        exact ⟨_, _, found.2.symm⟩
    | internet | wifi => exact ⟨_, _, (Option.some.inj found).symm⟩
  refine ⟨rfl, fun found => ?_, fun found => ?_⟩
  · obtain ⟨single, mType, rfl⟩ := fresh found
    exact new_baseInvariant single _
  · obtain ⟨single, mType, rfl⟩ := fresh found
    exact ⟨atEach_nil _, rfl⟩

/-- An idle machine has no subscriber to drop. -/
theorem handleEngineUp_eq (sound : Sound s) (idle : Idle s .engineUp) (k : NifId) :
    s.handleEngineUp.nifs k = s.nifs k := by
  by_cases dropped : k = .wifi
  · subst dropped
    exact s.handleEngineUp_wifi
  · rw [handleEngineUp_nifs sound.initialised dropped]
    cases found : s.nifs k with
    | none => rfl
    | some m =>
        have empty := (sound.base found).released_empty (idle.released dropped found)
        rw [Option.map_some, dropAllSubscribers, ← empty]

theorem engineUp (sound : Sound s) (idle : Idle s .engineUp) : Sound s.handleEngineUp := by
  refine ⟨?_, fun found => ?_, fun found => ?_⟩
  · rw [handleEngineUp, if_pos sound.initialised]
    exact sound.initialised
  · exact sound.base ((sound.handleEngineUp_eq idle _).symm.trans found)
  · exact sound.ledger ((sound.handleEngineUp_eq idle _).symm.trans found)

end Sound
end LocEngAgps

variable [SubscriberKind κ]

/-- `m'` is what a restart should make of `m`: state and list agree, a connection that was
held has been released, and the next subscriber makes the machine ask for one again. -/
structure Restarted (m m' : AgpsStateMachine κ (Nif κ)) : Prop where
  state : m'.mStatePtr = .released ↔ m'.mSubscribers = []
  released : held m.world.log = true →
    ∃ e ∈ newEvents m.world.log m'.world.log, e.isRelease = true
  asks : ∀ client : κ, ∃ e ∈ newEvents m'.world.log (m'.step (.subscribe client)).world.log,
    e.isRequest = true

namespace AgpsStateMachine

/-- The first subscriber of an idle machine makes it ask for the data connection. -/
theorem subscribe_asks {m : AgpsStateMachine κ (Nif κ)} (idle : m.mStatePtr = .released)
    (empty : m.mSubscribers = []) (client : κ) :
    (m.step (.subscribe client)).world.log = m.world.log ++
      [.onRsrcEvent .released .subscribe,
        .agpsCb ⟨m.world.mType, .requestAgpsDataConn, some client⟩] := by
  obtain ⟨state, list, single, w⟩ := m
  obtain rfl : state = .released := idle
  obtain rfl : list = [] := empty
  have admitted : (⟨.released, [], single, w⟩ : AgpsStateMachine κ (Nif κ)).subscribeRsrc
      ⟨client, false⟩ = dispatch (.subscribe ⟨client, false⟩) ⟨.released, [], single, w⟩ := by
    simp [subscribeRsrc, hasSubscribers]
  simp only [step, admitted, dispatch, releasedOnRsrcEvent, sendRsrcRequest_accepted, if_true]
  simp [sendRsrcRequest, AgpsVirtual.sendRsrcRequest, AgpsVirtual.trace, activeSubscriber_eq,
    addSubscriber_eq, Subscriber.clone, Nif.record, RsrcEvent.status]

/-- Dropping the subscribers restarts a machine exactly if it is in Released. -/
theorem restarted_dropAllSubscribers_iff {m : AgpsStateMachine κ (Nif κ)}
    (inv : BaseInvariant m) (ledger : Ledger m.world.log m.mStatePtr.holds) :
    Restarted m m.dropAllSubscribers ↔ m.mStatePtr = .released := by
  constructor
  · intro restarted
    exact restarted.state.mpr rfl
  · intro idle
    have same : m.dropAllSubscribers = m := by
      rw [dropAllSubscribers, ← inv.released_empty idle]
    rw [same]
    refine ⟨iff_of_true idle (inv.released_empty idle), fun holds => ?_, fun client => ?_⟩
    · rw [ledger.held_eq, idle] at holds
      exact absurd holds (by decide)
    · refine ⟨.agpsCb ⟨m.world.mType, .requestAgpsDataConn, some client⟩, ?_, rfl⟩
      simp [subscribe_asks idle (inv.released_empty idle), newEvents]

end AgpsStateMachine

namespace LocEngAgps
open AgpsStateMachine

/-- An engine-up restarts the two machines it drops the subscribers of. -/
def Consistent (s : LocEngAgps κ) (l : NifLabel κ) (t : LocEngAgps κ) : Prop :=
  l = .engineUp → ∀ k m m', k ≠ .wifi → s.nifs k = some m → t.nifs k = some m' → Restarted m m'

namespace Sound
variable {s t : LocEngAgps κ}

theorem op (sound : Sound s) (k : NifId) (op : AgpsOp κ) : Sound (s.update k (·.step op)) := by
  refine ⟨sound.initialised, fun found => ?_, fun found => ?_⟩
  · obtain ⟨rfl, m, before, rfl⟩ | ⟨-, before⟩ := of_update found
    · exact step_baseInvariant (sound.base before) op
    · exact sound.base before
  · obtain ⟨rfl, m, before, rfl⟩ | ⟨-, before⟩ := of_update found
    · exact step_ledger (sound.base before) (sound.ledger before) op
    · exact sound.ledger before

theorem step (sound : Sound s) {l : NifLabel κ} (idle : Idle s l) (taken : s.nifStep l = some t) :
    Sound t := by
  cases l with
  | op k op =>
      simp only [nifStep, Option.ite_none_right_eq_some, Option.some.injEq] at taken
      exact taken.2 ▸ sound.op k op
  | engineUp =>
      obtain rfl := Option.some.inj taken
      exact sound.engineUp idle

theorem consistent_iff_idle (sound : Sound s) {l : NifLabel κ} (taken : s.nifStep l = some t) :
    Consistent s l t ↔ Idle s l := by
  cases l with
  | op k op => exact iff_of_true (fun restart => by cases restart) trivial
  | engineUp =>
      obtain rfl := Option.some.inj taken
      have after : ∀ {k m}, k ≠ .wifi → s.nifs k = some m →
          s.handleEngineUp.nifs k = some m.dropAllSubscribers := by
        intro k m dropped found
        rw [handleEngineUp_nifs sound.initialised dropped, found, Option.map_some]
      constructor
      · intro consistent k both m found
        have dropped : k ≠ .wifi := by
          rintro rfl
          simp at both
        have restarted := consistent rfl k m _ dropped found (after dropped found)
        exact (restarted_dropAllSubscribers_iff (sound.base found) (sound.ledger found)).mp
          restarted
      · intro idle _ k m m' dropped found found'
        obtain rfl := Option.some.inj ((after dropped found).symm.trans found')
        exact (restarted_dropAllSubscribers_iff (sound.base found) (sound.ledger found)).mpr
          (idle.released dropped found)

end Sound

/-- The restarts of a run leave the machines consistent exactly if each of them finds both
machines in Released, whatever came before it. -/
theorem engine_up_is_consistent_iff (CAPABILITIES : BitVec 32) {ls : List (NifLabel κ)}
    {t : LocEngAgps κ} (run : Run nifStep (agpsInit CAPABILITIES) ls t) :
    EachStep nifStep Consistent (agpsInit CAPABILITIES) ls ↔
      Meets nifStep Idle (agpsInit CAPABILITIES) ls := by
  refine run.eachStep_iff_meets_of_invariant (I := Sound) (fun s l t sound taken => ?_)
    (fun s l t sound idle taken => ?_) (.init CAPABILITIES)
  · exact sound.consistent_iff_idle taken
  · exact sound.step idle taken

/-- A session of one client that has ended before the restart. -/
theorem engine_up_after_session_is_consistent :
    EachStep nifStep Consistent (agpsInit 7 : LocEngAgps ATLSubscriber)
      [.op .agnss (.subscribe ⟨1⟩), .op .agnss (.event .granted), .op .agnss (.unsubscribe ⟨1⟩),
        .op .agnss (.event .released), .engineUp] :=
  (engine_up_is_consistent_iff 7 (run_iff_foldlM.mpr rfl)).mpr (by decide)

/-- A client waits for its connection at the restart: the machine is left in Pending with
nobody on its list. -/
theorem engine_up_leaves_pending_machine :
    ¬ EachStep nifStep Consistent (agpsInit 7 : LocEngAgps ATLSubscriber)
      [.op .agnss (.subscribe ⟨1⟩), .engineUp] := by
  intro consistent
  have restarted := consistent [.op .agnss (.subscribe ⟨1⟩)] .engineUp [] _ _ rfl
    (.cons rfl (.nil _)) rfl rfl .agnss _ _ (by decide) rfl rfl
  have idle := restarted.state.mpr rfl
  exact absurd idle (by decide)

end LocEngAgps
end Msm8974.Agps
