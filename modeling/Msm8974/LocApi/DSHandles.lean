import Msm8974.LocApi.DSMachine

/-!
Which connection handles the data-services machine may still speak for. A handle is
answered when it is closed or handed to the ordinary ATL path, until the modem asks
for it again. The machine only speaks for active subscribers, so all rests on none
of them being answered; the guard names the steps that break this.
-/

namespace Msm8974.Agps
open Msm8974.Runs Msm8974.Traces

def DSEvent.issued : DSEvent → Option ConnHandle
  | .requestSuplES h | .requestATL h _ | .atlOpenStatus h .. => some h
  | _ => none

def DSEvent.answered : DSEvent → Option ConnHandle
  | .atlCloseStatus h isSucc => if isSucc = 1 then some h else none
  | .requestATL h agpsType => if agpsType = AGPS_TYPE_SUPL then some h else none
  | _ => none

/-- The handle was answered and the modem has not asked for it again. -/
def Answered (h : ConnHandle) (log : List DSEvent) : Prop :=
  Since (·.answered = some h) (· = .modemRequest h) log

instance (h : ConnHandle) (log : List DSEvent) : Decidable (Answered h log) :=
  inferInstanceAs (Decidable (Since _ _ log))

/-- Nothing is issued for a handle that was answered. -/
def Fresh (before : List DSEvent) (e : DSEvent) : Prop :=
  ∀ h, e.issued = some h → ¬ Answered h before

theorem answered_concat {h : ConnHandle} {log : List DSEvent} {e : DSEvent}
    (other : e.answered ≠ some h) (unanswered : ¬ Answered h log) : ¬ Answered h (log ++ [e]) := by
  rw [Answered, since_concat]
  intro now
  cases now with
  | inl here => exact other here
  | inr before => exact unanswered before.1

theorem not_answered_modemRequest (h : ConnHandle) (log : List DSEvent) :
    ¬ Answered h (log ++ [.modemRequest h]) := by
  simp [Answered, since_concat, DSEvent.answered]

/-- A log without stale issues, after which no active subscriber of the list is answered. -/
structure Clean (list : List (Subscriber DSSubscriber)) (log : List DSEvent) : Prop where
  fresh : AtEach Fresh log
  unanswered : ∀ s ∈ list, s.mIsInactive = false → ¬ Answered s.client.ID log

namespace Clean
variable {list list' : List (Subscriber DSSubscriber)} {log : List DSEvent}

theorem concat (clean : Clean list log) {e : DSEvent} (issue : Fresh log e)
    (answer : ∀ s ∈ list, s.mIsInactive = false → e.answered ≠ some s.client.ID) :
    Clean list (log ++ [e]) where
  fresh := atEach_concat.mpr ⟨clean.fresh, issue⟩
  unanswered s hs active := answered_concat (answer s hs active) (clean.unanswered s hs active)

theorem silent (clean : Clean list log) {e : DSEvent} (issued : e.issued = none)
    (answered : e.answered = none) : Clean list (log ++ [e]) :=
  clean.concat (fun h issue => by simp [issued] at issue) (fun s _ _ => by simp [answered])

theorem mono (clean : Clean list log)
    (active : ∀ s ∈ list', s.mIsInactive = false → s ∈ list) : Clean list' log where
  fresh := clean.fresh
  unanswered s hs h := clean.unanswered s (active s hs h) h

theorem opens (clean : Clean list log) {h : ConnHandle} (unanswered : ¬ Answered h log) :
    Clean list ((⟨0, 0, 0, [], log⟩ : DSWorld).informStatus .granted h).log := by
  refine clean.concat (fun h' issue => ?_) (fun s _ _ => by simp [DSEvent.answered])
  obtain rfl : h = h' := by simpa [DSEvent.issued] using issue
  exact unanswered

theorem add (clean : Clean list log) {m : DSStateMachine} {s : Subscriber DSSubscriber}
    (same : m.mSubscribers = list) (unanswered : ¬ Answered s.client.ID log) :
    Clean (m.addSubscriber s).mSubscribers log := by
  obtain ⟨unchanged, -⟩ | ⟨added, -⟩ := AgpsStateMachine.addSubscriber_mSubscribers s m
  · exact unchanged ▸ same ▸ clean
  · refine ⟨clean.fresh, fun t ht active => ?_⟩
    rw [added, same, List.mem_cons] at ht
    cases ht with
    | inl new => exact new ▸ unanswered
    | inr old => exact clean.unanswered t old active

end Clean

theorem deliver_released_clean {n : Notification DSSubscriber} (status : n.rsrcStatus = .released)
    (all : List (Subscriber DSSubscriber)) {list : List (Subscriber DSSubscriber)} {w : DSWorld}
    (clean : Clean list w.log) : Clean list (n.deliver all w).log := by
  unfold Notification.deliver
  refine List.foldlRecOn (motive := fun w' : DSWorld => Clean list w'.log) _ _ clean
    fun w' ih s _ => ?_
  rw [status]
  exact ih.silent rfl rfl

theorem deliver_granted_clean {list : List (Subscriber DSSubscriber)} {w : DSWorld}
    (clean : Clean list w.log) :
    Clean list ((Notification.broadcast .broadcastActive .granted false).deliver list w).log := by
  unfold Notification.deliver
  refine List.foldlRecOn (motive := fun w' : DSWorld => Clean list w'.log) _ _ clean
    fun w' ih s hs => ?_
  have listed : s ∈ list ∧ s.mIsInactive = false := by
    simpa [Subscriber.forMe, Notification.broadcast, Subscriber.isInactive] using hs
  exact ih.opens (ih.unanswered s listed.1 listed.2)

/-- A broadcast denial answers each handle once, so it is fresh when none was answered. -/
theorem deliver_denied_fresh {list : List (Subscriber DSSubscriber)} {w : DSWorld}
    (fresh : AtEach Fresh w.log) (distinct : (list.map (·.client)).Nodup)
    (unanswered : ∀ s ∈ list, ¬ Answered s.client.ID w.log) :
    AtEach Fresh ((Notification.broadcast .broadcastAll .denied true).deliver list w).log := by
  have everyone : list.filter (·.forMe (.broadcast .broadcastAll .denied true)) = list := by
    simp [Subscriber.forMe, Notification.broadcast]
  rw [Notification.deliver, everyone]
  clear everyone
  induction list generalizing w with
  | nil => exact fresh
  | cons s list ih =>
      rw [List.map_cons, List.nodup_cons] at distinct
      refine ih (w := w.informStatus .denied s.client.ID) ?_ distinct.2 fun t ht => ?_
      · refine atEach_concat.mpr ⟨fresh, fun h issue => ?_⟩
        obtain rfl : s.client.ID = h := by simpa [DSEvent.issued] using issue
        exact unanswered s List.mem_cons_self
      · refine answered_concat ?_ (unanswered t (List.mem_cons_of_mem _ ht))
        intro same
        have equal : s.client = t.client := by
          simpa [DSEvent.answered, DSSubscriber.ext_iff] using same
        exact distinct.1 (equal ▸ List.mem_map_of_mem ht)

namespace DSStateMachine

structure HandlesInvariant (m : DSStateMachine) : Prop extends Invariant m where
  clean : Clean m.mSubscribers m.world.log
  distinct : m.clients.Nodup

theorem dispatch_distinct {m : DSStateMachine} (distinct : m.clients.Nodup)
    (event : AgpsStateMachine.RsrcEvent DSSubscriber) : (m.dispatch event).clients.Nodup := by
  cases event with
  | subscribe s =>
      rw [AgpsStateMachine.clients, AgpsStateMachine.dispatch_subscribe_mSubscribers]
      obtain ⟨same, -⟩ | ⟨added, new⟩ := AgpsStateMachine.addSubscriber_mSubscribers s m
      · exact same ▸ distinct
      · rw [added, List.map_cons, List.nodup_cons]
        refine ⟨fun listed => ?_, distinct⟩
        obtain ⟨t, ht, equal⟩ := List.mem_map.mp listed
        have other := new t ht
        simp [Subscriber.equals, SubscriberKind.equals, equal, Subscriber.clone] at other
  | unsubscribe i | granted | released | denied =>
      exact distinct.sublist (AgpsStateMachine.dispatch_clients (by simp) m)

theorem entered_clean {m : DSStateMachine} (clean : Clean m.mSubscribers m.world.log)
    (event : AgpsRsrcStatus) :
    Clean m.mSubscribers (m.world.record (.onRsrcEvent m.mStatePtr event)).log :=
  clean.silent rfl rfl

theorem start_clean {list : List (Subscriber DSSubscriber)} {w : DSWorld}
    (clean : Clean list w.log) (kept : ¬ w.FallsBack) (s : Option DSSubscriber) :
    Clean list (w.sendRsrcRequest .requestAgpsDataConn s).2.log := by
  obtain ⟨w', ret, log, -, ⟨falls, -⟩ | ⟨-, h⟩⟩ := w.start_cases s
  · exact absurd falls kept
  · rw [h, log]
    exact clean.silent rfl rfl

theorem dispatch_subscribe_clean {m : DSStateMachine} (clean : Clean m.mSubscribers m.world.log)
    {s : Subscriber DSSubscriber} (unanswered : ¬ Answered s.client.ID m.world.log)
    (kept : m.mStatePtr = .released → ¬ m.world.FallsBack) :
    Clean (m.dispatch (.subscribe s)).mSubscribers (m.dispatch (.subscribe s)).world.log := by
  rw [AgpsStateMachine.dispatch_subscribe_mSubscribers]
  obtain ⟨state, list, single, w⟩ := m
  have entered := entered_clean clean .subscribe
  have unanswered' : ¬ Answered s.client.ID
      (w.record (.onRsrcEvent state .subscribe)).log :=
    answered_concat (by simp [DSEvent.answered]) unanswered
  have added := entered.add (m := ⟨state, list, single, w⟩) rfl unanswered'
  cases state with
  | released =>
      have started := start_clean added (kept rfl)
      simp only [AgpsStateMachine.dispatch, AgpsStateMachine.releasedOnRsrcEvent]
      split
      · simp only [AgpsStateMachine.sendRsrcRequest, AgpsStateMachine.addSubscriber_world]
        exact started _
      · simp only [AgpsStateMachine.sendRsrcRequest, AgpsStateMachine.addSubscriber_world]
        exact started _
  | pending | releasing =>
      simp only [AgpsStateMachine.dispatch, AgpsStateMachine.pendingOnRsrcEvent,
        AgpsStateMachine.releasingOnRsrcEvent, AgpsStateMachine.addSubscriber_world]
      exact added
  | acquired =>
      simp only [AgpsStateMachine.dispatch, AgpsStateMachine.acquiredOnRsrcEvent,
        AgpsStateMachine.addSubscriber_world, Subscriber.notifyRsrcStatus]
      split
      · exact added.opens unanswered'
      · exact added

/-- Closing the handle of the subscriber that becomes inactive leaves the other active
subscribers unanswered, because their handles differ. -/
theorem setInactiveAt_clean {m : DSStateMachine} (clean : Clean m.mSubscribers m.world.log)
    (distinct : m.clients.Nodup) {i : Nat} {s : Subscriber DSSubscriber}
    (hi : m.mSubscribers[i]? = some s) :
    Clean (m.setInactiveAt i s).mSubscribers (m.setInactiveAt i s).world.log := by
  have others : ∀ t ∈ (m.setInactiveAt i s).mSubscribers, t.mIsInactive = false →
      t ∈ m.mSubscribers ∧ t.client ≠ s.client := by
    intro t ht active
    obtain ⟨j, hj⟩ := List.mem_iff_getElem?.mp ht
    simp only [AgpsStateMachine.setInactiveAt, List.getElem?_modify] at hj
    by_cases same : i = j
    · subst same
      simp only [hi, if_true, Option.map_eq_map, Option.map_some, Option.some.injEq] at hj
      subst hj
      simp [Subscriber.setInactive, SubscriberKind.waitForCloseComplete] at active
    · have there : m.mSubscribers[j]? = some t := by simpa [same] using hj
      refine ⟨List.mem_of_getElem? there, fun equal => same ?_⟩
      have hic : m.clients[i]? = some s.client := by simp [AgpsStateMachine.clients, hi]
      have hjc : m.clients[j]? = some s.client := by
        simp [AgpsStateMachine.clients, there, equal]
      obtain ⟨bound, -⟩ := List.getElem?_eq_some_iff.mp hic
      exact (List.getElem?_inj bound distinct).mp (hic.trans hjc.symm)
  have kept : Clean (m.setInactiveAt i s).mSubscribers m.world.log :=
    clean.mono fun t ht active => (others t ht active).1
  refine kept.concat (fun h issue => by cases issue) fun t ht active same => ?_
  have equal : s.client = t.client := by
    simpa [DSEvent.answered, DSSubscriber.ext_iff] using same
  exact (others t ht active).2 equal.symm

theorem dropSubscriber_clean {m : DSStateMachine} (clean : Clean m.mSubscribers m.world.log)
    (distinct : m.clients.Nodup) (i : Nat) :
    Clean (m.dropSubscriber i).mSubscribers (m.dropSubscriber i).world.log := by
  obtain ⟨-, h⟩ | ⟨s, hi, -, h⟩ | ⟨s, -, wait, -⟩ := AgpsStateMachine.dropSubscriber_cases i m
  · exact h.symm ▸ clean
  · exact h ▸ setInactiveAt_clean clean distinct hi
  · cases wait

theorem releaseIfUnused_clean {m : DSStateMachine} (clean : Clean m.mSubscribers m.world.log) :
    Clean m.releaseIfUnused.mSubscribers m.releaseIfUnused.world.log := by
  obtain ⟨-, h⟩ | ⟨-, -, h⟩ | ⟨-, h⟩ := AgpsStateMachine.releaseIfUnused_cases m
  · exact h ▸ clean.silent rfl rfl
  · exact h ▸ clean.silent rfl rfl
  · exact h.symm ▸ clean

theorem dispatch_unsubscribe_clean {m : DSStateMachine} (clean : Clean m.mSubscribers m.world.log)
    (distinct : m.clients.Nodup) (left : m.mStatePtr ≠ .released) (i : Nat) :
    Clean (m.dispatch (.unsubscribe i)).mSubscribers
      (m.dispatch (.unsubscribe i)).world.log := by
  obtain ⟨state, list, single, w⟩ := m
  have dropped := dropSubscriber_clean
    (m := ⟨state, list, single, w.record (.onRsrcEvent state .unsubscribe)⟩)
    (entered_clean clean .unsubscribe) distinct i
  cases state with
  | released => exact absurd rfl left
  | pending | acquired => exact releaseIfUnused_clean dropped
  | releasing =>
      simp only [AgpsStateMachine.dispatch, AgpsStateMachine.releasingOnRsrcEvent]
      split <;> exact dropped

theorem opened_clean {m : DSStateMachine} (clean : Clean m.mSubscribers m.world.log) :
    Clean (onRsrcEvent .granted m).mSubscribers (onRsrcEvent .granted m).world.log := by
  obtain ⟨state, list, single, w⟩ := m
  have entered := entered_clean clean .granted
  cases state with
  | released | acquired | releasing => exact entered
  | pending =>
      simp only [onRsrcEvent, AgpsStateMachine.dispatch, AgpsStateMachine.pendingOnRsrcEvent,
        AgpsStateMachine.notifySubscribers_granted]
      exact deliver_granted_clean entered

theorem closed_pending_clean {m : DSStateMachine} (h : m.mStatePtr = .pending)
    (clean : Clean m.mSubscribers m.world.log) (distinct : m.clients.Nodup)
    (unanswered : ∀ s ∈ m.mSubscribers, ¬ Answered s.client.ID m.world.log) :
    Clean (onRsrcEvent .released m).mSubscribers (onRsrcEvent .released m).world.log := by
  obtain ⟨state, list, single, w⟩ := m
  obtain rfl : state = .pending := h
  rw [onRsrcEvent_pending_released]
  refine ⟨deliver_denied_fresh ?_ distinct fun s hs => ?_, by simp⟩
  · exact ((clean.silent rfl rfl).silent rfl rfl).fresh
  · exact answered_concat (by simp [DSEvent.answered])
      (answered_concat (by simp [DSEvent.answered]) (unanswered s hs))

theorem deliver_released_fallsBack {n : Notification DSSubscriber}
    (status : n.rsrcStatus = .released) (list : List (Subscriber DSSubscriber)) (w : DSWorld) :
    (n.deliver list w).FallsBack ↔ w.FallsBack := by
  obtain ⟨log, logged⟩ := deliver_released_log status list w
  rw [logged]
  rfl

theorem closed_releasing_clean {m : DSStateMachine} (h : m.mStatePtr = .releasing)
    (clean : Clean m.mSubscribers m.world.log)
    (kept : (∃ s ∈ m.mSubscribers, s.mIsInactive = false) → ¬ m.world.FallsBack) :
    Clean (onRsrcEvent .released m).mSubscribers (onRsrcEvent .released m).world.log := by
  obtain ⟨state, list, single, w⟩ := m
  obtain rfl : state = .releasing := h
  let entered : DSStateMachine :=
    ⟨.releasing, list, single, w.record (.onRsrcEvent .releasing .released)⟩
  have closed := deliver_released_clean (n := .broadcast .broadcastInactive .released true) rfl
    list (entered_clean clean .released)
  rw [onRsrcEvent_releasing_released]
  obtain ⟨active, after⟩ | ⟨-, after⟩ :=
    AgpsStateMachine.releasingOnRsrcEvent_close (.inl rfl) entered
  · rw [after]
    refine start_clean (closed.mono fun s hs _ => (List.mem_filter.mp hs).1) ?_ _
    exact fun falls => kept active
      ((deliver_released_fallsBack (n := .broadcast .broadcastInactive .released true) rfl
        list entered.world).mp falls)
  · rw [after]
    exact closed.mono (by simp)

theorem closed_clean {m : DSStateMachine} (clean : Clean m.mSubscribers m.world.log)
    (distinct : m.clients.Nodup)
    (unanswered : m.mStatePtr = .pending →
      ∀ s ∈ m.mSubscribers, ¬ Answered s.client.ID m.world.log)
    (kept : m.mStatePtr = .releasing → (∃ s ∈ m.mSubscribers, s.mIsInactive = false) →
      ¬ m.world.FallsBack) :
    Clean (onRsrcEvent .released m).mSubscribers (onRsrcEvent .released m).world.log := by
  cases h : m.mStatePtr with
  | pending => exact closed_pending_clean h clean distinct (unanswered h)
  | releasing => exact closed_releasing_clean h clean (kept h)
  | released =>
      obtain ⟨state, list, single, w⟩ := m
      obtain rfl : state = .released := h
      exact (clean.silent rfl rfl).silent rfl rfl
  | acquired =>
      obtain ⟨state, list, single, w⟩ := m
      obtain rfl : state = .acquired := h
      have closed := deliver_released_clean (n := .broadcast .broadcastAll .released true) rfl
        list (entered_clean clean .released)
      have after : onRsrcEvent .released (⟨.acquired, list, single, w⟩ : DSStateMachine) =
          ⟨.released, [], single, (Notification.broadcast .broadcastAll .released true).deliver
            list (w.record (.onRsrcEvent .acquired .released))⟩ := by
        simp [onRsrcEvent, AgpsStateMachine.dispatch, AgpsStateMachine.acquiredOnRsrcEvent,
          AgpsStateMachine.notifySubscribers_all .released rfl, AgpsVirtual.trace,
          AgpsStateMachine.RsrcEvent.status]
      rw [after]
      exact closed.mono (by simp)

/-- No step answers a handle whose subscriber stays active, denies a handle that was
answered, or takes in a retry for one. -/
def AnswersLeave (m : DSStateMachine) : Label → Prop
  | .modemRequest _ startResult =>
      m.mStatePtr = .released → ¬ ({ m.world with startResult } : DSWorld).FallsBack
  | .retryRequest startResult =>
      (∀ mID ∈ m.world.retryRequests.take 1, ¬ Answered mID m.world.log) ∧
        (m.mStatePtr = .released → ¬ ({ m.world with startResult } : DSWorld).FallsBack)
  | .releaseATL mID onAgpsMachine =>
      (∃ s ∈ m.mSubscribers, s.client.ID = mID ∧ s.mIsInactive = false) →
        onAgpsMachine = false ∧ m.mStatePtr ≠ .released
  | .timerExpire | .opened => True
  | .closed startResult =>
      (m.mStatePtr = .pending → ∀ s ∈ m.mSubscribers, s.mIsInactive = true →
        ¬ Answered s.client.ID m.world.log) ∧
      (m.mStatePtr = .releasing → (∃ s ∈ m.mSubscribers, s.mIsInactive = false) →
        ¬ ({ m.world with startResult } : DSWorld).FallsBack)

instance (m : DSStateMachine) : (l : Label) → Decidable (AnswersLeave m l)
  | .modemRequest _ _ => inferInstanceAs (Decidable (_ → _))
  | .retryRequest _ => inferInstanceAs (Decidable (_ ∧ _))
  | .releaseATL _ _ => inferInstanceAs (Decidable (_ → _))
  | .timerExpire | .opened => isTrue trivial
  | .closed _ => inferInstanceAs (Decidable (_ ∧ _))

theorem retryCallback_clean {m : DSStateMachine} (clean : Clean m.mSubscribers m.world.log) :
    Clean (retryCallback m).mSubscribers (retryCallback m).world.log := by
  unfold retryCallback
  split
  · exact clean
  next s found =>
    have active : s.mIsInactive = false := by
      rw [AgpsStateMachine.activeSubscriber_eq] at found
      simpa using List.find?_some found
    refine clean.concat (fun h issue => ?_) (fun _ _ _ => by simp [DSEvent.answered])
    obtain rfl : s.client.ID = h := by simpa [DSEvent.issued] using issue
    exact clean.unanswered s (List.mem_of_find?_eq_some found) active

theorem releaseATLProc_clean {m : DSStateMachine} (inv : HandlesInvariant m) {mID : ConnHandle}
    {onAgpsMachine : Bool} (leaves : AnswersLeave m (.releaseATL mID onAgpsMachine)) :
    Clean (releaseATLProc mID onAgpsMachine m).mSubscribers
      (releaseATLProc mID onAgpsMachine m).world.log := by
  obtain ⟨taken, h⟩ | ⟨-, -, h⟩ | ⟨-, i, s, hi, equal, h⟩ :=
    releaseATLProc_cases mID onAgpsMachine m
  · rw [h]
    refine inv.clean.concat (fun h issue => by cases issue) fun s hs active same => ?_
    have equal : s.client.ID = mID := by
      simpa [DSEvent.answered, eq_comm] using same
    simpa [taken] using (leaves ⟨s, hs, equal, active⟩).1
  · rw [h]
    exact inv.clean.silent rfl rfl
  · rw [h]
    have listed := List.mem_of_getElem? hi
    refine dispatch_unsubscribe_clean inv.clean inv.distinct (fun released => ?_) i
    exact (leaves ⟨s, listed, equal, inv.released_active released s listed⟩).2 released

namespace HandlesInvariant
variable {m : DSStateMachine}

theorem withWorld (inv : HandlesInvariant m) {f : DSWorld → DSWorld}
    (clean : Clean m.mSubscribers (f m.world).log) : HandlesInvariant (withWorld f m) :=
  ⟨inv.toInvariant.withWorld f, clean, inv.distinct⟩

theorem dispatch (inv : HandlesInvariant m) {event : AgpsStateMachine.RsrcEvent DSSubscriber}
    (clean : Clean (m.dispatch event).mSubscribers (m.dispatch event).world.log) :
    HandlesInvariant (m.dispatch event) :=
  ⟨inv.toInvariant.dispatch event, clean, dispatch_distinct inv.distinct event⟩

theorem requestSuplEsProc (inv : HandlesInvariant m) {mID : ConnHandle} {startResult : Int}
    (unanswered : ¬ Answered mID m.world.log)
    (kept : m.mStatePtr = .released → ¬ ({ m.world with startResult } : DSWorld).FallsBack) :
    HandlesInvariant (requestSuplEsProc mID startResult m) := by
  rw [requestSuplEsProc_eq inv.toInvariant]
  have ready : HandlesInvariant (DSStateMachine.withWorld ({ · with startResult }) m) :=
    inv.withWorld inv.clean
  exact ready.dispatch (dispatch_subscribe_clean ready.clean unanswered kept)

theorem releaseATLProc (inv : HandlesInvariant m) {mID : ConnHandle} {onAgpsMachine : Bool}
    (leaves : AnswersLeave m (.releaseATL mID onAgpsMachine)) :
    HandlesInvariant (releaseATLProc mID onAgpsMachine m) := by
  refine ⟨inv.toInvariant.releaseATLProc _ _, releaseATLProc_clean inv leaves, ?_⟩
  obtain ⟨-, h⟩ | ⟨-, -, h⟩ | ⟨-, i, s, -, -, h⟩ := releaseATLProc_cases mID onAgpsMachine m
  · exact h ▸ inv.distinct
  · exact h ▸ inv.distinct
  · exact h ▸ dispatch_distinct inv.distinct _

theorem retryCallback (inv : HandlesInvariant m) : HandlesInvariant (retryCallback m) := by
  have clean := retryCallback_clean inv.clean
  unfold DSStateMachine.retryCallback at clean ⊢
  split at clean
  · exact inv
  · exact inv.withWorld clean

theorem closed (inv : HandlesInvariant m)
    (clean : Clean (onRsrcEvent .released m).mSubscribers (onRsrcEvent .released m).world.log) :
    HandlesInvariant (onRsrcEvent .released m) := by
  refine ⟨inv.toInvariant.onRsrcEvent _, clean, ?_⟩
  have after := dispatch_distinct inv.distinct .released
  simp only [onRsrcEvent]
  split
  · exact dispatch_distinct after _
  · exact after

end HandlesInvariant

theorem step_handlesInvariant {m m' : DSStateMachine} {l : Label} (inv : HandlesInvariant m)
    (leaves : AnswersLeave m l) (h : step m l = some m') : HandlesInvariant m' := by
  cases l with
  | modemRequest mID startResult =>
      obtain rfl := Option.some.inj h
      have asked : HandlesInvariant (record (.modemRequest mID) m) :=
        inv.withWorld (inv.clean.silent rfl rfl)
      exact asked.requestSuplEsProc (not_answered_modemRequest mID _) leaves
  | retryRequest startResult =>
      simp only [step] at h
      split at h
      · cases h
      next mID rest queue =>
        obtain rfl := Option.some.inj h
        have taken : HandlesInvariant (withWorld ({ · with retryRequests := rest }) m) :=
          inv.withWorld inv.clean
        exact taken.requestSuplEsProc (leaves.1 mID (by simp [queue])) leaves.2
  | releaseATL mID onAgpsMachine =>
      obtain rfl := Option.some.inj h
      exact inv.releaseATLProc leaves
  | timerExpire =>
      simp only [step] at h
      split at h
      · obtain rfl := Option.some.inj h
        have fired : HandlesInvariant (withWorld (fun w => { w with timers := w.timers - 1 }) m) :=
          inv.withWorld inv.clean
        exact fired.retryCallback
      · cases h
  | opened =>
      obtain rfl := Option.some.inj h
      exact inv.dispatch (opened_clean inv.clean)
  | closed startResult =>
      obtain rfl := Option.some.inj h
      have ready : HandlesInvariant (withWorld ({ · with startResult }) m) :=
        inv.withWorld inv.clean
      refine ready.closed (closed_clean ready.clean ready.distinct (fun pending s hs => ?_)
        leaves.2)
      cases active : s.mIsInactive with
      | false => exact inv.clean.unanswered s hs active
      | true => exact leaves.1 pending s hs active

theorem new_handlesInvariant : HandlesInvariant new :=
  ⟨new_invariant, ⟨atEach_nil _, fun _ hs => by cases hs⟩, List.nodup_nil⟩

/-- While every answered handle leaves the machine, nothing is issued for an answered
handle in any state of the run. -/
theorem answered_handles_stay_silent (ls : List Label) (leaves : Meets step AnswersLeave new ls) :
    Throughout step (fun m => AtEach Fresh m.world.log) new ls :=
  throughout_of_meets (I := HandlesInvariant)
    (fun _ _ _ inv guard h => step_handlesInvariant inv guard h)
    (fun _ inv => inv.clean.fresh) leaves new_handlesInvariant

theorem released_handle_stays_silent :
    Throughout step (fun m => AtEach Fresh m.world.log) new
      [.modemRequest 7 0, .opened, .releaseATL 7 false] :=
  answered_handles_stay_silent _ (by decide)

/-- Handle 7 is closed while its retry is waiting, and the retry is issued all the same. -/
theorem closed_handle_is_retried :
    ∃ m, Run step new [.modemRequest 7 6, .releaseATL 7 false, .timerExpire] m ∧
      ¬ AtEach Fresh m.world.log := by
  refine ⟨_, run_iff_foldlM.mpr rfl, fun fresh => ?_⟩
  refine fresh [.modemRequest 7, .onRsrcEvent .released .subscribe, .openAndStartDataCall 6,
    .onRsrcEvent .released .unsubscribe, .atlCloseStatus 7 1] (.requestSuplES 7) [] rfl 7 rfl ?_
  decide

end DSStateMachine
end Msm8974.Agps
