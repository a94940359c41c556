import Msm8974.LocApi.DSMachine

/-!
What one step of the data-services machine does to the data call: it starts a call for the first
active subscriber, or it starts none, and then a handle only stops waiting for a call when it is
granted, closed or given to the ordinary ATL path.
-/

namespace Msm8974.Agps
open Msm8974.Runs

namespace DSEvent

def starts : DSEvent → Bool
  | .openAndStartDataCall _ => true
  | _ => false

/-- The handle falls back, is granted or is released. -/
def ends (h : ConnHandle) : DSEvent → Bool
  | .requestATL ID _ | .atlOpenStatus ID _ _ _ _ | .atlCloseStatus ID _ => ID = h
  | _ => false

end DSEvent

namespace DSStateMachine

/-- The handle that a request makes the machine start a data call for: sendRsrcRequest looks for
the first active subscriber. -/
def requestStarts (m : DSStateMachine) (mID : ConnHandle) : Option ConnHandle :=
  if m.mStatePtr = .released then
    (m.addSubscriber ⟨⟨mID⟩, false⟩).activeSubscriber.map (·.client.ID)
  else none

/-- The handle that a step starts a data call for. -/
def startsFor (m : DSStateMachine) : Label → Option ConnHandle
  | .modemRequest mID _ => m.requestStarts mID
  | .retryRequest _ => m.world.retryRequests.head?.bind m.requestStarts
  | .closed _ =>
      if m.mStatePtr = .releasing then m.activeSubscriber.map (·.client.ID) else none
  | .releaseATL _ _ | .timerExpire | .opened => none

/-- The handle can be one that the call is tried for again. -/
def Waits (m : DSStateMachine) (h : ConnHandle) : Prop :=
  (m.mStatePtr = .released ∨ m.mStatePtr = .pending) ∧
    ∃ s ∈ m.mSubscribers, s.client.ID = h ∧ s.mIsInactive = false

/-- A step that starts no call: a handle stops waiting only with an event that ends its sequence,
and mRetries is only wiped when no handle waits any more. -/
structure Quiet (m m' : DSStateMachine) (es : List DSEvent) : Prop where
  log : m'.world.log = m.world.log ++ es
  starts : ∀ e ∈ es, e.starts = false
  waits : ∀ h, m.Waits h → m'.Waits h ∨ es.any (·.ends h) = true
  retries : m'.world.mRetries = m.world.mRetries ∨
    m'.world.mRetries = 0 ∧ ∀ h, m.Waits h → es.any (·.ends h) = true

/-- What follows a start with the result `ret`, with mRetries before and after it. -/
inductive Outcome (c : ConnHandle) (retries : BitVec 8) : Int → List DSEvent → BitVec 8 → Prop
  | retried (left : retries + 1 ≤ MAX_START_DATA_CALL_RETRIES) :
      Outcome c retries LOC_API_ADAPTER_ERR_ENGINE_BUSY [] (retries + 1)
  | spent (exhausted : MAX_START_DATA_CALL_RETRIES < retries + 1) :
      Outcome c retries LOC_API_ADAPTER_ERR_ENGINE_BUSY [.requestATL c AGPS_TYPE_SUPL] 0
  | failed {ret : Int} (notBusy : ret ≠ LOC_API_ADAPTER_ERR_ENGINE_BUSY) :
      Outcome c retries ret [.requestATL c AGPS_TYPE_SUPL] 0
  | goesOn {ret : Int} (notBusy : ret ≠ LOC_API_ADAPTER_ERR_ENGINE_BUSY) :
      Outcome c retries ret [] retries

/-- A step that starts a call for the handle `c`. -/
structure Starts (m m' : DSStateMachine) (c : ConnHandle) (before : List DSEvent) (ret : Int)
    (after : List DSEvent) : Prop where
  log : m'.world.log = m.world.log ++ (before ++ .openAndStartDataCall ret :: after)
  silent : ∀ e ∈ before, e.starts = false ∧ ∀ h, e.ends h = false
  waits : ∀ h, m.Waits h → m'.Waits h
  handle : m'.Waits c
  outcome : Outcome c m.world.mRetries ret after m'.world.mRetries

section Effects
variable {m m₁ m' : DSStateMachine} {es es' before after : List DSEvent} {c : ConnHandle} {ret : Int}

/-- Events that start nothing and end nothing. -/
structure Silent (m m' : DSStateMachine) (es : List DSEvent) : Prop where
  log : m'.world.log = m.world.log ++ es
  silent : ∀ e ∈ es, e.starts = false ∧ ∀ h, e.ends h = false
  state : m'.mStatePtr = m.mStatePtr
  list : m'.mSubscribers = m.mSubscribers
  retries : m'.world.mRetries = m.world.mRetries

theorem Silent.waits_iff (silent : Silent m m' es) (h : ConnHandle) : m'.Waits h ↔ m.Waits h := by
  rw [Waits, Waits, silent.state, silent.list]

theorem requestStarts_eq (m : DSStateMachine) (mID : ConnHandle) : m.requestStarts mID =
    if m.mStatePtr = .released then
      ((if m.mSubscribers.any (·.equals ⟨⟨mID⟩, false⟩) then m.mSubscribers
        else (⟨⟨mID⟩, false⟩ : Subscriber DSSubscriber).clone :: m.mSubscribers).find?
          (!·.mIsInactive)).map (·.client.ID)
    else none := by
  rw [requestStarts, AgpsStateMachine.addSubscriber_eq, AgpsStateMachine.activeSubscriber_eq]

theorem Silent.requestStarts (silent : Silent m m' es) (mID : ConnHandle) :
    m'.requestStarts mID = m.requestStarts mID := by
  rw [requestStarts_eq, requestStarts_eq, silent.state, silent.list]

theorem Silent.quiet (silent : Silent m m' es) : Quiet m m' es where
  log := silent.log
  starts e mem := (silent.silent e mem).1
  waits h waits := .inl ((silent.waits_iff h).mpr waits)
  retries := .inl silent.retries

theorem Quiet.trans (first : Quiet m m₁ es) (second : Quiet m₁ m' es') : Quiet m m' (es ++ es') where
  log := by rw [second.log, first.log, List.append_assoc]
  starts e mem := (List.mem_append.mp mem).elim (first.starts e) (second.starts e)
  waits h waits := by
    rw [List.any_append, Bool.or_eq_true]
    obtain still | ended := first.waits h waits
    · exact (second.waits h still).imp_right .inr
    · exact .inr (.inl ended)
  retries := by
    simp only [List.any_append, Bool.or_eq_true]
    obtain same | ⟨wiped, gone⟩ := second.retries
    · rw [same]
      exact first.retries.imp_right fun ⟨wiped, gone⟩ => ⟨wiped, fun h waits => .inl (gone h waits)⟩
    · refine .inr ⟨wiped, fun h waits => ?_⟩
      exact (first.waits h waits).elim (fun still => .inr (gone h still)) .inl

theorem Silent.starts (silent : Silent m m₁ es) (starts : Starts m₁ m' c before ret after) :
    Starts m m' c (es ++ before) ret after where
  log := by rw [starts.log, silent.log, List.append_assoc, List.append_assoc]
  silent e mem := (List.mem_append.mp mem).elim (silent.silent e) (starts.silent e)
  waits h waits := starts.waits h ((silent.waits_iff h).mpr waits)
  handle := starts.handle
  outcome := silent.retries ▸ starts.outcome

/-- A call that starts nothing, or starts a call for the handle. -/
def Effect (m m' : DSStateMachine) (starter : Option ConnHandle) : Prop :=
  starter = none ∧ (∃ es, Quiet m m' es) ∨
    ∃ c before ret after, starter = some c ∧ Starts m m' c before ret after

theorem Silent.effect {starter : Option ConnHandle} (silent : Silent m m₁ es)
    (effect : Effect m₁ m' starter) : Effect m m' starter := by
  obtain ⟨none, es', quiet⟩ | ⟨c, before, ret, after, handle, starts⟩ := effect
  · exact .inl ⟨none, _, silent.quiet.trans quiet⟩
  · exact .inr ⟨c, _, ret, after, handle, silent.starts starts⟩

theorem entered (m : DSStateMachine) (event : AgpsRsrcStatus) :
    Silent m { m with world := m.world.record (.onRsrcEvent m.mStatePtr event) }
      [.onRsrcEvent m.mStatePtr event] where
  log := rfl
  silent e mem := by
    obtain rfl := List.mem_singleton.mp mem
    exact ⟨rfl, fun _ => rfl⟩
  state := rfl
  list := rfl
  retries := rfl

theorem start_outcome (s : DSSubscriber) (w : DSWorld) : ∃ after,
    (w.sendRsrcRequest .requestAgpsDataConn (some s)).2.log =
        w.log ++ .openAndStartDataCall w.startResult :: after ∧
      Outcome s.ID w.mRetries w.startResult after
        (w.sendRsrcRequest .requestAgpsDataConn (some s)).2.mRetries := by
  have shape : w.sendRsrcRequest .requestAgpsDataConn (some s) =
      (w.record (.openAndStartDataCall w.startResult)).afterRequestRsrc (some s) w.startResult :=
    rfl
  by_cases busy : w.startResult = LOC_API_ADAPTER_ERR_ENGINE_BUSY
  · rw [DSWorld.afterRequestRsrc, if_pos busy] at shape
    by_cases exhausted : w.mRetries + 1 > MAX_START_DATA_CALL_RETRIES
    · rw [shape.trans (if_pos exhausted), busy]
      exact ⟨[.requestATL s.ID AGPS_TYPE_SUPL], List.append_assoc .., .spent exhausted⟩
    · rw [shape.trans (if_neg exhausted), busy]
      exact ⟨[], rfl, .retried (BitVec.not_lt.mp exhausted)⟩
  · rw [DSWorld.afterRequestRsrc, if_neg busy] at shape
    by_cases failed : w.startResult = LOC_API_ADAPTER_ERR_UNSUPPORTED ∨ w.startResult = -1
    · rw [shape.trans (if_pos failed)]
      exact ⟨[.requestATL s.ID AGPS_TYPE_SUPL], List.append_assoc .., .failed busy⟩
    · rw [shape.trans (if_neg failed)]
      exact ⟨[], rfl, .goesOn busy⟩

/-- sendRsrcRequest starts a call for the first active subscriber. -/
theorem start_starts {list : List (Subscriber DSSubscriber)} {single : Bool} {w : DSWorld}
    {state : AgpsState} {s : Subscriber DSSubscriber}
    (first : list.find? (!·.mIsInactive) = some s)
    (held : state = .released ∨ state = .pending)
    (waits : ∀ h, m.Waits h → Waits ⟨state, list, single, w⟩ h)
    (silent : Silent m ⟨m.mStatePtr, m.mSubscribers, single, w⟩ es) : ∃ ret after,
    Starts m ⟨state, list, single, (w.sendRsrcRequest .requestAgpsDataConn (some s.client)).2⟩
      s.client.ID es ret after := by
  obtain ⟨after, log, outcome⟩ := start_outcome s.client w
  refine ⟨w.startResult, after, ?_, silent.silent, waits, ?_, ?_⟩
  · rw [log, silent.log, List.append_assoc]
  · exact ⟨held, s, List.mem_of_find?_eq_some first, rfl, by simpa using List.find?_some first⟩
  · exact silent.retries ▸ outcome

theorem quiet_of_grown (log : m'.world.log = m.world.log ++ es)
    (starts : ∀ e ∈ es, e.starts = false) (state : m'.mStatePtr = m.mStatePtr)
    (list : ∀ s ∈ m.mSubscribers, s ∈ m'.mSubscribers)
    (retries : m'.world.mRetries = m.world.mRetries) : Quiet m m' es where
  log := log
  starts := starts
  waits := by
    rintro h ⟨held, s, listed, handle⟩
    exact .inl ⟨state ▸ held, s, list s listed, handle⟩
  retries := .inl retries

theorem quiet_of_idle (idle : m.mStatePtr = .acquired ∨ m.mStatePtr = .releasing)
    (log : m'.world.log = m.world.log ++ es) (starts : ∀ e ∈ es, e.starts = false)
    (retries : m'.world.mRetries = m.world.mRetries) : Quiet m m' es where
  log := log
  starts := starts
  waits := by
    rintro h ⟨released | pending, -⟩
    · simp [released] at idle
    · simp [pending] at idle
  retries := .inl retries

theorem deliver_log {n : Notification DSSubscriber} (tells : ConnHandle → DSEvent)
    (tells_log : ∀ (ID : ConnHandle) (w : DSWorld),
      (w.informStatus n.rsrcStatus ID).log = w.log ++ [tells ID])
    (list : List (Subscriber DSSubscriber)) (w : DSWorld) :
    (n.deliver list w).log =
      w.log ++ (list.filter (·.forMe n)).map (tells ·.client.ID) := by
  rw [Notification.deliver]
  induction list.filter (·.forMe n) generalizing w with
  | nil => exact (List.append_nil _).symm
  | cons s rest ih =>
      refine (ih (w.informStatus n.rsrcStatus s.client.ID)).trans ?_
      rw [tells_log, List.append_assoc, List.map_cons, List.singleton_append]

theorem deliver_retries {n : Notification DSSubscriber} (kept : n.rsrcStatus ≠ .denied)
    (list : List (Subscriber DSSubscriber)) (w : DSWorld) :
    (n.deliver list w).mRetries = w.mRetries := by
  rw [Notification.deliver]
  refine List.foldlRecOn (motive := fun w' : DSWorld => w'.mRetries = w.mRetries) _ _ rfl
    fun w' ih s _ => Eq.trans ?_ ih
  cases status : n.rsrcStatus with
  | denied => exact absurd status kept
  | _ => rfl

theorem deliver_denied_retries (list : List (Subscriber DSSubscriber)) (w : DSWorld) :
    ((Notification.broadcast .broadcastAll .denied true).deliver list w).mRetries = w.mRetries ∨
      ((Notification.broadcast .broadcastAll .denied true).deliver list w).mRetries = 0 := by
  rw [Notification.deliver]
  exact List.foldlRecOn
    (motive := fun w' : DSWorld => w'.mRetries = w.mRetries ∨ w'.mRetries = 0) _ _ (.inl rfl)
    fun _ _ _ _ => .inr rfl

theorem find_active {list : List (Subscriber DSSubscriber)}
    (active : ∃ s ∈ list, s.mIsInactive = false) :
    ∃ first, list.find? (!·.mIsInactive) = some first := by
  obtain ⟨s, listed, waiting⟩ := active
  exact Option.isSome_iff_exists.mp
    (List.find?_isSome.mpr ⟨s, listed, congrArg (!·) waiting⟩)

/-- A request in Released starts a call for the first active subscriber. -/
theorem subscribe_released_effect {list : List (Subscriber DSSubscriber)} {single : Bool}
    {w : DSWorld} (active : ∀ t ∈ list, t.mIsInactive = false) (mID : ConnHandle) :
    Effect ⟨.released, list, single, w⟩
      (AgpsStateMachine.dispatch (.subscribe ⟨⟨mID⟩, false⟩) ⟨.released, list, single, w⟩)
      (requestStarts ⟨.released, list, single, w⟩ mID) := by
  let m : DSStateMachine := ⟨.released, list, single, w⟩
  let s : Subscriber DSSubscriber := ⟨⟨mID⟩, false⟩
  let list' := (m.addSubscriber s).mSubscribers
  let entered' : DSWorld := w.record (.onRsrcEvent .released .subscribe)
  have added (w : DSWorld) : AgpsStateMachine.addSubscriber s ⟨.released, list, single, w⟩ =
      ⟨.released, list', single, w⟩ := by
    simp only [list', m, AgpsStateMachine.addSubscriber_eq]
  have nonempty : list' ≠ [] := AgpsStateMachine.addSubscriber_ne_nil s m
  have active' : ∀ t ∈ list', t.mIsInactive = false :=
    AgpsStateMachine.addSubscriber_all_active s active
  obtain ⟨first, found⟩ : ∃ first, list'.find? (!·.mIsInactive) = some first := by
    obtain ⟨t, listed⟩ := List.exists_mem_of_ne_nil _ nonempty
    exact find_active ⟨t, listed, active' t listed⟩
  let started := entered'.sendRsrcRequest .requestAgpsDataConn (some first.client)
  let state := if started.1 = 0 then AgpsState.pending else AgpsState.released
  have shape : AgpsStateMachine.dispatch (.subscribe s) m = ⟨state, list', single, started.2⟩ := by
    simp only [m, AgpsStateMachine.dispatch, AgpsStateMachine.releasedOnRsrcEvent,
      AgpsStateMachine.sendRsrcRequest, added, AgpsStateMachine.activeSubscriber_eq, found,
      Option.map_some, state]
    by_cases accepted : started.1 = 0
    · exact (if_pos accepted).trans (by rw [if_pos accepted]; rfl)
    · exact (if_neg accepted).trans (by rw [if_neg accepted]; rfl)
  have held : state = .released ∨ state = .pending := by
    simp only [state]
    split
    · exact .inr rfl
    · exact .inl rfl
  have waits (h : ConnHandle) (waiting : m.Waits h) :
      Waits ⟨state, list', single, entered'⟩ h :=
    ⟨held, waiting.2.imp fun t => And.imp_left AgpsStateMachine.mem_addSubscriber⟩
  obtain ⟨ret, after, starts⟩ := start_starts found held waits (entered m .subscribe)
  refine .inr ⟨first.client.ID, _, ret, after, ?_, shape ▸ starts⟩
  rw [requestStarts, if_pos rfl, added, AgpsStateMachine.activeSubscriber_eq, found,
    Option.map_some]

theorem dispatch_subscribe_effect (inv : Invariant m) (mID : ConnHandle) :
    Effect m (m.dispatch (.subscribe ⟨⟨mID⟩, false⟩)) (m.requestStarts mID) := by
  obtain ⟨state, list, single, w⟩ := m
  let s : Subscriber DSSubscriber := ⟨⟨mID⟩, false⟩
  let list' := if list.any (·.equals s) then list else s.clone :: list
  have added (state : AgpsState) (w : DSWorld) :
      AgpsStateMachine.addSubscriber s ⟨state, list, single, w⟩ = ⟨state, list', single, w⟩ :=
    AgpsStateMachine.addSubscriber_eq s _
  have grown : ∀ t ∈ list, t ∈ list' := fun t listed => by
    have kept : t ∈ (AgpsStateMachine.addSubscriber s
        (⟨state, list, single, w⟩ : DSStateMachine)).mSubscribers :=
      AgpsStateMachine.mem_addSubscriber listed
    simpa only [added] using kept
  cases state with
  | released => exact subscribe_released_effect (inv.released_active rfl) mID
  | pending =>
      have shape : AgpsStateMachine.dispatch (.subscribe s) (⟨.pending, list, single, w⟩ :
          DSStateMachine) =
            ⟨.pending, list', single, w.record (.onRsrcEvent .pending .subscribe)⟩ := added _ _
      rw [shape]
      exact .inl ⟨rfl, _, quiet_of_grown rfl (by simp [DSEvent.starts]) rfl grown rfl⟩
  | acquired =>
      have shape : AgpsStateMachine.dispatch (.subscribe s) (⟨.acquired, list, single, w⟩ :
          DSStateMachine) = ⟨.acquired, list', single,
            (w.record (.onRsrcEvent .acquired .subscribe)).informStatus .granted mID⟩ := by
        have told : s.forMe (.to s .granted false) = true := by
          simp [Subscriber.forMe, Notification.to, Subscriber.equals, SubscriberKind.equals]
        simp only [AgpsStateMachine.dispatch, AgpsStateMachine.acquiredOnRsrcEvent, added,
          Subscriber.notifyRsrcStatus, told]
        rfl
      rw [shape]
      refine .inl ⟨rfl, _, quiet_of_grown (List.append_assoc ..) ?_ rfl grown rfl⟩
      simp [DSEvent.starts]
  | releasing =>
      have shape : AgpsStateMachine.dispatch (.subscribe s) (⟨.releasing, list, single, w⟩ :
          DSStateMachine) =
            ⟨.releasing, list', single, w.record (.onRsrcEvent .releasing .subscribe)⟩ := added _ _
      rw [shape]
      exact .inl ⟨rfl, _, quiet_of_grown rfl (by simp [DSEvent.starts]) rfl grown rfl⟩

theorem releaseIfUnused_effect (m : DSStateMachine) : ∃ es,
    m.releaseIfUnused.world.log = m.world.log ++ es ∧ (∀ e ∈ es, e.starts = false) ∧
      m.releaseIfUnused.world.mRetries = m.world.mRetries ∧
      ((∃ s ∈ m.mSubscribers, s.mIsInactive = false) → m.releaseIfUnused = m) := by
  have stopped : ∀ e ∈ [DSEvent.stopDataCall], e.starts = false := by simp [DSEvent.starts]
  obtain ⟨empty, same⟩ | ⟨-, none, same⟩ | ⟨-, same⟩ := AgpsStateMachine.releaseIfUnused_cases m
  · exact ⟨[.stopDataCall], same ▸ rfl, stopped, same ▸ rfl, by simp [empty]⟩
  · refine ⟨[.stopDataCall], same ▸ rfl, stopped, same ▸ rfl, fun active => ?_⟩
    exact absurd (AgpsStateMachine.hasActiveSubscribers_iff.mpr active) (by simp [none])
  · exact ⟨[], by rw [same, List.append_nil], by simp, by rw [same], fun _ => same⟩

/-- The handle of the subscriber that is let go is closed; the others go on waiting. -/
theorem dispatch_unsubscribe_quiet {i : Nat} {s : Subscriber DSSubscriber}
    (listed : m.mSubscribers[i]? = some s) : ∃ es, Quiet m (m.dispatch (.unsubscribe i)) es := by
  obtain ⟨state, list, single, w⟩ := m
  let dropped : DSStateMachine := ⟨state, list.modify i Subscriber.setInactive, single,
    (w.record (.onRsrcEvent state .unsubscribe)).informStatus .unsubscribe s.client.ID⟩
  have drop : AgpsStateMachine.dropSubscriber i (⟨state, list, single,
      w.record (.onRsrcEvent state .unsubscribe)⟩ : DSStateMachine) = dropped := by
    simp only [AgpsStateMachine.dropSubscriber, show list[i]? = some s from listed]
    rfl
  have log : dropped.world.log = w.log ++
      [.onRsrcEvent state .unsubscribe, .atlCloseStatus s.client.ID 1] :=
    List.append_assoc ..
  have others (h : ConnHandle) (other : s.client.ID ≠ h) :
      (∃ t ∈ list, t.client.ID = h ∧ t.mIsInactive = false) →
        ∃ t ∈ dropped.mSubscribers, t.client.ID = h ∧ t.mIsInactive = false := by
    rintro ⟨t, mem, handle, active⟩
    obtain ⟨j, there⟩ := List.mem_iff_getElem?.mp mem
    have apart : i ≠ j := by
      rintro rfl
      exact other ((congrArg (·.client.ID) (Option.some.inj (listed.symm.trans there))).trans handle)
    refine ⟨t, List.mem_of_getElem? (i := j) ?_, handle, active⟩
    simp [dropped, apart, there]
  cases state with
  | released =>
      have told : s.forMe (.to s .unsubscribe false) = true := by
        simp [Subscriber.forMe, Notification.to, Subscriber.equals, SubscriberKind.equals]
      have shape : AgpsStateMachine.dispatch (.unsubscribe i) (⟨.released, list, single, w⟩ :
          DSStateMachine) = ⟨.released, list, single, dropped.world⟩ := by
        simp only [AgpsStateMachine.dispatch, AgpsStateMachine.releasedOnRsrcEvent,
          show list[i]? = some s from listed, Subscriber.notifyRsrcStatus, told]
        rfl
      rw [shape]
      exact ⟨_, quiet_of_grown log (by simp [DSEvent.starts]) rfl (fun _ mem => mem) rfl⟩
  | pending =>
      obtain ⟨es, unused, quiet, retries, used⟩ := releaseIfUnused_effect dropped
      have shape : AgpsStateMachine.dispatch (.unsubscribe i) (⟨.pending, list, single, w⟩ :
          DSStateMachine) = dropped.releaseIfUnused :=
        congrArg AgpsStateMachine.releaseIfUnused drop
      rw [shape]
      refine ⟨_, ⟨(unused.trans (congrArg (· ++ es) log)).trans (List.append_assoc ..), ?_, ?_,
        .inl retries⟩⟩
      · simpa [or_imp, forall_and, DSEvent.starts] using quiet
      · rintro h ⟨-, waiting⟩
        by_cases own : s.client.ID = h
        · exact .inr (by simp [DSEvent.ends, own])
        · obtain ⟨t, mem, handle, active⟩ := others h own waiting
          rw [used ⟨t, mem, active⟩]
          exact .inl ⟨.inr rfl, t, mem, handle, active⟩
  | acquired =>
      obtain ⟨es, unused, quiet, retries, -⟩ := releaseIfUnused_effect dropped
      have shape : AgpsStateMachine.dispatch (.unsubscribe i) (⟨.acquired, list, single, w⟩ :
          DSStateMachine) = dropped.releaseIfUnused :=
        congrArg AgpsStateMachine.releaseIfUnused drop
      rw [shape]
      refine ⟨_, quiet_of_idle (.inl rfl)
        ((unused.trans (congrArg (· ++ es) log)).trans (List.append_assoc ..)) ?_ retries⟩
      simpa [or_imp, forall_and, DSEvent.starts] using quiet
  | releasing =>
      have shape : AgpsStateMachine.dispatch (.unsubscribe i) (⟨.releasing, list, single, w⟩ :
          DSStateMachine) =
            if !dropped.hasSubscribers then { dropped with mStatePtr := .released }
            else dropped := by
        simp only [AgpsStateMachine.dispatch, AgpsStateMachine.releasingOnRsrcEvent]
        exact drop ▸ rfl
      refine ⟨[.onRsrcEvent .releasing .unsubscribe, .atlCloseStatus s.client.ID 1],
        quiet_of_idle (.inr rfl) ?_ (by simp [DSEvent.starts]) ?_⟩
      · rw [shape]
        split <;> exact log
      · rw [shape]
        split <;> rfl

theorem told_starts (tells : ConnHandle → DSEvent) (plain : ∀ ID, (tells ID).starts = false)
    {first : DSEvent} (opening : first.starts = false) (list : List (Subscriber DSSubscriber)) :
    ∀ e ∈ first :: list.map (tells ·.client.ID), e.starts = false := by
  refine List.forall_mem_cons.mpr ⟨opening, fun e listed => ?_⟩
  obtain ⟨s, -, rfl⟩ := List.mem_map.mp listed
  exact plain s.client.ID

theorem opened_quiet (m : DSStateMachine) : ∃ es, Quiet m (onRsrcEvent .granted m) es := by
  obtain ⟨state, list, single, w⟩ := m
  have traced := entered ⟨state, list, single, w⟩ .granted
  cases state with
  | released | acquired | releasing => exact ⟨_, traced.quiet⟩
  | pending =>
      let n : Notification DSSubscriber := .broadcast .broadcastActive .granted false
      let tells (ID : ConnHandle) : DSEvent :=
        .atlOpenStatus ID 1 none AGPS_APN_BEARER_INVALID AGPS_TYPE_INVALID
      have shape : onRsrcEvent .granted (⟨.pending, list, single, w⟩ : DSStateMachine) =
          ⟨.acquired, list, single, n.deliver list (w.record (.onRsrcEvent .pending .granted))⟩ :=
        AgpsStateMachine.notifySubscribers_granted _
      have log := (deliver_log (n := n) tells (fun _ _ => rfl) list
        (w.record (.onRsrcEvent .pending .granted))).trans (List.append_assoc ..)
      rw [shape]
      refine ⟨_, log, told_starts tells (fun _ => rfl) rfl _, ?_,
        .inl (deliver_retries (n := n) nofun list _)⟩
      rintro h ⟨-, s, listed, rfl, active⟩
      refine .inr (List.any_eq_true.mpr ⟨tells s.client.ID, ?_, by simp [tells, DSEvent.ends]⟩)
      refine List.mem_append_right _ (List.mem_map.mpr ⟨s, List.mem_filter.mpr ⟨listed, ?_⟩, rfl⟩)
      simp [n, Subscriber.forMe, Notification.broadcast, Subscriber.isInactive, active]

/-- Every handle that waits is passed on to the ordinary ATL path. -/
theorem closed_pending_quiet (list : List (Subscriber DSSubscriber)) (single : Bool)
    (w : DSWorld) : ∃ es, Quiet ⟨.pending, list, single, w⟩
      (onRsrcEvent .released (⟨.pending, list, single, w⟩ : DSStateMachine)) es := by
  let n : Notification DSSubscriber := .broadcast .broadcastAll .denied true
  let tells (ID : ConnHandle) : DSEvent := .requestATL ID AGPS_TYPE_SUPL
  let entered := (w.record (.onRsrcEvent .pending .released)).record
    (.onRsrcEvent .pending .denied)
  have everyone : list.filter (·.forMe n) = list := by
    simp [n, Subscriber.forMe, Notification.broadcast]
  have log : (n.deliver list entered).log = w.log ++ .onRsrcEvent .pending .released ::
      .onRsrcEvent .pending .denied :: list.map (tells ·.client.ID) := by
    rw [deliver_log (n := n) tells (fun _ _ => rfl) list entered, everyone]
    simp only [entered, DSWorld.record, List.append_assoc, List.cons_append, List.nil_append]
  have gone (h : ConnHandle) : Waits ⟨.pending, list, single, w⟩ h →
      (DSEvent.onRsrcEvent .pending .released ::
        DSEvent.onRsrcEvent .pending .denied :: list.map (tells ·.client.ID)).any
          (·.ends h) = true := by
    rintro ⟨-, s, listed, rfl, -⟩
    refine List.any_eq_true.mpr ⟨tells s.client.ID, ?_, by simp [tells, DSEvent.ends]⟩
    exact List.mem_cons_of_mem _ (List.mem_cons_of_mem _ (List.mem_map_of_mem listed))
  rw [onRsrcEvent_pending_released]
  refine ⟨_, log, ?_, fun h waits => .inr (gone h waits), ?_⟩
  · exact List.forall_mem_cons.mpr ⟨rfl, told_starts tells (fun _ => rfl) rfl list⟩
  · exact (deliver_denied_retries list entered).imp_right fun wiped => ⟨wiped, gone⟩

/-- Everyone is told to close, and nobody starts a call. -/
theorem deliver_released_quiet {list list' : List (Subscriber DSSubscriber)} {single : Bool}
    {w : DSWorld} {state state' : AgpsState} {n : Notification DSSubscriber}
    (idle : state = .acquired ∨ state = .releasing) (status : n.rsrcStatus = .released) :
    ∃ es, Quiet ⟨state, list, single, w⟩
      ⟨state', list', single, n.deliver list (w.record (.onRsrcEvent state .released))⟩ es :=
  ⟨_, quiet_of_idle idle
    ((deliver_log (n := n) (fun _ => .closeDataCall) (fun _ _ => status ▸ rfl) list _).trans
      (List.append_assoc ..))
    (told_starts (fun _ => .closeDataCall) (fun _ => rfl) rfl _)
    (deliver_retries (n := n) (by simp [status]) list _)⟩

/-- The close in Releasing starts a call for the first subscriber that is active again. -/
theorem closed_releasing_effect (list : List (Subscriber DSSubscriber)) (single : Bool)
    (w : DSWorld) (startResult : Int) :
    Effect ⟨.releasing, list, single, w⟩ (onRsrcEvent .released ⟨.releasing, list, single, w⟩)
      (startsFor ⟨.releasing, list, single, w⟩ (.closed startResult)) := by
  let n : Notification DSSubscriber := .broadcast .broadcastInactive .released true
  let entered' : DSWorld := w.record (.onRsrcEvent .releasing .released)
  have log : (n.deliver list entered').log = w.log ++ .onRsrcEvent .releasing .released ::
      (list.filter (·.forMe n)).map fun _ => .closeDataCall :=
    (deliver_log (n := n) (fun _ => .closeDataCall) (fun _ _ => rfl) list entered').trans
      (List.append_assoc ..)
  rw [onRsrcEvent_releasing_released]
  obtain ⟨active, after⟩ | ⟨inactive, after⟩ :=
    AgpsStateMachine.releasingOnRsrcEvent_close (.inl rfl)
    (⟨.releasing, list, single, entered'⟩ : DSStateMachine)
  · obtain ⟨first, found⟩ := find_active active
    have found' : (list.filter (!·.mIsInactive)).find? (!·.mIsInactive) = some first := by
      simpa [List.find?_filter] using found
    have starter : startsFor ⟨.releasing, list, single, w⟩ (.closed startResult) =
        some first.client.ID := by
      rw [startsFor, if_pos rfl, AgpsStateMachine.activeSubscriber_eq, found, Option.map_some]
    have silent : Silent (⟨.releasing, list, single, w⟩ : DSStateMachine)
        ⟨.releasing, list, single, n.deliver list entered'⟩ _ :=
      ⟨log, ?_, rfl, rfl, deliver_retries (n := n) nofun list entered'⟩
    · obtain ⟨ret, after', starts⟩ := start_starts found'
        (show AgpsState.pending = .released ∨ AgpsState.pending = .pending from .inr rfl)
        (by rintro h ⟨released | pending, -⟩ <;> contradiction) silent
      rw [after]
      simp only [AgpsStateMachine.sendRsrcRequest, AgpsStateMachine.activeSubscriber_eq, found',
        Option.map_some]
      exact .inr ⟨_, _, ret, after', starter, starts⟩
    · refine List.forall_mem_cons.mpr ⟨⟨rfl, fun _ => rfl⟩, fun e told => ?_⟩
      obtain ⟨t, -, rfl⟩ := List.mem_map.mp told
      exact ⟨rfl, fun _ => rfl⟩
  · rw [after]
    have nobody : startsFor ⟨.releasing, list, single, w⟩ (.closed startResult) = none := by
      rw [startsFor, if_pos rfl, AgpsStateMachine.activeSubscriber_eq, Option.map_eq_none_iff]
      exact List.find?_eq_none.mpr fun s listed => by simp [inactive s listed]
    exact .inl ⟨nobody, deliver_released_quiet (n := n) (.inr rfl) rfl⟩

theorem closed_effect (m : DSStateMachine) (startResult : Int) :
    Effect m (onRsrcEvent .released m) (startsFor m (.closed startResult)) := by
  obtain ⟨state, list, single, w⟩ := m
  have traced := entered ⟨state, list, single, w⟩ .released
  cases state with
  | released =>
      have denied := entered (⟨.released, list, single,
        w.record (.onRsrcEvent .released .released)⟩ : DSStateMachine) .denied
      exact .inl ⟨rfl, _, traced.quiet.trans denied.quiet⟩
  | pending => exact .inl ⟨rfl, closed_pending_quiet list single w⟩
  | acquired =>
      let n : Notification DSSubscriber := .broadcast .broadcastAll .released true
      have shape : onRsrcEvent .released (⟨.acquired, list, single, w⟩ : DSStateMachine) =
          ⟨.released, [], single,
            n.deliver list (w.record (.onRsrcEvent .acquired .released))⟩ := by
        simp only [onRsrcEvent, AgpsStateMachine.dispatch, AgpsStateMachine.acquiredOnRsrcEvent,
          AgpsStateMachine.notifySubscribers_all .released rfl]
        rfl
      exact .inl ⟨rfl, shape ▸ deliver_released_quiet (n := n) (.inl rfl) rfl⟩
  | releasing => exact closed_releasing_effect list single w startResult

theorem step_effect {l : Label} (inv : Invariant m) (taken : step m l = some m') :
    Effect m m' (startsFor m l) := by
  have same (f : DSWorld → DSWorld) {es : List DSEvent} (log : (f m.world).log = m.world.log ++ es)
      (silent : ∀ e ∈ es, e.starts = false ∧ ∀ h, e.ends h = false)
      (retries : (f m.world).mRetries = m.world.mRetries) : Silent m (withWorld f m) es :=
    ⟨log, silent, rfl, rfl, retries⟩
  have unlogged (f : DSWorld → DSWorld) (log : (f m.world).log = m.world.log)
      (retries : (f m.world).mRetries = m.world.mRetries) : Silent m (withWorld f m) [] :=
    same f (log.trans (List.append_nil _).symm) (by simp) retries
  cases l with
  | modemRequest mID startResult =>
      obtain rfl := Option.some.inj taken
      let f (w : DSWorld) : DSWorld := { w.record (.modemRequest mID) with startResult }
      have asked : Silent m (withWorld f m) [.modemRequest mID] :=
        same f rfl (by simp [DSEvent.starts, DSEvent.ends]) rfl
      have effect := dispatch_subscribe_effect (inv.withWorld f) mID
      rw [asked.requestStarts] at effect
      have shape : requestSuplEsProc mID startResult (record (.modemRequest mID) m) =
          (withWorld f m).dispatch (.subscribe ⟨⟨mID⟩, false⟩) :=
        requestSuplEsProc_eq (m := record (.modemRequest mID) m) (inv.withWorld _) mID startResult
      exact shape ▸ asked.effect effect
  | retryRequest startResult =>
      simp only [step] at taken
      split at taken
      · cases taken
      · next mID rest waiting =>
        obtain rfl := Option.some.inj taken
        let f (w : DSWorld) : DSWorld := { w with retryRequests := rest, startResult }
        have asked : Silent m (withWorld f m) [] := unlogged f rfl rfl
        have effect := dispatch_subscribe_effect (inv.withWorld f) mID
        rw [asked.requestStarts] at effect
        have shape : requestSuplEsProc mID startResult
            (withWorld ({ · with retryRequests := rest }) m) =
              (withWorld f m).dispatch (.subscribe ⟨⟨mID⟩, false⟩) :=
          requestSuplEsProc_eq (m := withWorld _ m) (inv.withWorld _) mID startResult
        have starter : startsFor m (.retryRequest startResult) = m.requestStarts mID := by
          rw [startsFor, waiting]
          rfl
        exact starter ▸ shape ▸ asked.effect effect
  | releaseATL mID onAgpsMachine =>
      obtain rfl := Option.some.inj taken
      have closed (isSucc : Int) : Quiet m (record (.atlCloseStatus mID isSucc) m)
          [.atlCloseStatus mID isSucc] :=
        quiet_of_grown rfl (by simp [DSEvent.starts]) rfl (fun _ listed => listed) rfl
      obtain ⟨-, other⟩ | ⟨-, -, unknown⟩ | ⟨-, i, s, found, -, dropped⟩ :=
        releaseATLProc_cases mID onAgpsMachine m
      · exact .inl ⟨rfl, _, other ▸ closed 1⟩
      · exact .inl ⟨rfl, _, unknown ▸ closed 0⟩
      · exact .inl ⟨rfl, dropped ▸ dispatch_unsubscribe_quiet found⟩
  | timerExpire =>
      simp only [step] at taken
      split at taken
      · obtain rfl := Option.some.inj taken
        unfold retryCallback
        split
        · exact .inl ⟨rfl, _, (unlogged _ rfl rfl).quiet⟩
        · next s _ =>
          refine .inl ⟨rfl, [.requestSuplES s.client.ID], ?_⟩
          exact quiet_of_grown rfl (by simp [DSEvent.starts]) rfl (fun _ listed => listed) rfl
      · cases taken
  | opened =>
      obtain rfl := Option.some.inj taken
      exact .inl ⟨rfl, opened_quiet m⟩
  | closed startResult =>
      obtain rfl := Option.some.inj taken
      have set := unlogged ({ · with startResult }) rfl rfl
      exact set.effect (closed_effect (withWorld _ m) startResult)

end Effects

end DSStateMachine
end Msm8974.Agps
