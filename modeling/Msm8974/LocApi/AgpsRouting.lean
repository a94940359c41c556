import Msm8974.LocApi.AgpsInterface
import Msm8974.LocApi.AgpsWorld

/-!
Which machine a reply of the framework reaches. Each machine advertises one type and no two
advertise the same, so the type a reply answers names the machine it is for. The wrappers
look the machine up by the SUPL type whatever the reply answers.
-/

namespace Msm8974.Agps
open Msm8974.Runs Msm8974.Traces

variable {κ : Type}

/-- The type the machine is created with. -/
def NifId.type : NifId → Int
  | .agnss => AGPS_TYPE_SUPL
  | .internet => AGPS_TYPE_WWAN_ANY
  | .wifi => AGPS_TYPE_WIFI

theorem NifId.type_injective : Function.Injective NifId.type := by
  intro k k' same
  cases k <;> cases k' <;> first | rfl | exact absurd same (by decide)

/-- Every request of the machine advertises its type. -/
structure Nif.Typed (type : Int) (nif : Nif κ) : Prop where
  mType : nif.mType = type
  advertised : ∀ r, .agpsCb r ∈ nif.log → r.type = type

namespace Nif.Typed
variable {type : Int} {nif : Nif κ}

theorem record (typed : nif.Typed type) {e : NifEvent κ}
    (advertises : ∀ r, e = .agpsCb r → r.type = type) : (nif.record e).Typed type where
  mType := typed.mType
  advertised r logged := by
    obtain logged | rfl : .agpsCb r ∈ nif.log ∨ .agpsCb r = e := by
      simpa [Nif.record] using logged
    · exact typed.advertised r logged
    · exact advertises r rfl

theorem trace (state : AgpsState) (event : AgpsRsrcStatus) {nif : Nif κ}
    (typed : nif.Typed type) : (AgpsVirtual.trace (κ := κ) state event nif).Typed type :=
  typed.record fun _ other => by cases other

theorem keptByVirtual : KeptByVirtual κ (Nif.Typed (κ := κ) type) where
  notifyRsrcStatus _ _ _ typed := typed.record fun _ other => by cases other
  setInactive _ _ typed := typed
  sendRsrcRequest action s nif typed := by
    simp only [AgpsVirtual.sendRsrcRequest]
    split
    · refine typed.record fun r sent => ?_
      cases sent
      exact typed.mType
    · exact typed

theorem type_of_requested (typed : nif.Typed type) {answers : Int}
    (requested : nif.requested answers = true) : answers = type := by
  obtain ⟨e, logged, asks⟩ := List.any_eq_true.mp requested
  cases e with
  | onRsrcEvent | notified => cases asks
  | agpsCb r =>
      have same : r.type = answers := by simp_all
      exact same ▸ typed.advertised r logged

end Nif.Typed

namespace LocEngAgps

/-- The machines exist and speak under the types of their names. -/
structure Routing (s : LocEngAgps κ) : Prop where
  initialised : s.agps_status_cb = true
  typed : ∀ {k m}, s.nifs k = some m → m.world.Typed k.type

/-- A reply that is queued goes to the machine that requested what it answers. -/
def Routed (s : LocEngAgps κ) : AgpsLabel κ → LocEngAgps κ → Prop
  | .agpsOpen answers _, t | .agpsClosed answers, t | .agpsOpenFailed answers, t =>
      ∀ msg ∈ newEvents s.msgs t.msgs, ∃ k m, msg.mStateMachine = some (.nif k) ∧
        s.nifs k = some m ∧ m.world.requested answers = true
  | _, _ => True

/-- What the framework answers with a reply is a request for SUPL. -/
def AnswersSupl (_ : LocEngAgps κ) : AgpsLabel κ → Prop
  | .agpsOpen answers apn => apn.isSome = true → answers = AGPS_TYPE_SUPL
  | .agpsClosed answers | .agpsOpenFailed answers => answers = AGPS_TYPE_SUPL
  | _ => True

instance (s : LocEngAgps κ) : (l : AgpsLabel κ) → Decidable (AnswersSupl s l)
  | .agpsOpen answers apn =>
      inferInstanceAs (Decidable (apn.isSome = true → answers = AGPS_TYPE_SUPL))
  | .agpsClosed answers | .agpsOpenFailed answers =>
      inferInstanceAs (Decidable (answers = AGPS_TYPE_SUPL))
  | .requestATL .. | .requestSuplEs _ | .releaseATL .. | .reqRelBIT .. | .reqRelWifi ..
  | .dataClientInit _ | .deliver => isTrue trivial

namespace Routing
variable {s t : LocEngAgps κ}

theorem init (CAPABILITIES : BitVec 32) : Routing (agpsInit CAPABILITIES : LocEngAgps κ) := by
  refine ⟨rfl, fun {k m} found => ?_⟩
  cases k with
  | agnss =>
      simp only [agpsInit, Option.ite_none_right_eq_some, Option.some.injEq] at found
      exact found.2 ▸ ⟨rfl, fun r logged => by cases logged⟩
  | internet | wifi =>
      exact Option.some.inj found ▸ ⟨rfl, fun r logged => by cases logged⟩

theorem update (routing : Routing s) (k : NifId)
    {f : AgpsStateMachine κ (Nif κ) → AgpsStateMachine κ (Nif κ)}
    (keeps : ∀ m, m.world.Typed k.type → (f m).world.Typed k.type) : Routing (s.update k f) := by
  refine ⟨routing.initialised, fun found => ?_⟩
  obtain ⟨rfl, m, before, rfl⟩ | ⟨-, before⟩ := of_update found
  · exact keeps m (routing.typed before)
  · exact routing.typed before

/-- The type a reply answers names the machine it is for. -/
theorem requester (routing : Routing s) {answers : Int} (asked : s.requested answers = true) :
    ∃ k m, s.nifs k = some m ∧ m.world.requested answers = true ∧ answers = k.type := by
  obtain ⟨k, -, asks⟩ := List.any_eq_true.mp asked
  obtain ⟨m, found, asks⟩ := (Option.any_eq_true _ _).mp asks
  exact ⟨k, m, found, asks, (routing.typed found).type_of_requested asks⟩

theorem reply_queues (routing : Routing s) (msg : Option StateMachinePtr → AtlMsg) (type : Int) :
    newEvents s.msgs (s.reply msg type).msgs = [msg (s.getAgpsStateMachine type)] := by
  rw [reply, if_pos routing.initialised]
  exact newEvents_concat _ _

theorem reachesRequester_iff (routing : Routing s) {answers : Int}
    (asked : s.requested answers = true) :
    (∃ k m, s.getAgpsStateMachine AGPS_TYPE_SUPL = some (.nif k) ∧ s.nifs k = some m ∧
      m.world.requested answers = true) ↔ answers = AGPS_TYPE_SUPL := by
  have supl : s.getAgpsStateMachine AGPS_TYPE_SUPL = s.ptr .agnss := rfl
  constructor
  · intro ⟨k, m, reached, found, asks⟩
    obtain ⟨_, _, reached⟩ : ∃ m, s.nifs .agnss = some m ∧ NifId.agnss = k := by
      simpa [supl, ptr] using reached
    subst reached
    exact (routing.typed found).type_of_requested asks
  · intro same
    obtain ⟨k, m, found, asks, type⟩ := routing.requester asked
    obtain rfl : k = .agnss := NifId.type_injective (type.symm.trans same)
    exact ⟨.agnss, m, by simp [supl, ptr, found], found, asks⟩

/-- What the wrappers queue reaches the machine that asked exactly if that is agnss_nif. -/
theorem routed_reply_iff (routing : Routing s) {msg : Option StateMachinePtr → AtlMsg}
    (carries : ∀ sm, (msg sm).mStateMachine = sm) {answers : Int}
    (asked : s.requested answers = true) :
    (∀ e ∈ newEvents s.msgs (s.reply msg AGPS_TYPE_SUPL).msgs, ∃ k m,
      e.mStateMachine = some (.nif k) ∧ s.nifs k = some m ∧ m.world.requested answers = true) ↔
        answers = AGPS_TYPE_SUPL := by
  rw [routing.reply_queues, List.forall_mem_singleton, carries]
  exact routing.reachesRequester_iff asked

theorem routed_iff (routing : Routing s) [SubscriberKind κ] {l : AgpsLabel κ}
    (taken : s.step l = some t) : Routed s l t ↔ AnswersSupl s l := by
  cases l with
  | agpsOpen answers apn =>
      simp only [LocEngAgps.step, Option.ite_none_right_eq_some, Option.some.injEq] at taken
      obtain ⟨asked, rfl⟩ := taken
      cases apn with
      | none => simp [Routed, AnswersSupl, locAgpsOpen, locEngAgpsOpen, newEvents]
      | some apn =>
          have carries : ∀ sm, (AtlMsg.openSuccess sm).mStateMachine = sm := fun _ => rfl
          have reached := routing.routed_reply_iff carries asked
          simpa [Routed, AnswersSupl, locAgpsOpen, locEngAgpsOpen] using reached
  | agpsClosed answers =>
      simp only [LocEngAgps.step, Option.ite_none_right_eq_some, Option.some.injEq] at taken
      obtain ⟨asked, rfl⟩ := taken
      exact routing.routed_reply_iff (fun _ => rfl) asked
  | agpsOpenFailed answers =>
      simp only [LocEngAgps.step, Option.ite_none_right_eq_some, Option.some.injEq] at taken
      obtain ⟨asked, rfl⟩ := taken
      exact routing.routed_reply_iff (fun _ => rfl) asked
  | requestATL | requestSuplEs | releaseATL | reqRelBIT | reqRelWifi | dataClientInit | deliver =>
      exact iff_of_true trivial trivial

theorem of_eq (routing : Routing s) (status : t.agps_status_cb = s.agps_status_cb)
    (nifs : t.nifs = s.nifs) : Routing t where
  initialised := status.trans routing.initialised
  typed found := routing.typed (nifs ▸ found)

theorem reply (routing : Routing s) (msg : Option StateMachinePtr → AtlMsg) (type : Int) :
    Routing (s.reply msg type) := by
  unfold LocEngAgps.reply
  split
  · exact routing.of_eq rfl rfl
  · exact routing

section Machines
variable [SubscriberKind κ]

theorem subscribe (routing : Routing s) (client : κ) (sm : StateMachinePtr) :
    Routing (s.subscribe client sm) := by
  cases sm with
  | nif k =>
      exact routing.update k fun m typed =>
        Nif.Typed.keptByVirtual.subscribeRsrc Nif.Typed.trace _ typed
  | ds => exact routing

theorem unsubscribe (routing : Routing s) (client : κ) (k : NifId) :
    Routing (s.unsubscribe client k) :=
  routing.update k fun _ typed => Nif.Typed.keptByVirtual.unsubscribeRsrc Nif.Typed.trace _ typed

theorem onRsrcEvent (routing : Routing s) (k : NifId) (event : AgpsRsrcStatus) :
    Routing (s.update k (·.onRsrcEvent event)) :=
  routing.update k fun _ typed => Nif.Typed.keptByVirtual.onRsrcEvent Nif.Typed.trace _ typed

theorem step (routing : Routing s) {l : AgpsLabel κ} (taken : s.step l = some t) : Routing t := by
  cases l with
  | requestATL client mType =>
      obtain rfl := Option.some.inj taken
      unfold LocEngAgps.requestATL
      split
      · exact routing.subscribe client _
      · exact routing.of_eq rfl rfl
  | requestSuplEs client =>
      obtain rfl := Option.some.inj taken
      unfold LocEngAgps.requestSuplEs
      split_ifs
      · exact routing
      · exact routing.subscribe client _
      · exact routing.of_eq rfl rfl
  | releaseATL client onDs =>
      obtain rfl := Option.some.inj taken
      unfold LocEngAgps.releaseATL
      split_ifs
      · exact routing.unsubscribe client _
      · exact routing.unsubscribe client _
      · exact routing
      · exact routing.of_eq rfl rfl
  | reqRelBIT client mType mIsReq =>
      simp only [LocEngAgps.step, reqRelBIT] at taken
      split at taken
      · rw [← apply_ite some, Option.some.injEq] at taken
        subst taken
        split_ifs
        · exact routing.subscribe client _
        · exact routing.unsubscribe client _
      · obtain rfl := Option.some.inj taken
        exact routing
      · cases taken
  | reqRelWifi client mType mIsReq =>
      obtain rfl := Option.some.inj taken
      unfold LocEngAgps.reqRelWifi
      split_ifs
      · exact routing.subscribe client _
      · exact routing.unsubscribe client _
      · exact routing.of_eq rfl rfl
  | dataClientInit ret =>
      obtain rfl := Option.some.inj taken
      split_ifs
      · exact routing.of_eq rfl rfl
      · exact routing
  | agpsOpen answers apn =>
      simp only [LocEngAgps.step, Option.ite_none_right_eq_some, Option.some.injEq] at taken
      obtain ⟨-, rfl⟩ := taken
      unfold locAgpsOpen locEngAgpsOpen
      split_ifs
      · exact routing.reply _ _
      · exact routing
  | agpsClosed answers | agpsOpenFailed answers =>
      simp only [LocEngAgps.step, Option.ite_none_right_eq_some, Option.some.injEq] at taken
      obtain ⟨-, rfl⟩ := taken
      exact routing.reply _ _
  | deliver =>
      simp only [LocEngAgps.step, deliver] at taken
      split at taken
      · cases taken
      · rename_i msg rest queued
        have shorter : Routing { s with msgs := rest } := routing.of_eq rfl rfl
        split at taken
        · obtain rfl := Option.some.inj taken
          exact shorter.onRsrcEvent _ _
        · obtain rfl := Option.some.inj taken
          exact shorter
        · cases taken

end Machines
end Routing

/-- The replies of a run reach the machines they are meant for exactly if each of them
answers a request for SUPL. -/
theorem replies_reach_requesters_iff [SubscriberKind κ] (CAPABILITIES : BitVec 32)
    {ls : List (AgpsLabel κ)} {t : LocEngAgps κ} (run : Run step (agpsInit CAPABILITIES) ls t) :
    EachStep step Routed (agpsInit CAPABILITIES) ls ↔
      Meets step AnswersSupl (agpsInit CAPABILITIES) ls := by
  refine run.eachStep_iff_meets_of_invariant (I := Routing) (fun s l t routing taken => ?_)
    (fun s l t routing _ taken => ?_) (.init CAPABILITIES)
  · exact routing.routed_iff taken
  · exact routing.step taken

/-- A SUPL connection that is requested, opened and closed. -/
theorem supl_replies_reach_agnss_nif :
    EachStep step Routed (agpsInit 7 : LocEngAgps ATLSubscriber)
      [.requestATL ⟨1⟩ AGPS_TYPE_SUPL, .agpsOpen AGPS_TYPE_SUPL (some "apn"), .deliver,
        .releaseATL ⟨1⟩ false, .agpsClosed AGPS_TYPE_SUPL, .deliver] :=
  (replies_reach_requesters_iff 7 (run_iff_foldlM.mpr rfl)).mpr (by decide)

/-- Without MSA and MSB there is no agnss_nif, and a reply for internet_nif goes to NULL. -/
theorem reply_is_dispatched_to_null :
    ¬ EachStep step Routed (agpsInit 0 : LocEngAgps ATLSubscriber)
      [.requestATL ⟨1⟩ AGPS_TYPE_WWAN_ANY, .agpsOpen AGPS_TYPE_WWAN_ANY (some "apn")] := by
  intro routed
  obtain ⟨k, m, reached, -⟩ := routed [.requestATL ⟨1⟩ AGPS_TYPE_WWAN_ANY]
    (.agpsOpen AGPS_TYPE_WWAN_ANY (some "apn")) [] _ _ rfl (.cons rfl (.nil _)) rfl
    (.openSuccess none) (by decide)
  cases reached

end LocEngAgps
end Msm8974.Agps
