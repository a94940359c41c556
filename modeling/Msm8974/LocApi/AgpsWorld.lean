import Msm8974.LocApi.AgpsInvariant

/-!
What the machine does to its world it does through the virtual methods. A property that
each of them keeps is kept by every entry point of the machine, so that a subclass shows
its facts about the outside once for each method and not once for each transition.
-/

namespace Msm8974.Agps
variable {κ μ : Type}

/-- The virtual methods that act on the world keep `W`. -/
structure KeptByVirtual (κ : Type) {μ : Type} [AgpsVirtual κ μ] (W : μ → Prop) : Prop where
  notifyRsrcStatus : ∀ (client : κ) (status : AgpsRsrcStatus) {w : μ}, W w →
    W (AgpsVirtual.notifyRsrcStatus client status w)
  setInactive : ∀ (client : κ) {w : μ}, W w → W (AgpsVirtual.setInactive client w)
  sendRsrcRequest : ∀ (action : AGpsStatusValue) (s : Option κ) {w : μ}, W w →
    W (AgpsVirtual.sendRsrcRequest action s w).2

namespace KeptByVirtual
open AgpsStateMachine

section Send
variable [AgpsVirtual κ μ] {W : μ → Prop} (kept : KeptByVirtual κ W)
include kept

theorem deliver [SubscriberKind κ] (n : Notification κ) (list : List (Subscriber κ)) {w : μ}
    (h : W w) : W (n.deliver list w) := by
  unfold Notification.deliver
  exact List.foldlRecOn (motive := W) _ _ h fun w hw s _ => kept.notifyRsrcStatus _ _ hw

theorem notifyRsrcStatus_subscriber [SubscriberKind κ] (s : Subscriber κ) (n : Notification κ)
    {w : μ} (h : W w) : W (s.notifyRsrcStatus n w).2 := by
  unfold Subscriber.notifyRsrcStatus
  split
  · exact kept.notifyRsrcStatus _ _ h
  · exact h

end Send

variable [SubscriberKind κ] [AgpsVirtual κ μ] {W : μ → Prop} (kept : KeptByVirtual κ W)
  {m : AgpsStateMachine κ μ}
include kept

theorem send (action : AGpsStatusValue) (h : W m.world) : W (m.sendRsrcRequest action).2.world :=
  kept.sendRsrcRequest _ _ h

theorem dropSubscriber (i : Nat) (h : W m.world) : W (m.dropSubscriber i).world := by
  obtain ⟨-, same⟩ | ⟨s, -, -, marked⟩ | ⟨s, -, -, removed⟩ := dropSubscriber_cases i m
  · rw [same]
    exact h
  · rw [marked]
    exact kept.setInactive s.client h
  · rw [removed]
    exact kept.deliver _ _ h

theorem releaseIfUnused (h : W m.world) : W m.releaseIfUnused.world := by
  obtain ⟨-, empty⟩ | ⟨-, -, inactive⟩ | ⟨-, used⟩ := releaseIfUnused_cases m
  · rw [empty]
    exact kept.send (m := { m with mStatePtr := .released }) _ h
  · rw [inactive]
    exact kept.send (m := { m with mStatePtr := .releasing }) _ h
  · rw [used]
    exact h

theorem released (event : RsrcEvent κ) (h : W m.world) :
    W (releasedOnRsrcEvent event m).world := by
  cases event with
  | subscribe s =>
      have sent := kept.send (m := m.addSubscriber s) .requestAgpsDataConn (by simpa using h)
      simp only [releasedOnRsrcEvent]
      split <;> exact sent
  | unsubscribe i =>
      simp only [releasedOnRsrcEvent]
      split
      · exact h
      · exact kept.notifyRsrcStatus_subscriber _ _ h
  | granted | released | denied => exact h

theorem pending (event : RsrcEvent κ) (h : W m.world) :
    W (pendingOnRsrcEvent event m).world := by
  cases event with
  | subscribe s => simpa [pendingOnRsrcEvent] using h
  | unsubscribe i => exact kept.releaseIfUnused (kept.dropSubscriber i h)
  | granted =>
      simp only [pendingOnRsrcEvent, notifySubscribers_granted]
      exact kept.deliver _ _ h
  | released => exact h
  | denied =>
      simp only [pendingOnRsrcEvent, notifySubscribers_all .denied rfl]
      exact kept.deliver _ _ h

theorem acquired (event : RsrcEvent κ) (h : W m.world) :
    W (acquiredOnRsrcEvent event m).world := by
  cases event with
  | subscribe s =>
      simp only [acquiredOnRsrcEvent, addSubscriber_world]
      exact kept.notifyRsrcStatus_subscriber _ _ h
  | unsubscribe i => exact kept.releaseIfUnused (kept.dropSubscriber i h)
  | released =>
      simp only [acquiredOnRsrcEvent, notifySubscribers_all .released rfl]
      exact kept.deliver _ _ h
  | granted | denied => exact h

theorem releasing_close {event : RsrcEvent κ} (close : event = .released ∨ event = .denied)
    (h : W m.world) : W (releasingOnRsrcEvent event m).world := by
  obtain ⟨-, restarted⟩ | ⟨-, ended⟩ := releasingOnRsrcEvent_close close m
  · rw [restarted]
    exact kept.sendRsrcRequest _ _ (kept.deliver _ _ h)
  · rw [ended]
    exact kept.deliver _ _ h

theorem releasing (event : RsrcEvent κ) (h : W m.world) :
    W (releasingOnRsrcEvent event m).world := by
  cases event with
  | subscribe s => simpa [releasingOnRsrcEvent] using h
  | unsubscribe i =>
      simp only [releasingOnRsrcEvent]
      split <;> exact kept.dropSubscriber i h
  | granted => exact h
  | released => exact kept.releasing_close (.inl rfl) h
  | denied => exact kept.releasing_close (.inr rfl) h

/-- Every state enters an event with its trace; from there on `W` is kept. -/
theorem dispatch (event : RsrcEvent κ)
    (entered : W (AgpsVirtual.trace (κ := κ) m.mStatePtr event.status m.world)) :
    W (m.dispatch event).world := by
  obtain ⟨state, list, single, w⟩ := m
  cases state with
  | released => exact kept.released (m := ⟨.released, list, single, _⟩) event entered
  | pending => exact kept.pending (m := ⟨.pending, list, single, _⟩) event entered
  | acquired => exact kept.acquired (m := ⟨.acquired, list, single, _⟩) event entered
  | releasing => exact kept.releasing (m := ⟨.releasing, list, single, _⟩) event entered

section Traced
variable (trace : ∀ state event {w : μ}, W w → W (AgpsVirtual.trace (κ := κ) state event w))
include trace

theorem subscribeRsrc (s : Subscriber κ) (h : W m.world) : W (m.subscribeRsrc s).world := by
  unfold AgpsStateMachine.subscribeRsrc
  split
  · rw [notifySubscriber_of_forMe rfl rfl]
    exact kept.notifyRsrcStatus _ _ h
  · exact kept.dispatch _ (trace _ _ h)

theorem unsubscribeRsrc (s : Subscriber κ) (h : W m.world) :
    W (m.unsubscribeRsrc s).2.world := by
  obtain ⟨absent, -⟩ | ⟨i, t, -, -, found⟩ := unsubscribeRsrc_cases s m
  · rw [absent]
    exact h
  · rw [found]
    exact kept.dispatch _ (trace _ _ h)

theorem onRsrcEvent (event : AgpsRsrcStatus) (h : W m.world) : W (m.onRsrcEvent event).world := by
  cases event with
  | granted | released | denied => exact kept.dispatch _ (trace _ _ h)
  | subscribe | unsubscribe | statusMax => exact h

end Traced
end KeptByVirtual
end Msm8974.Agps
