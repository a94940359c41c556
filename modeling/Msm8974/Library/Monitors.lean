import Msm8974.Library.Runs

/-!
A monitor rides along with a machine. It sees the state before and after every step
together with the label and notes what it saw; the machine does not look at its notes. A
property of a run that needs a memory the machine does not keep is a property of the
monitored run.
-/

namespace Msm8974.Runs
universe u v w
variable {σ : Type u} {ι : Type v} {η : Type w}

/-- The machine together with what its monitor has noted so far. -/
def monitored (step : σ → ι → Option σ) (note : σ → ι → σ → η → η) : σ × η → ι → Option (σ × η)
  | (s, h), l => (step s l).map fun t => (t, note s l t h)

variable {step : σ → ι → Option σ} {note : σ → ι → σ → η → η} {P : σ → Prop}

theorem monitored_iff {p q : σ × η} {l : ι} :
    monitored step note p l = some q ↔ step p.1 l = some q.1 ∧ q.2 = note p.1 l q.1 p.2 := by
  obtain ⟨s, h⟩ := p
  obtain ⟨t, k⟩ := q
  simp only [monitored, Option.map_eq_some_iff, Prod.mk.injEq]
  constructor
  · rintro ⟨t', taken, rfl, rfl⟩
    exact ⟨taken, rfl⟩
  · rintro ⟨taken, rfl⟩
    exact ⟨t, taken, rfl, rfl⟩

/-- The monitor is never in the way. -/
theorem Run.exists_monitored {s t : σ} {ls : List ι} (run : Run step s ls t) (h : η) :
    ∃ k, Run (monitored step note) (s, h) ls (t, k) := by
  induction run generalizing h with
  | nil s => exact ⟨h, .nil _⟩
  | @cons s t u l ls taken _ ih =>
      obtain ⟨k, run⟩ := ih (note s l t h)
      exact ⟨k, .cons (monitored_iff.mpr ⟨taken, rfl⟩) run⟩

theorem Run.of_monitored {p q : σ × η} {ls : List ι} (run : Run (monitored step note) p ls q) :
    Run step p.1 ls q.1 := by
  induction run with
  | nil p => exact .nil p.1
  | cons taken _ ih => exact .cons (monitored_iff.mp taken).1 ih

/-- What holds of the machine throughout does so whatever its monitor notes. -/
theorem throughout_monitored {s : σ} {h : η} {ls : List ι} :
    Throughout (monitored step note) (fun p => P p.1) (s, h) ls ↔ Throughout step P s ls := by
  constructor
  · intro all before after t split run
    obtain ⟨k, run'⟩ : ∃ k, Run (monitored step note) (s, h) before (t, k) :=
      run.exists_monitored h
    exact all before after (t, k) split run'
  · intro all before after q split run
    exact all before after q.1 split run.of_monitored

/-- What each step of the machine satisfies it does so whatever its monitor notes. -/
theorem eachStep_monitored {R : σ → ι → σ → Prop} {s : σ} {h : η} {ls : List ι} :
    EachStep (monitored step note) (fun p l q => R p.1 l q.1) (s, h) ls ↔
      EachStep step R s ls := by
  constructor
  · intro all before l after t u split run taken
    obtain ⟨k, run'⟩ : ∃ k, Run (monitored step note) (s, h) before (t, k) :=
      run.exists_monitored h
    exact all before l after (t, k) (u, note t l u k) split run'
      (monitored_iff.mpr ⟨taken, rfl⟩)
  · intro all before l after p q split run taken
    exact all before l after p.1 q.1 split run.of_monitored (monitored_iff.mp taken).1

end Msm8974.Runs
