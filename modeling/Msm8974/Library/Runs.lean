import Mathlib.Tactic.Common

/-!
Finite runs of a labelled partial step function. A label that is not enabled has
no step. A guard is a relation between the state a step starts from and its
label; `Meets` says that every step of the run satisfies it. The invariant rules
here are the only inductions over runs; the machines supply one step lemma each.
-/

namespace Msm8974.Runs
universe u v
variable {σ : Type u} {ι : Type v}

/-- `Run step s ls t`: taken in order from `s`, the labels `ls` are enabled and end in `t`. -/
inductive Run (step : σ → ι → Option σ) : σ → List ι → σ → Prop
  | nil (s : σ) : Run step s [] s
  | cons {s t u : σ} {l : ι} {ls : List ι} :
      step s l = some t → Run step t ls u → Run step s (l :: ls) u

/-- Every step of the run that `ls` makes from `s` starts in a state where the guard
admits its label. -/
def Meets (step : σ → ι → Option σ) (guard : σ → ι → Prop) : σ → List ι → Prop
  | _, [] => True
  | s, l :: ls => guard s l ∧ ∀ t, step s l = some t → Meets step guard t ls

variable {step : σ → ι → Option σ} {guard other : σ → ι → Prop} {I : σ → Prop}

theorem run_iff_foldlM {s t : σ} {ls : List ι} :
    Run step s ls t ↔ ls.foldlM step s = some t := by
  constructor
  · intro run
    induction run with
    | nil _ => rfl
    | cons h _ ih => simpa [List.foldlM_cons, h] using ih
  · intro h
    induction ls generalizing s with
    | nil =>
        obtain rfl : s = t := Option.some.inj h
        exact .nil s
    | cons l ls ih =>
        simp only [List.foldlM_cons, Option.bind_eq_bind, Option.bind_eq_some_iff] at h
        obtain ⟨u, first, rest⟩ := h
        exact .cons first (ih rest)

theorem Run.invariant (keeps : ∀ s l t, I s → step s l = some t → I t)
    {s t : σ} {ls : List ι} (run : Run step s ls t) (initial : I s) : I t := by
  induction run with
  | nil _ => exact initial
  | cons h _ ih => exact ih (keeps _ _ _ initial h)

/-- The invariant rule for guarded runs: a step only has to keep the invariant
where the guard admits its label. -/
theorem Run.invariant_of_meets
    (keeps : ∀ s l t, I s → guard s l → step s l = some t → I t)
    {s t : σ} {ls : List ι} (run : Run step s ls t) (meets : Meets step guard s ls)
    (initial : I s) : I t := by
  induction run with
  | nil _ => exact initial
  | cons h _ ih => exact ih (meets.2 _ h) (keeps _ _ _ initial meets.1 h)

/-- Steps that each take one from a budget which no step raises are at most as many as it holds. -/
theorem Run.countP_le {p : ι → Bool} (budget : σ → Nat)
    (keeps : ∀ s l t, I s → step s l = some t → I t)
    (pays : ∀ s l t, I s → step s l = some t → (if p l then 1 else 0) + budget t ≤ budget s)
    {s t : σ} {ls : List ι} (run : Run step s ls t) (initial : I s) :
    ls.countP p + budget t ≤ budget s := by
  induction run with
  | nil _ => simp
  | @cons s t u l ls h _ ih =>
      have rest := ih (keeps _ _ _ initial h)
      have first := pays _ _ _ initial h
      rw [List.countP_cons]
      omega

theorem meets_cons {s t : σ} {l : ι} {ls : List ι} (h : step s l = some t) :
    Meets step guard s (l :: ls) ↔ guard s l ∧ Meets step guard t ls := by
  refine and_congr_right fun _ => ⟨fun all => all t h, fun next t' h' => ?_⟩
  obtain rfl : t = t' := Option.some.inj (h.symm.trans h')
  exact next

theorem meets_stuck {s : σ} {l : ι} {ls : List ι} (h : step s l = none) :
    Meets step guard s (l :: ls) ↔ guard s l := by
  simp [Meets, h]

instance decidableMeets [∀ s l, Decidable (guard s l)] :
    (s : σ) → (ls : List ι) → Decidable (Meets step guard s ls)
  | _, [] => isTrue trivial
  | s, l :: ls =>
      match h : step s l with
      | none => decidable_of_iff _ (meets_stuck h).symm
      | some t =>
          have := decidableMeets t ls
          decidable_of_iff _ (meets_cons h).symm

theorem run_append_iff {s t : σ} {ls ks : List ι} :
    Run step s (ls ++ ks) t ↔ ∃ u, Run step s ls u ∧ Run step u ks t := by
  simp only [run_iff_foldlM, List.foldlM_append, Option.bind_eq_bind, Option.bind_eq_some_iff]

theorem Run.meets_append {s t : σ} {ls ks : List ι} (run : Run step s ls t) :
    Meets step guard s (ls ++ ks) ↔ Meets step guard s ls ∧ Meets step guard t ks := by
  induction run with
  | nil _ => exact (and_iff_right trivial).symm
  | cons h _ ih => rw [List.cons_append, meets_cons h, meets_cons h, ih, and_assoc]

theorem meets_of_forall_mem {s : σ} {ls : List ι} (all : ∀ l ∈ ls, ∀ s, guard s l) :
    Meets step guard s ls := by
  induction ls generalizing s with
  | nil => trivial
  | cons l ls ih =>
      obtain ⟨first, rest⟩ := List.forall_mem_cons.mp all
      exact ⟨first s, fun t _ => ih rest⟩

theorem meets_and {s : σ} {ls : List ι} (meets : Meets step guard s ls)
    (others : Meets step other s ls) : Meets step (fun s l => guard s l ∧ other s l) s ls := by
  induction ls generalizing s with
  | nil => trivial
  | cons l ls ih =>
      exact ⟨⟨meets.1, others.1⟩, fun t h => ih (meets.2 t h) (others.2 t h)⟩

/-- The simulation rule for guarded runs: a step that the guard admits is enabled and followed by
the specification, so the whole run is. -/
theorem exists_run_of_simulation {τ : Type*} {spec : τ → ι → τ} {R : σ → τ → Prop}
    (follows : ∀ s t l, R s t → guard s l → ∃ s', step s l = some s' ∧ R s' (spec t l))
    {s : σ} {t : τ} (related : R s t) {ls : List ι} (meets : Meets step guard s ls) :
    ∃ s', Run step s ls s' ∧ R s' (ls.foldl spec t) := by
  induction ls generalizing s t with
  | nil => exact ⟨s, .nil s, related⟩
  | cons l ls ih =>
      obtain ⟨s', taken, related'⟩ := follows s t l related meets.1
      obtain ⟨u, run, final⟩ := ih related' (meets.2 s' taken)
      exact ⟨u, .cons taken run, final⟩

/-- The simulation rule for views: where a view of each step is a run of the specification by the
labels that the step shows, a view of the whole run is one. -/
theorem Run.view {τ : Type*} {κ : Type*} {spec : τ → κ → Option τ} {view : σ → τ}
    {shows : ι → List κ} (keeps : ∀ s l t, I s → step s l = some t → I t)
    (follows : ∀ s l t, I s → step s l = some t → Run spec (view s) (shows l) (view t))
    {s t : σ} {ls : List ι} (run : Run step s ls t) (initial : I s) :
    Run spec (view s) (ls.flatMap shows) (view t) := by
  induction run with
  | nil s => exact .nil (view s)
  | @cons s t u l ls h _ ih =>
      rw [List.flatMap_cons]
      exact run_append_iff.mpr ⟨view t, follows s l t initial h, ih (keeps s l t initial h)⟩

/-- A label that the guard refuses dooms the run: a state that is not doomed is reached by
guarded runs only. -/
theorem Run.meets_of_not_doomed {D : σ → Prop}
    (keeps : ∀ s l t, I s → guard s l → step s l = some t → I t)
    (dooms : ∀ s l t, I s → ¬ guard s l → step s l = some t → D t)
    (stays : ∀ s l t, D s → step s l = some t → D t)
    {s t : σ} {ls : List ι} (run : Run step s ls t) (initial : I s) (alive : ¬ D t) :
    Meets step guard s ls := by
  induction run with
  | nil _ => trivial
  | @cons s t u l ls h run ih =>
      rw [meets_cons h]
      by_cases admitted : guard s l
      · exact ⟨admitted, ih (keeps _ _ _ initial admitted h) alive⟩
      · exact (alive (run.invariant stays (dooms _ _ _ initial admitted h))).elim

/-- `P` holds in every state that the run which `ls` makes from `s` passes through. -/
def Throughout (step : σ → ι → Option σ) (P : σ → Prop) (s : σ) (ls : List ι) : Prop :=
  ∀ before after t, ls = before ++ after → Run step s before t → P t

theorem throughout_cons {P : σ → Prop} {s t : σ} {l : ι} {ls : List ι} (h : step s l = some t) :
    Throughout step P s (l :: ls) ↔ P s ∧ Throughout step P t ls := by
  constructor
  · intro all
    refine ⟨all [] _ s rfl (.nil s), fun before after u split run => ?_⟩
    exact all (l :: before) after u (by simp [split]) (.cons h run)
  · intro ⟨first, rest⟩ before after u split run
    cases run with
    | nil _ => exact first
    | cons h' run =>
        obtain ⟨rfl, split'⟩ := List.cons.inj split
        obtain rfl := Option.some.inj (h.symm.trans h')
        exact rest _ after u split' run

/-- A property that each step from the invariant keeps exactly where the guard admits its label,
the invariant being kept there, holds throughout exactly the guarded runs. -/
theorem Run.throughout_iff_meets_of_invariant {P : σ → Prop}
    (exact_step : ∀ s l t, I s → P s → step s l = some t → (P t ↔ guard s l))
    (keeps : ∀ s l t, I s → guard s l → step s l = some t → I t)
    {s t : σ} {ls : List ι} (run : Run step s ls t) (initial : I s) (holds : P s) :
    Throughout step P s ls ↔ Meets step guard s ls := by
  induction run with
  | nil s =>
      refine iff_of_true (fun before after t split run => ?_) trivial
      obtain ⟨rfl, -⟩ := List.nil_eq_append_iff.mp split
      cases run
      exact holds
  | @cons s t u l ls h run ih =>
      rw [throughout_cons h, meets_cons h]
      have next : P t ↔ guard s l := exact_step _ _ _ initial holds h
      constructor
      · intro ⟨_, rest⟩
        have admitted := next.mp (rest [] ls t rfl (.nil t))
        exact ⟨admitted, (ih (keeps _ _ _ initial admitted h) (next.mpr admitted)).mp rest⟩
      · intro ⟨admitted, meets⟩
        exact ⟨holds, (ih (keeps _ _ _ initial admitted h) (next.mpr admitted)).mpr meets⟩

/-- A property that each step keeps exactly where the guard admits its label holds
throughout exactly the guarded runs. -/
theorem Run.throughout_iff_meets {P : σ → Prop}
    (exact_step : ∀ s l t, I s → P s → step s l = some t → (P t ↔ guard s l))
    (keeps : ∀ s l t, I s → step s l = some t → I t)
    {s t : σ} {ls : List ι} (run : Run step s ls t) (initial : I s) (holds : P s) :
    Throughout step P s ls ↔ Meets step guard s ls :=
  run.throughout_iff_meets_of_invariant exact_step (fun s l t inv _ => keeps s l t inv) initial holds

/-- An invariant of the guarded runs that gives `P` gives it throughout them. -/
theorem throughout_of_meets {P : σ → Prop}
    (keeps : ∀ s l t, I s → guard s l → step s l = some t → I t) (gives : ∀ s, I s → P s)
    {s : σ} {ls : List ι} (meets : Meets step guard s ls) (initial : I s) :
    Throughout step P s ls := by
  intro before after t split run
  subst split
  exact gives t (run.invariant_of_meets keeps (run.meets_append.mp meets).1 initial)

/-- A label that lowers a rank as long as `P` does not hold leads to `P` when it is repeated, and
`P` holds at no state before. -/
theorem exists_first_of_decreasing {P : σ → Prop} {l : ι} (rank : σ → Nat)
    (moves : ∀ s, I s → P s ∨ ∃ t, step s l = some t ∧ I t ∧ rank t < rank s)
    {s : σ} (initial : I s) : ∃ n t, Run step s (List.replicate n l) t ∧
      Meets step (fun s _ => ¬ P s) s (List.replicate n l) ∧ I t ∧ P t := by
  induction bound : rank s using Nat.strongRecOn generalizing s with
  | ind n ih =>
      by_cases done : P s
      · exact ⟨0, s, .nil s, trivial, initial, done⟩
      · obtain ⟨t, taken, inv, lower⟩ := (moves s initial).resolve_left done
        obtain ⟨m, u, run, first, inv', holds⟩ := ih (rank t) (bound ▸ lower) inv rfl
        exact ⟨m + 1, u, .cons taken run, (meets_cons taken).mpr ⟨done, first⟩, inv', holds⟩

theorem exists_run_of_decreasing {P : σ → Prop} {l : ι} (rank : σ → Nat)
    (moves : ∀ s, I s → P s ∨ ∃ t, step s l = some t ∧ I t ∧ rank t < rank s)
    {s : σ} (initial : I s) : ∃ n t, Run step s (List.replicate n l) t ∧ I t ∧ P t := by
  obtain ⟨n, t, run, -, inv, holds⟩ := exists_first_of_decreasing rank moves initial
  exact ⟨n, t, run, inv, holds⟩

/-- Every step `t --l--> u` of the run that `ls` makes from `s` satisfies `R`. -/
def EachStep (step : σ → ι → Option σ) (R : σ → ι → σ → Prop) (s : σ) (ls : List ι) : Prop :=
  ∀ before l after t u, ls = before ++ l :: after → Run step s before t →
    step t l = some u → R t l u

theorem eachStep_cons {R : σ → ι → σ → Prop} {s t : σ} {l : ι} {ls : List ι}
    (h : step s l = some t) : EachStep step R s (l :: ls) ↔ R s l t ∧ EachStep step R t ls := by
  constructor
  · intro all
    refine ⟨all [] l ls s t rfl (.nil s) h, fun before k after u v split run next => ?_⟩
    exact all (l :: before) k after u v (by simp [split]) (.cons h run) next
  · intro ⟨first, rest⟩ before k after u v split run next
    cases run with
    | nil _ =>
        obtain ⟨rfl, -⟩ := List.cons.inj split
        obtain rfl := Option.some.inj (h.symm.trans next)
        exact first
    | cons h' run =>
        obtain ⟨rfl, split'⟩ := List.cons.inj split
        obtain rfl := Option.some.inj (h.symm.trans h')
        exact rest _ k after u v split' run next

/-- A relation that the steps of guarded runs satisfy, an invariant of theirs being given. -/
theorem eachStep_of_meets {R : σ → ι → σ → Prop}
    (keeps : ∀ s l t, I s → guard s l → step s l = some t → I t)
    (gives : ∀ s l t, I s → guard s l → step s l = some t → R s l t)
    {s : σ} {ls : List ι} (meets : Meets step guard s ls) (initial : I s) :
    EachStep step R s ls := by
  intro before l after t u split run taken
  subst split
  obtain ⟨first, rest⟩ := run.meets_append.mp meets
  exact gives t l u (run.invariant_of_meets keeps first initial) rest.1 taken

/-- A relation that a step from the invariant satisfies exactly where the guard admits its
label, the invariant being kept there, is satisfied by all steps of exactly the guarded runs. -/
theorem Run.eachStep_iff_meets_of_invariant {R : σ → ι → σ → Prop}
    (exact_step : ∀ s l t, I s → step s l = some t → (R s l t ↔ guard s l))
    (keeps : ∀ s l t, I s → guard s l → step s l = some t → I t)
    {s t : σ} {ls : List ι} (run : Run step s ls t) (initial : I s) :
    EachStep step R s ls ↔ Meets step guard s ls := by
  induction run with
  | nil s => exact iff_of_true (fun before l after _ _ split => by simp at split) trivial
  | cons h _ ih =>
      rw [eachStep_cons h, meets_cons h, exact_step _ _ _ initial h]
      exact and_congr_right fun admitted => ih (keeps _ _ _ initial admitted h)

/-- A relation that a step satisfies exactly where the guard admits its label is satisfied
by all steps of exactly the guarded runs. -/
theorem Run.eachStep_iff_meets {R : σ → ι → σ → Prop}
    (exact_step : ∀ s l t, step s l = some t → (R s l t ↔ guard s l))
    {s t : σ} {ls : List ι} (run : Run step s ls t) :
    EachStep step R s ls ↔ Meets step guard s ls :=
  run.eachStep_iff_meets_of_invariant (I := fun _ => True) (fun s l t _ => exact_step s l t)
    (fun _ _ _ _ _ _ => trivial) trivial

/-- Where each step from the invariant is enabled, and satisfies the relation and keeps the
invariant exactly if the guard admits its label, no run has to be given: the first label that
the guard refuses already breaks the relation. -/
theorem eachStep_iff_meets_of_enabled {R : σ → ι → σ → Prop}
    (enabled : ∀ s l, I s → ∃ t, step s l = some t ∧ (R s l t ↔ guard s l) ∧ (guard s l → I t))
    {s : σ} (initial : I s) (ls : List ι) : EachStep step R s ls ↔ Meets step guard s ls := by
  induction ls generalizing s with
  | nil => exact iff_of_true (fun before l after _ _ split => by simp at split) trivial
  | cons l ls ih =>
      obtain ⟨t, taken, exact_step, keeps⟩ := enabled s l initial
      rw [eachStep_cons taken, meets_cons taken, exact_step]
      exact and_congr_right fun admitted => ih (keeps admitted)

end Msm8974.Runs
