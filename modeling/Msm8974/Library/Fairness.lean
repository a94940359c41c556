import Msm8974.Library.Runs

/-!
Infinite executions of a labelled partial step, with idle moments. The labels belong to parties,
and an execution is fair to a party that moves unless it is blocked again and again. Progress is
proved by a rank with a helpful party for each state: the helpful party can move, and whoever
moves without lowering the rank leaves the rank and the helpful party as they are.
-/

namespace Msm8974.Runs
universe u v w
variable {σ : Type u} {ι : Type v} {π : Type w}

structure Execution (step : σ → ι → Option σ) where
  state : Nat → σ
  /-- What happens after each state; `none` is a moment in which nobody moves. -/
  label : Nat → Option ι
  next : ∀ n, match label n with
    | none => state (n + 1) = state n
    | some l => step (state n) l = some (state (n + 1))

def CanMove (step : σ → ι → Option σ) (party : ι → π) (p : π) (s : σ) : Prop :=
  ∃ l, party l = p ∧ (step s l).isSome

/-- The steps with the allowed labels. -/
def restrict (allowed : ι → Prop) [DecidablePred allowed] (step : σ → ι → Option σ)
    (s : σ) (l : ι) : Option σ :=
  if allowed l then step s l else none

theorem restrict_eq_some {allowed : ι → Prop} [DecidablePred allowed] {step : σ → ι → Option σ}
    {s t : σ} {l : ι} : restrict allowed step s l = some t ↔ allowed l ∧ step s l = some t := by
  rw [restrict]
  split
  · next yes => exact (and_iff_right yes).symm
  · next no => exact iff_of_false (by simp) fun taken => no taken.1

theorem canMove_restrict {allowed : ι → Prop} [DecidablePred allowed] {step : σ → ι → Option σ}
    {party : ι → π} {p : π} (included : ∀ l, party l = p → allowed l) (s : σ) :
    CanMove (restrict allowed step) party p s ↔ CanMove step party p s := by
  refine exists_congr fun l => and_congr_right fun mover => ?_
  rw [restrict, if_pos (included l mover)]

namespace Execution

variable {step : σ → ι → Option σ} {party : ι → π} {I P : σ → Prop}

/-- Weak fairness: a party that could move from some moment on without a break does move. -/
def Fair (e : Execution step) (party : ι → π) (p : π) : Prop :=
  ∀ n, (∀ m, n ≤ m → CanMove step party p (e.state m)) →
    ∃ m, n ≤ m ∧ ∃ l, e.label m = some l ∧ party l = p

theorem idle (e : Execution step) {n : Nat} (quiet : e.label n = none) :
    e.state (n + 1) = e.state n := by
  have next := e.next n
  rwa [quiet] at next

theorem taken (e : Execution step) {n : Nat} {l : ι} (moved : e.label n = some l) :
    step (e.state n) l = some (e.state (n + 1)) := by
  have next := e.next n
  rwa [moved] at next

/-- What the execution has done by a moment is a run. -/
theorem run (e : Execution step) (n : Nat) : ∃ ls, Run step (e.state 0) ls (e.state n) := by
  induction n with
  | zero => exact ⟨[], .nil _⟩
  | succ n ih =>
      obtain ⟨ls, run⟩ := ih
      cases moved : e.label n with
      | none => exact ⟨ls, by rwa [e.idle moved]⟩
      | some l => exact ⟨ls ++ [l], run_append_iff.mpr ⟨_, run, .cons (e.taken moved) (.nil _)⟩⟩

theorem invariant_of_guarded {guard : σ → ι → Prop}
    (keeps : ∀ s l t, I s → guard s l → step s l = some t → I t) (e : Execution step) {n m : Nat}
    (guarded : ∀ m l, n ≤ m → e.label m = some l → guard (e.state m) l)
    (initial : I (e.state n)) (later : n ≤ m) : I (e.state m) := by
  induction later with
  | refl => exact initial
  | @step m later ih =>
      cases moved : e.label m with
      | none => rwa [e.idle moved]
      | some l => exact keeps _ l _ ih (guarded m l later moved) (e.taken moved)

theorem invariant (e : Execution step) (keeps : ∀ s l t, I s → step s l = some t → I t) {n m : Nat}
    (initial : I (e.state n)) (later : n ≤ m) : I (e.state m) :=
  e.invariant_of_guarded (fun s l t inv (_ : True) => keeps s l t inv)
    (fun _ _ _ _ => trivial) initial later

/-- The progress rule. -/
theorem eventually_of_rank (rank : σ → Nat) (helpful : σ → π)
    (keeps : ∀ s l t, I s → ¬ P s → step s l = some t → I t)
    (moves : ∀ s, I s → ¬ P s → CanMove step party (helpful s) s)
    (progress : ∀ s l t, I s → ¬ P s → step s l = some t → P t ∨ rank t < rank s ∨
      rank t = rank s ∧ helpful t = helpful s ∧ party l ≠ helpful s)
    (e : Execution step) (fair : ∀ s, e.Fair party (helpful s)) {n : Nat}
    (initial : I (e.state n)) : ∃ m, n ≤ m ∧ P (e.state m) := by
  induction bound : rank (e.state n) using Nat.strongRecOn generalizing n with
  | ind k ih =>
      by_contra never
      have open_ (m : Nat) (later : n ≤ m) : ¬ P (e.state m) := fun holds => never ⟨m, later, holds⟩
      have inv (m : Nat) (later : n ≤ m) : I (e.state m) :=
        e.invariant_of_guarded keeps (fun m _ later _ => open_ m later) initial later
      have least (m : Nat) (later : n ≤ m) : k ≤ rank (e.state m) := by
        by_contra lower
        obtain ⟨m', later', holds⟩ := ih _ (Nat.lt_of_not_le lower) (inv m later) rfl
        exact open_ m' (Nat.le_trans later later') holds
      -- from here on the rank stands still, so one party stays helpful and never moves
      have still (m : Nat) (later : n ≤ m) :
          rank (e.state m) = k ∧ helpful (e.state m) = helpful (e.state n) := by
        induction later with
        | refl => exact ⟨bound, rfl⟩
        | @step m later ih =>
            have after : n ≤ m + 1 := Nat.le_succ_of_le later
            cases moved : e.label m with
            | none => rwa [e.idle moved]
            | some l =>
                obtain holds | lower | ⟨same, helper, -⟩ :=
                  progress _ l _ (inv m later) (open_ m later) (e.taken moved)
                · exact (open_ (m + 1) after holds).elim
                · have := least (m + 1) after
                  omega
                · exact ⟨same.trans ih.1, helper.trans ih.2⟩
      obtain ⟨m, later, l, moved, mover⟩ := fair (e.state n) n fun m later => by
        have can := moves _ (inv m later) (open_ m later)
        rwa [(still m later).2] at can
      obtain holds | lower | ⟨-, -, other⟩ :=
        progress _ l _ (inv m later) (open_ m later) (e.taken moved)
      · exact open_ (m + 1) (by omega) holds
      · have := least (m + 1) (by omega)
        have := (still m later).1
        omega
      · exact other (mover.trans (still m later).2.symm)

/-- An execution that stands still in a state where the party cannot move is fair to it. -/
theorem fair_of_blocked {e : Execution step} {n : Nat} {t : σ} {p : π}
    (still : ∀ m, n ≤ m → e.state m = t) (blocked : ¬ CanMove step party p t) :
    e.Fair party p := by
  intro k could
  have can := could (max n k) (Nat.le_max_right n k)
  rw [still _ (Nat.le_max_left n k)] at can
  exact (blocked can).elim

/-- An execution in which only the allowed labels are left is one of the steps with these labels. -/
theorem exists_tail (party : ι → π) (allowed : ι → Prop) [DecidablePred allowed]
    (e : Execution step) (n : Nat) (calm : ∀ m l, n ≤ m → e.label m = some l → allowed l) :
    ∃ tail : Execution (restrict allowed step), (∀ k, tail.state k = e.state (n + k)) ∧
      ∀ p, (∀ l, party l = p → allowed l) → e.Fair party p → tail.Fair party p := by
  have next (k : Nat) : match e.label (n + k) with
      | none => e.state (n + (k + 1)) = e.state (n + k)
      | some l => restrict allowed step (e.state (n + k)) l = some (e.state (n + (k + 1))) := by
    have taken := e.next (n + k)
    cases moved : e.label (n + k) with
    | none => rwa [moved] at taken
    | some l =>
        rw [moved] at taken
        exact restrict_eq_some.mpr ⟨calm _ l (Nat.le_add_right n k) moved, taken⟩
  refine ⟨⟨fun k => e.state (n + k), fun k => e.label (n + k), next⟩, fun _ => rfl, ?_⟩
  intro p included fair k could
  obtain ⟨m, later, l, moved, mover⟩ := fair (n + k) fun m later => by
    obtain ⟨j, rfl⟩ := Nat.exists_eq_add_of_le (Nat.le_trans (Nat.le_add_right n k) later)
    exact (canMove_restrict included _).mp (could j (by omega))
  obtain ⟨j, rfl⟩ := Nat.exists_eq_add_of_le (Nat.le_trans (Nat.le_add_right n k) later)
  exact ⟨j, by omega, l, moved, mover⟩

/-- What a guarded run does is guarded in the execution that makes the run. -/
theorem guarded_of_meets {guard : σ → ι → Prop} (e : Execution step) {ls : List ι}
    (labels : ∀ n, e.label n = ls[n]?) (meets : Meets step guard (e.state 0) ls) (n : Nat) (l : ι)
    (moved : e.label n = some l) : guard (e.state n) l := by
  have rest (n : Nat) : Meets step guard (e.state n) (ls.drop n) := by
    induction n with
    | zero => exact meets
    | succ n ih =>
        by_cases inside : n < ls.length
        · rw [List.drop_eq_getElem_cons inside] at ih
          have here := (labels n).trans (List.getElem?_eq_getElem inside)
          exact ((meets_cons (e.taken here)).mp ih).2
        · rw [List.drop_eq_nil_of_le (by omega)]
          trivial
  obtain ⟨inside, here⟩ := List.getElem?_eq_some_iff.mp ((labels n).symm.trans moved)
  have meets := rest n
  rw [List.drop_eq_getElem_cons inside, here] at meets
  exact meets.1

end Execution

/-- Fairness is decided by what comes after any moment. -/
theorem Execution.fair_of_suffix {step : σ → ι → Option σ} {party : ι → π} {p : π}
    {e tail : Execution step} {k : Nat} (state : ∀ n, e.state (k + n) = tail.state n)
    (label : ∀ n, e.label (k + n) = tail.label n) (fair : tail.Fair party p) :
    e.Fair party p := by
  intro n could
  obtain ⟨m, later, l, moved, mover⟩ := fair n fun m later => by
    rw [← state m]
    exact could (k + m) (by omega)
  exact ⟨k + m, by omega, l, (label m).trans moved, mover⟩

theorem Execution.fair_of_stuck {step : σ → ι → Option σ} {party : ι → π} {p : π}
    {e : Execution step} (stuck : ∀ n, ¬ CanMove step party p (e.state n)) : e.Fair party p :=
  fun n could => (stuck n (could n (Nat.le_refl n))).elim

/-- An execution that makes a run first. -/
theorem Run.prepend {step : σ → ι → Option σ} {s t : σ} {ls : List ι} (run : Run step s ls t)
    (tail : Execution step) (start : tail.state 0 = t) : ∃ e : Execution step, e.state 0 = s ∧
      (∀ n, e.state (ls.length + n) = tail.state n) ∧
      (∀ n, e.label (ls.length + n) = tail.label n) ∧
      ∀ n (h : n < ls.length), e.label n = ls[n] := by
  induction run with
  | nil s => exact ⟨tail, start, by simp, by simp, by simp⟩
  | @cons s u t l ls first _ ih =>
      obtain ⟨e, begins, states, labels, front⟩ := ih start
      refine ⟨⟨fun | 0 => s | n + 1 => e.state n, fun | 0 => some l | n + 1 => e.label n, ?_⟩,
        rfl, ?_, ?_, ?_⟩
      · intro n
        cases n with
        | zero => simpa [begins] using first
        | succ n => exact e.next n
      · intro n
        rw [List.length_cons, Nat.add_right_comm]
        exact states n
      · intro n
        rw [List.length_cons, Nat.add_right_comm]
        exact labels n
      · intro n h
        cases n with
        | zero => rfl
        | succ n => exact front n (Nat.lt_of_succ_lt_succ h)

/-- A run as an execution that stands still at its end. -/
theorem Run.exists_execution {step : σ → ι → Option σ} {s t : σ} {ls : List ι}
    (run : Run step s ls t) : ∃ e : Execution step, e.state 0 = s ∧
      (∀ n, ls.length ≤ n → e.state n = t) ∧ ∀ n, e.label n = ls[n]? := by
  obtain ⟨e, begins, states, labels, front⟩ :=
    run.prepend ⟨fun _ => t, fun _ => none, fun _ => rfl⟩ rfl
  refine ⟨e, begins, fun n later => ?_, fun n => ?_⟩
  · obtain ⟨k, rfl⟩ := Nat.exists_eq_add_of_le later
    exact states k
  · by_cases inside : n < ls.length
    · rw [front n inside, List.getElem?_eq_getElem inside]
    · obtain ⟨k, rfl⟩ := Nat.exists_eq_add_of_le (Nat.le_of_not_lt inside)
      rw [labels k, List.getElem?_eq_none (Nat.le_add_right _ _)]

end Msm8974.Runs
