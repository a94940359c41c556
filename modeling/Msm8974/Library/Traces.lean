import Mathlib.Data.List.Induction
import Mathlib.Tactic.Common

/-!
Past-time properties of a log of events, oldest event first. A log only grows at
its end, so each property comes with one equivalence for an appended event, and
a machine's invariant is carried from log to log by these alone.
-/

namespace Msm8974.Traces
universe u
variable {ε : Type u}

/-- Some event satisfying `p` happened and no event satisfying `q` came after it. -/
def Since (p q : ε → Prop) (log : List ε) : Prop :=
  ∃ before e after, log = before ++ e :: after ∧ p e ∧ ∀ x ∈ after, ¬ q x

/-- Every event of the log stands in relation `r` to the log before it. -/
def AtEach (r : List ε → ε → Prop) (log : List ε) : Prop :=
  ∀ before e after, log = before ++ e :: after → r before e

theorem not_since_nil (p q : ε → Prop) : ¬ Since p q [] := by
  rintro ⟨before, e, after, h, -⟩
  simp at h

theorem atEach_nil (r : List ε → ε → Prop) : AtEach r [] := by
  intro before e after h
  simp at h

private theorem append_cons_eq_concat {log before after : List ε} {e x : ε}
    (h : log ++ [x] = before ++ e :: after) :
    (after = [] ∧ e = x ∧ before = log) ∨
      ∃ rest, after = rest ++ [x] ∧ log = before ++ e :: rest := by
  rcases List.eq_nil_or_concat after with rfl | ⟨rest, y, rfl⟩
  · obtain ⟨rfl, hx⟩ := List.append_inj' h rfl
    exact .inl ⟨rfl, by simpa using hx.symm, rfl⟩
  · have h' : log ++ [x] = (before ++ e :: rest) ++ [y] := by simpa using h
    obtain ⟨rfl, hx⟩ := List.append_inj' h' rfl
    exact .inr ⟨rest, by simpa using hx.symm, rfl⟩

theorem since_concat {p q : ε → Prop} {log : List ε} {x : ε} :
    Since p q (log ++ [x]) ↔ p x ∨ (Since p q log ∧ ¬ q x) := by
  constructor
  · rintro ⟨before, e, after, h, he, clean⟩
    rcases append_cons_eq_concat h with ⟨-, rfl, -⟩ | ⟨rest, rfl, hlog⟩
    · exact .inl he
    · exact .inr ⟨⟨before, e, rest, hlog, he, fun y hy => clean y (by simp [hy])⟩,
        clean x (by simp)⟩
  · rintro (hx | ⟨⟨before, e, after, rfl, he, clean⟩, hx⟩)
    · exact ⟨log, x, [], rfl, hx, by simp⟩
    · refine ⟨before, e, after ++ [x], by simp, he, ?_⟩
      intro y hy
      rcases List.mem_append.mp hy with hy | hy
      · exact clean y hy
      · obtain rfl : y = x := by simpa using hy
        exact hx

theorem atEach_concat {r : List ε → ε → Prop} {log : List ε} {x : ε} :
    AtEach r (log ++ [x]) ↔ AtEach r log ∧ r log x := by
  constructor
  · intro h
    exact ⟨fun before e after hl => h before e (after ++ [x]) (by simp [hl]),
      h log x [] rfl⟩
  · rintro ⟨old, new⟩ before e after h
    rcases append_cons_eq_concat h with ⟨-, rfl, rfl⟩ | ⟨rest, -, hlog⟩
    · exact new
    · exact old before e rest hlog

/-- Events that stand in relation to any log can be appended to one. -/
theorem AtEach.append {r : List ε → ε → Prop} {log : List ε} (h : AtEach r log) {es : List ε}
    (free : ∀ e ∈ es, ∀ before, r before e) : AtEach r (log ++ es) := by
  induction es generalizing log with
  | nil => simpa using h
  | cons e es ih =>
      have first : AtEach r (log ++ [e]) := atEach_concat.mpr ⟨h, free e List.mem_cons_self log⟩
      simpa using ih first fun e mem => free e (List.mem_cons_of_mem _ mem)

/-- An event that satisfies `p` together with the log before it happened, and no event satisfying
`q` came after it. -/
def SinceAt (p : List ε → ε → Prop) (q : ε → Prop) (log : List ε) : Prop :=
  ∃ before e after, log = before ++ e :: after ∧ p before e ∧ ∀ x ∈ after, ¬ q x

theorem not_sinceAt_nil (p : List ε → ε → Prop) (q : ε → Prop) : ¬ SinceAt p q [] := by
  rintro ⟨before, e, after, h, -⟩
  simp at h

theorem sinceAt_concat {p : List ε → ε → Prop} {q : ε → Prop} {log : List ε} {x : ε} :
    SinceAt p q (log ++ [x]) ↔ p log x ∨ (SinceAt p q log ∧ ¬ q x) := by
  constructor
  · rintro ⟨before, e, after, h, he, clean⟩
    rcases append_cons_eq_concat h with ⟨-, rfl, rfl⟩ | ⟨rest, rfl, hlog⟩
    · exact .inl he
    · exact .inr ⟨⟨before, e, rest, hlog, he, fun y hy => clean y (by simp [hy])⟩,
        clean x (by simp)⟩
  · rintro (hx | ⟨⟨before, e, after, rfl, he, clean⟩, hx⟩)
    · exact ⟨log, x, [], rfl, hx, by simp⟩
    · refine ⟨before, e, after ++ [x], by simp, he, ?_⟩
      intro y hy
      rcases List.mem_append.mp hy with hy | hy
      · exact clean y hy
      · obtain rfl : y = x := by simpa using hy
        exact hx

/-- `Since` read off in one pass over the log. -/
theorem since_iff_foldl {p q : ε → Prop} [DecidablePred p] [DecidablePred q] {log : List ε} :
    Since p q log ↔ log.foldl (fun b x => decide (p x) || (b && !decide (q x))) false = true := by
  induction log using List.reverseRecOn with
  | nil => simp [not_since_nil]
  | append_singleton log x ih => simp [since_concat, ih]

instance (p q : ε → Prop) [DecidablePred p] [DecidablePred q] (log : List ε) :
    Decidable (Since p q log) :=
  decidable_of_iff _ since_iff_foldl.symm

/-- `log'` is `log` with events of the kind `p` appended. -/
def Extends (p : ε → Prop) (log log' : List ε) : Prop :=
  ∃ new, log' = log ++ new ∧ ∀ e ∈ new, p e

namespace Extends
variable {p : ε → Prop} {log log' : List ε}

theorem refl (p : ε → Prop) (log : List ε) : Extends p log log := ⟨[], by simp, by simp⟩

theorem concat (h : Extends p log log') {x : ε} (hx : p x) : Extends p log (log' ++ [x]) := by
  obtain ⟨new, rfl, kind⟩ := h
  refine ⟨new ++ [x], by simp, fun e he => ?_⟩
  cases List.mem_append.mp he with
  | inl old => exact kind e old
  | inr last => exact List.mem_singleton.mp last ▸ hx

theorem trans {later : List ε} (h : Extends p log log') (h' : Extends p log' later) :
    Extends p log later := by
  obtain ⟨new, rfl, kind⟩ := h
  obtain ⟨new', rfl, kind'⟩ := h'
  refine ⟨new ++ new', List.append_assoc .., fun e he => ?_⟩
  exact (List.mem_append.mp he).elim (kind e) (kind' e)

theorem mem_of_not (h : Extends p log log') {e : ε} (mem : e ∈ log') (other : ¬ p e) : e ∈ log := by
  obtain ⟨new, rfl, kind⟩ := h
  exact (List.mem_append.mp mem).resolve_right fun late => other (kind e late)

end Extends

/-- The events appended to the log a call started from. -/
def newEvents (before after : List ε) : List ε := after.drop before.length

theorem newEvents_concat (before : List ε) (x : ε) : newEvents before (before ++ [x]) = [x] := by
  simp [newEvents]

theorem Extends.of_mem_newEvents {p : ε → Prop} {log log' : List ε} (h : Extends p log log')
    {e : ε} (he : e ∈ newEvents log log') : p e := by
  obtain ⟨new, rfl, kind⟩ := h
  exact kind e (by simpa [newEvents] using he)

end Msm8974.Traces
