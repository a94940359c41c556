import Mathlib.Data.List.Basic
import Msm8974.Library.Fairness

/-!
A server that takes messages off a FIFO queue one at a time, others appending to it. While it is
busy with a message each of its steps lowers the cost of what is left to do; a message that it
takes up costs it no more than a fixed price. Under weak fairness to the server, every message in
the queue is taken up and every busy server becomes idle.
-/

namespace Msm8974.Runs
universe u v w x
variable {σ : Type u} {ι : Type v} {π : Type w} {μ : Type x}

/-- Of a state: what the server still has to read, whether it is busy with a message, and the cost
of what it has in hand. -/
structure Desk (σ : Type u) (μ : Type x) where
  queue : σ → List μ
  busy : σ → Prop
  cost : σ → Nat

structure Serviced (step : σ → ι → Option σ) (party : ι → π) (server : π) (I : σ → Prop)
    (desk : Desk σ μ) (price : Nat) : Prop where
  keeps : ∀ s l t, I s → step s l = some t → I t
  moves : ∀ s, I s → desk.busy s ∨ desk.queue s ≠ [] → CanMove step party server s
  others : ∀ s l t, I s → step s l = some t → party l ≠ server →
    (desk.busy t ↔ desk.busy s) ∧ desk.cost t = desk.cost s ∧
      ∃ more, desk.queue t = desk.queue s ++ more
  works : ∀ s l t, I s → step s l = some t → party l = server → desk.busy s →
    desk.cost t < desk.cost s ∧ ∃ more, desk.queue t = desk.queue s ++ more
  takes : ∀ s l t, I s → step s l = some t → party l = server → ¬ desk.busy s →
    ∃ msg rest more, desk.queue s = msg :: rest ∧ desk.queue t = rest ++ more ∧
      desk.cost t < desk.cost s + price

namespace Serviced
variable {step : σ → ι → Option σ} {party : ι → π} {server : π} {I : σ → Prop} {desk : Desk σ μ}
  {price : Nat} {e : Execution step} {n : Nat}

theorem eventually_idle (h : Serviced step party server I desk price) (fair : e.Fair party server)
    (initial : I (e.state n)) : ∃ m, n ≤ m ∧ ¬ desk.busy (e.state m) := by
  refine Execution.eventually_of_rank (P := fun s => ¬ desk.busy s) desk.cost (fun _ => server)
    (fun s l t inv _ => h.keeps s l t inv)
    (fun s inv busy => h.moves s inv (.inl (not_not.mp busy))) ?_ e (fun _ => fair) initial
  intro s l t inv busy taken
  by_cases mine : party l = server
  · exact .inr (.inl (h.works s l t inv taken mine (not_not.mp busy)).1)
  · exact .inr (.inr ⟨(h.others s l t inv taken mine).2.1, rfl, mine⟩)

variable [DecidableEq μ] {msg : μ}

theorem idxOf_append {queue more : List μ} (mem : msg ∈ queue) :
    msg ∈ queue ++ more ∧ (queue ++ more).idxOf msg = queue.idxOf msg :=
  ⟨List.mem_append_left more mem, List.idxOf_append_of_mem mem⟩

theorem idxOf_take {first : μ} {rest more : List μ} (mem : msg ∈ first :: rest)
    (other : first ≠ msg) :
    msg ∈ rest ++ more ∧ (first :: rest).idxOf msg = (rest ++ more).idxOf msg + 1 := by
  have later : msg ∈ rest := (List.mem_cons.mp mem).resolve_left (Ne.symm other)
  rw [(idxOf_append later).2, List.idxOf_cons_ne rest other]
  exact ⟨(idxOf_append later).1, rfl⟩

/-- The server comes to the message. -/
theorem eventually_first (h : Serviced step party server I desk price)
    (fair : e.Fair party server) (initial : I (e.state n)) (queued : msg ∈ desk.queue (e.state n)) :
    ∃ m, n ≤ m ∧ ¬ desk.busy (e.state m) ∧ (desk.queue (e.state m)).head? = some msg := by
  refine Execution.eventually_of_rank (I := fun s => I s ∧ msg ∈ desk.queue s)
    (P := fun s => ¬ desk.busy s ∧ (desk.queue s).head? = some msg)
    (fun s => desk.cost s + price * (desk.queue s).idxOf msg) (fun _ => server)
    ?_ ?_ ?_ e (fun _ => fair) ⟨initial, queued⟩
  · intro s l t ⟨inv, mem⟩ later taken
    refine ⟨h.keeps s l t inv taken, ?_⟩
    by_cases mine : party l = server
    · by_cases busy : desk.busy s
      · obtain ⟨-, more, same⟩ := h.works s l t inv taken mine busy
        exact same ▸ (idxOf_append mem).1
      · obtain ⟨first, rest, more, here, there, -⟩ := h.takes s l t inv taken mine busy
        rw [here] at mem later
        refine there ▸ (idxOf_take mem fun same => later ⟨busy, ?_⟩).1
        rw [same, List.head?_cons]
    · obtain ⟨-, -, more, same⟩ := h.others s l t inv taken mine
      exact same ▸ (idxOf_append mem).1
  · intro s ⟨inv, mem⟩ _
    exact h.moves s inv (.inr (List.ne_nil_of_mem mem))
  · intro s l t ⟨inv, mem⟩ later taken
    by_cases mine : party l = server
    · refine .inr (.inl ?_)
      by_cases busy : desk.busy s
      · obtain ⟨less, more, same⟩ := h.works s l t inv taken mine busy
        rw [same, (idxOf_append mem).2]
        omega
      · obtain ⟨first, rest, more, here, there, less⟩ := h.takes s l t inv taken mine busy
        rw [here] at mem later
        have other : first ≠ msg := fun same => later ⟨busy, by rw [same, List.head?_cons]⟩
        have closer : (first :: rest).idxOf msg = (rest ++ more).idxOf msg + 1 :=
          (idxOf_take mem other).2
        rw [here, there, closer, Nat.mul_add_one]
        omega
    · obtain ⟨-, cost, more, same⟩ := h.others s l t inv taken mine
      refine .inr (.inr ⟨?_, rfl, mine⟩)
      rw [same, (idxOf_append mem).2, cost]

/-- The server takes up every message that is queued. -/
theorem eventually_taken (h : Serviced step party server I desk price)
    (fair : e.Fair party server) (initial : I (e.state n)) (queued : msg ∈ desk.queue (e.state n)) :
    ∃ m l, n ≤ m ∧ e.label m = some l ∧ party l = server ∧ ¬ desk.busy (e.state m) ∧
      (desk.queue (e.state m)).head? = some msg := by
  obtain ⟨k, after, ready⟩ := h.eventually_first fair initial queued
  have inv (m : Nat) (later : n ≤ m) : I (e.state m) := e.invariant h.keeps initial later
  by_contra never
  have waits (m : Nat) (later : k ≤ m) :
      ¬ desk.busy (e.state m) ∧ (desk.queue (e.state m)).head? = some msg := by
    induction later with
    | refl => exact ready
    | @step m later ih =>
        cases moved : e.label m with
        | none => rwa [e.idle moved]
        | some l =>
            have start : n ≤ m := Nat.le_trans after later
            by_cases mine : party l = server
            · exact (never ⟨m, l, start, moved, mine, ih⟩).elim
            · obtain ⟨busy, -, more, same⟩ :=
                h.others _ l _ (inv m start) (e.taken moved) mine
              refine ⟨busy.not.mpr ih.1, ?_⟩
              rw [same, List.head?_append, ih.2, Option.some_or]
  obtain ⟨m, later, l, moved, mine⟩ := fair k fun m later => by
    refine h.moves _ (inv m (Nat.le_trans after later)) (.inr fun empty => ?_)
    have first := (waits m later).2
    rw [empty] at first
    cases first
  exact never ⟨m, l, Nat.le_trans after later, moved, mine, waits m later⟩

end Serviced
end Msm8974.Runs
