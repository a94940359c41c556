import Mathlib.Data.List.Basic

/-!
The list operations of linked_list.c as their callers use them: elements are added at
the head and removed from the tail, and a search walks from the head with a
caller-supplied predicate. The predicate may have side effects, so the search threads a
world through every call it makes.
-/

namespace Msm8974
universe u v
variable {α : Type u} {μ : Type v}

def linkedListAdd (list : List α) (dataObj : α) : List α :=
  dataObj :: list

/-- `linked_list_remove`: the tail element and the rest, or eLINKED_LIST_UNAVAILABLE_RESOURCE. -/
def linkedListRemove (list : List α) : Option (α × List α) :=
  list.getLast?.map fun x => (x, list.dropLast)

def linkedListEmpty (list : List α) : Bool := list.isEmpty

/-- `linked_list_search`: stop at the first element the predicate accepts, and
unlink it when `rmIfFound` is set. -/
def linkedListSearch (equal : α → μ → Bool × μ) (rmIfFound : Bool) :
    List α → μ → Option α × List α × μ
  | [], w => (none, [], w)
  | x :: xs, w =>
      match equal x w with
      | (true, w') => (some x, if rmIfFound then xs else x :: xs, w')
      | (false, w') =>
          let (found, rest, w'') := linkedListSearch equal rmIfFound xs w'
          (found, x :: rest, w'')

@[simp] theorem linkedListRemove_concat (list : List α) (x : α) :
    linkedListRemove (list ++ [x]) = some (x, list) := by
  simp [linkedListRemove]

/-- A predicate that rejects every element as long as the world satisfies `I`, which it keeps. -/
theorem linkedListSearch_rejecting_of {I : μ → Prop} (equal : α → μ → Bool × μ)
    (effect : α → μ → μ) (rmIfFound : Bool) (xs : List α) (w : μ) (initial : I w)
    (h : ∀ x ∈ xs, ∀ w, I w → equal x w = (false, effect x w) ∧ I (effect x w)) :
    linkedListSearch equal rmIfFound xs w = (none, xs, xs.foldl (fun w x => effect x w) w) := by
  induction xs generalizing w with
  | nil => rfl
  | cons x xs ih =>
      have first := h x List.mem_cons_self w initial
      have tail := ih (effect x w) first.2 fun y hy => h y (List.mem_cons_of_mem x hy)
      simp [linkedListSearch, first.1, tail]

theorem linkedListSearch_rejecting (equal : α → μ → Bool × μ) (effect : α → μ → μ)
    (rmIfFound : Bool) (xs : List α) (w : μ)
    (h : ∀ x ∈ xs, ∀ w, equal x w = (false, effect x w)) :
    linkedListSearch equal rmIfFound xs w = (none, xs, xs.foldl (fun w x => effect x w) w) :=
  linkedListSearch_rejecting_of (I := fun _ => True) equal effect rmIfFound xs w trivial
    fun x hx w _ => ⟨h x hx w, trivial⟩

/-- The first accepted element is found, and unlinked with `rmIfFound`; rejecting those before it
has no side effect. -/
theorem linkedListSearch_finds (equal : α → μ → Bool × μ) (rmIfFound : Bool) {w' : μ}
    (pre : List α) (x : α) (post : List α) (w : μ)
    (silent : ∀ y ∈ pre, equal y w = (false, w)) (accepts : equal x w = (true, w')) :
    linkedListSearch equal rmIfFound (pre ++ x :: post) w =
      (some x, pre ++ if rmIfFound then post else x :: post, w') := by
  induction pre with
  | nil => simp [linkedListSearch, accepts]
  | cons y pre ih =>
      have tail := ih fun z hz => silent z (List.mem_cons_of_mem y hz)
      simp [linkedListSearch, silent y List.mem_cons_self, tail]

end Msm8974
