import Mathlib.Data.List.Nodup

/-!
The account of a queue that is filled at one end, drained at the other and now and then
cleared: what became of the items sent. Items are listed oldest first. Each operation of a
queue keeps its account by one rule.
-/

namespace Msm8974.Fifo
universe u
variable {α : Type u} [DecidableEq α]

/-- Each item sent was received, was removed or is queued, and the order of sending is that
of receiving. -/
structure Account (sent received removed queued : List α) : Prop where
  distinct : sent.Nodup
  shared : sent.Perm (received ++ queued ++ removed)
  order : received ++ queued = sent.filter fun x => x ∉ removed

namespace Account
variable {sent received removed queued : List α} {x : α}

theorem empty : Account ([] : List α) [] [] [] := ⟨List.nodup_nil, .nil, rfl⟩

theorem removed_subset (h : Account sent received removed queued) : removed ⊆ sent :=
  fun _ mem => h.shared.mem_iff.mpr (List.mem_append_right _ mem)

theorem push (h : Account sent received removed queued) (fresh : x ∉ sent) :
    Account (sent ++ [x]) received removed (queued ++ [x]) := by
  have kept : x ∉ removed := fun mem => fresh (h.removed_subset mem)
  refine ⟨?_, ?_, ?_⟩
  · exact List.nodup_append.mpr ⟨h.distinct, List.nodup_singleton x, fun y mem z last same =>
      fresh (List.mem_singleton.mp last ▸ same ▸ mem)⟩
  · refine List.perm_iff_count.mpr fun y => ?_
    have before := h.shared.count_eq y
    simp only [List.count_append] at before ⊢
    omega
  · rw [← List.append_assoc, h.order, List.filter_append]
    simp [kept]

theorem pop (h : Account sent received removed (x :: queued)) :
    Account sent (received ++ [x]) removed queued := by
  have same : received ++ [x] ++ queued = received ++ x :: queued := by simp
  exact ⟨h.distinct, same ▸ h.shared, same ▸ h.order⟩

/-- All that is queued goes, in any order. -/
theorem clear (h : Account sent received removed queued) {gone : List α}
    (all : gone.Perm queued) : Account sent received (removed ++ gone) [] := by
  have parts := h.shared.nodup_iff.mp h.distinct
  have apart := (List.nodup_append.mp (List.nodup_append.mp parts).1).2.2
  have kept : ∀ y ∈ received, y ∉ gone := fun y mem again =>
    apart y mem y (all.mem_iff.mp again) rfl
  refine ⟨h.distinct, ?_, ?_⟩
  · refine List.perm_iff_count.mpr fun y => ?_
    have before := h.shared.count_eq y
    have same := all.count_eq y
    simp only [List.count_append, List.count_nil] at before ⊢
    omega
  · calc received ++ []
      _ = received.filter fun y => y ∉ gone := by
          rw [List.append_nil]
          exact (List.filter_eq_self.mpr fun y mem => by simpa using kept y mem).symm
      _ = (received ++ queued).filter fun y => y ∉ gone := by
          simp [List.filter_append, all.mem_iff]
      _ = (sent.filter fun y => y ∉ removed).filter fun y => y ∉ gone := by rw [h.order]
      _ = sent.filter fun y => y ∉ removed ++ gone := by
          simp [List.filter_filter, Bool.and_comm]

/-- Each item sent has exactly one fate. -/
theorem count_eq_one (h : Account sent received removed queued) (mem : x ∈ sent) :
    received.count x + queued.count x + removed.count x = 1 := by
  rw [← List.count_append, ← List.count_append, ← h.shared.count_eq x]
  exact List.nodup_iff_count_eq_one.mp h.distinct x mem

end Account
end Msm8974.Fifo
