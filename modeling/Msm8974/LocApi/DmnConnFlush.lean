import Msm8974.Library.Loops
import Msm8974.LocApi.DmnConn

/-!
loc_eng_dmn_conn_glue_msgflush over whatever the reads of the pipe come to, one after the other.
The bytes that they took are kept beside the variables of the function.
-/

namespace Msm8974.DmnConn
open Loops

/-- A flush after some reads. -/
structure Flush where
  reads : Nat
  flushed : List UInt8

namespace Flush

/-- do length = piperead(msgqid, buf, 128) while(length), with what is read next. -/
def round (piperead : Nat → PipeRead) (s : Flush) : Option (Next Flush (Int × Flush)) :=
  let read := piperead s.reads
  let length := read.result
  let s : Flush := ⟨s.reads + 1, s.flushed ++ read.taken⟩
  if length ≠ 0 then some (.again s) else some (.done (length, s))

end Flush

/-- What the call returns, and the reads it made. -/
def msgflush (fuel : Nat) (piperead : Nat → PipeRead) : Option (Int × Flush) :=
  run (Flush.round piperead) fuel ⟨0, []⟩

/-- The call returns the number of bytes that it has flushed out. -/
def FlushCounts (piperead : Nat → PipeRead) : Prop :=
  ∃ fuel length s, msgflush fuel piperead = some (length, s) ∧ length = s.flushed.length

namespace PipeRead

theorem result_eq_zero {read : PipeRead} : read.result = 0 ↔ read = .bytes [] := by
  cases read with
  | error => simp [result]
  | bytes taken => simp [result]

theorem taken_eq_nil {read : PipeRead} : read.taken = [] ↔ read = .error ∨ read = .bytes [] := by
  cases read with
  | error => simp [taken]
  | bytes taken => simp [PipeRead.taken]

end PipeRead

namespace Flush
variable {piperead : Nat → PipeRead} {s t : Flush} {length : Int}

theorem round_more (more : piperead s.reads ≠ .bytes []) :
    round piperead s =
      some (.again ⟨s.reads + 1, s.flushed ++ (piperead s.reads).taken⟩) := by
  rw [round]
  exact if_pos (mt PipeRead.result_eq_zero.mp more)

theorem round_end (last : piperead s.reads = .bytes []) :
    round piperead s = some (.done (0, ⟨s.reads + 1, s.flushed⟩)) := by
  rw [round, last]
  simp [PipeRead.result, PipeRead.taken]

/-- All that some reads take, from one on. -/
def takenFrom (piperead : Nat → PipeRead) (start n : Nat) : List UInt8 :=
  (List.range n).flatMap fun m => (piperead (start + m)).taken

theorem takenFrom_succ (start n : Nat) : takenFrom piperead start (n + 1) =
    (piperead start).taken ++ takenFrom piperead (start + 1) n := by
  rw [takenFrom, List.range_succ_eq_map, List.flatMap_cons, List.flatMap_map, takenFrom]
  simp only [Nat.succ_eq_add_one, Nat.add_zero, Nat.add_assoc, Nat.add_comm 1]

/-- The first end of file is the `n`th read after the first `start` ones. -/
def FirstEnd (piperead : Nat → PipeRead) (start n : Nat) : Prop :=
  piperead (start + n) = .bytes [] ∧ ∀ m < n, piperead (start + m) ≠ .bytes []

theorem firstEnd_succ {start n : Nat} : FirstEnd piperead start (n + 1) ↔
    piperead start ≠ .bytes [] ∧ FirstEnd piperead (start + 1) n := by
  have shift (m : Nat) : start + 1 + m = start + (m + 1) := by omega
  simp only [FirstEnd, shift]
  constructor
  · rintro ⟨last, first⟩
    exact ⟨first 0 (Nat.succ_pos n), last, fun m lt => first (m + 1) (Nat.succ_lt_succ lt)⟩
  · rintro ⟨here, last, later⟩
    refine ⟨last, ?_⟩
    intro m lt
    cases m with
    | zero => exact here
    | succ m => exact later m (Nat.lt_of_succ_lt_succ lt)

theorem ends_of_firstEnd {start n : Nat} (flushed : List UInt8)
    (first : FirstEnd piperead start n) :
    Ends (round piperead) ⟨start, flushed⟩
      (0, ⟨start + n + 1, flushed ++ takenFrom piperead start n⟩) := by
  induction n generalizing start flushed with
  | zero =>
      have ended := ends_of_done (round_end (s := ⟨start, flushed⟩) first.1)
      rwa [takenFrom, List.range_zero, List.flatMap_nil, List.append_nil]
  | succ n ih =>
      obtain ⟨more, first⟩ := firstEnd_succ.mp first
      have rest := ih (flushed ++ (piperead start).taken) first
      rw [ends_again_iff (round_more (s := ⟨start, flushed⟩) more), takenFrom_succ,
        ← List.append_assoc]
      rwa [Nat.add_right_comm start 1 n] at rest

/-- A flush that returns has come to an end of file. -/
theorem firstEnd_of_ends {r : Int × Flush} (ends : Ends (round piperead) s r) :
    ∃ n, FirstEnd piperead s.reads n := by
  refine ends.rec_on (P := fun s => ∃ n, FirstEnd piperead s.reads n) ?_ ?_
  · intro s ended
    refine ⟨0, ?_, fun m lt => absurd lt (Nat.not_lt_zero m)⟩
    by_contra more
    cases (round_more more).symm.trans ended
  · rintro s t again - ⟨n, first⟩
    have more : piperead s.reads ≠ .bytes [] := by
      intro last
      cases (round_end last).symm.trans again
    injection Option.some.inj ((round_more more).symm.trans again) with same
    rw [← same] at first
    exact ⟨n + 1, firstEnd_succ.mpr ⟨more, first⟩⟩

end Flush

/-- It does as long as there is nothing to count: every read before the end of file fails. -/
theorem flush_counts_iff (piperead : Nat → PipeRead) :
    FlushCounts piperead ↔
      ∃ n, piperead n = .bytes [] ∧ ∀ m < n, piperead m = .error := by
  constructor
  · rintro ⟨fuel, length, s, ended, counts⟩
    have ends : Ends (Flush.round piperead) ⟨0, []⟩ (length, s) := ⟨fuel, ended⟩
    obtain ⟨n, first⟩ := Flush.firstEnd_of_ends ends
    cases ends.unique (Flush.ends_of_firstEnd [] first)
    have nothing : Flush.takenFrom piperead 0 n = [] :=
      List.length_eq_zero_iff.mp (Int.ofNat_inj.mp counts).symm
    refine ⟨n, by simpa using first.1, ?_⟩
    intro m lt
    have taken := List.flatMap_eq_nil_iff.mp nothing m (List.mem_range.mpr lt)
    rw [Nat.zero_add] at taken
    have more := first.2 m lt
    rw [Nat.zero_add] at more
    exact (PipeRead.taken_eq_nil.mp taken).resolve_right more
  · rintro ⟨n, last, errors⟩
    have first : Flush.FirstEnd piperead 0 n := by
      refine ⟨by rwa [Nat.zero_add], ?_⟩
      intro m lt
      rw [Nat.zero_add, errors m lt]
      exact PipeRead.noConfusion
    obtain ⟨fuel, ended⟩ := Flush.ends_of_firstEnd [] first
    have nothing : Flush.takenFrom piperead 0 n = [] := by
      refine List.flatMap_eq_nil_iff.mpr ?_
      intro m mem
      rw [Nat.zero_add, errors m (List.mem_range.mp mem)]
      rfl
    rw [nothing] at ended
    exact ⟨fuel, 0, _, ended, rfl⟩

/-- A pipe that stays broken is read forever, and bytes that were read are not counted. -/
theorem flush_does_not_count : ¬ FlushCounts (fun _ => .error) ∧
    ¬ FlushCounts (fun n => if n = 0 then .bytes [1, 2, 3] else .bytes []) := by
  constructor
  · rintro ⟨fuel, length, s, ended, -⟩
    refine not_ends_of_invariant (I := fun _ => True) ?_ trivial ⟨fuel, ended⟩
    intro s _
    exact .inr ⟨_, Flush.round_more PipeRead.noConfusion, trivial⟩
  · rintro ⟨fuel, length, s, ended, counts⟩
    have first : Flush.FirstEnd (fun n => if n = 0 then .bytes [1, 2, 3] else .bytes []) 0 1 := by
      refine ⟨rfl, ?_⟩
      intro m lt
      obtain rfl := Nat.lt_one_iff.mp lt
      simp
    cases Ends.unique ⟨fuel, ended⟩ (Flush.ends_of_firstEnd [] first)
    simp [Flush.takenFrom, PipeRead.taken] at counts

end Msm8974.DmnConn
