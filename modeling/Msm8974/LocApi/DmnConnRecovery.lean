import Msm8974.LocApi.DmnConn

/-!
The server thread reads message after message as long as each fits its buffer. A message that
does not fit costs the thread: msgrcv leaves all but the header in the pipe and fails, and
thelper_main takes the failure for the end, although loc_api_server_proc means to retry.
-/

namespace Msm8974.DmnConn
open Msm8974.Runs

/-- The msgsz field of a message. -/
def announced (msg : List UInt8) : Nat := (Buffer.msgsz fun i => msg[i]?.getD 0).toNat

/-- A message that is as long as it says and fits the receive buffer. -/
def WellFormed (msg : List UInt8) : Prop :=
  4 ≤ msg.length ∧ msg.length ≤ SERVER_BUFSZ.toNat ∧ announced msg = msg.length

/-- A message that is as long as it says, which is more than the receive buffer holds. -/
def Oversized (msg : List UInt8) : Prop :=
  SERVER_BUFSZ.toNat < msg.length ∧ announced msg = msg.length

instance (msg : List UInt8) : Decidable (WellFormed msg) := inferInstanceAs (Decidable (_ ∧ _))

instance (msg : List UInt8) : Decidable (Oversized msg) := inferInstanceAs (Decidable (_ ∧ _))

theorem framed_facts {msg : List UInt8} (h : WellFormed msg ∨ Oversized msg) :
    4 ≤ msg.length ∧ announced msg = msg.length := by
  rcases h with ⟨least, -, whole⟩ | ⟨long, whole⟩
  · exact ⟨least, whole⟩
  · exact ⟨Nat.le_trans (by decide) (Nat.le_of_lt long), whole⟩

theorem Oversized.not_wellFormed {msg : List UInt8} (h : Oversized msg) : ¬ WellFormed msg :=
  fun fits => absurd fits.2.1 (Nat.not_le_of_lt h.1)

theorem store_header (heap : Buffer) {msg : List UInt8} (h : 4 ≤ msg.length) :
    ((heap.store 0 (msg.take 4)).msgsz).toNat = announced msg := by
  match msg, h with
  | _ :: _ :: _ :: _ :: _, _ => rfl

theorem store_body (heap : Buffer) (msg : List UInt8) (i : Nat) :
    (heap.store 0 (msg.take 4)).store 4 (msg.drop 4) i = msg[i]?.getD (heap i) := by
  by_cases h : 4 ≤ i
  · have late : 4 + (i - 4) = i := by omega
    have header : (msg.take 4)[i]? = none := by
      rw [List.getElem?_take, if_neg (Nat.not_lt.mpr h)]
    simp only [Buffer.store, h, Nat.zero_le, if_true, List.getElem?_drop, late, Nat.sub_zero,
      header, Option.getD_none]
  · have early : i < 4 := by omega
    simp [Buffer.store, h, early]

theorem received_bytes {heap : Buffer} {msg : List UInt8} :
    Received.bytes ⟨(heap.store 0 (msg.take 4)).store 4 (msg.drop 4), msg.length⟩ = msg := by
  refine List.ext_getElem (by simp [Received.bytes]) fun i _ inside => ?_
  simp [Received.bytes, store_body, inside]

/-- A read of what the pipe holds first. -/
theorem piperead_append {first rest : List UInt8} {sz : BitVec 32} (size : sz.toNat = first.length)
    (small : first.length < 2 ^ 31) : piperead (first ++ rest) sz = some (.bytes first, rest) := by
  have nonneg : ¬ sz.toInt < 0 := by
    rw [BitVec.toInt_eq_toNat_of_lt (by omega)]
    omega
  rw [piperead, if_neg nonneg]
  by_cases empty : first = []
  · have zero : sz = 0 := BitVec.eq_of_toNat_eq (by simp [size, empty])
    simp [zero, empty]
  · have positive : sz ≠ 0 := by
      rintro rfl
      exact empty (List.length_eq_zero_iff.mp size.symm)
    rw [if_neg positive, if_neg (by simp [empty]), size, List.take_left, List.drop_left]

/-- The read sizes of a message that announces `n` bytes. -/
theorem sizes {msgsz : BitVec 32} {n : Nat} (announces : msgsz.toNat = n) (least : 4 ≤ n)
    (most : n ≤ SERVER_BUFSZ.toNat) :
    (msgsz - 4).toNat = n - 4 ∧ (msgsz - 4).toInt = n - 4 ∧ msgsz.toInt = n := by
  have small : n ≤ 368 := most
  have rest : (msgsz - 4).toNat = n - 4 := by
    rw [BitVec.toNat_sub_of_le (by rw [BitVec.le_def, announces]; exact least), announces]
    rfl
  refine ⟨rest, ?_, ?_⟩
  · rw [BitVec.toInt_eq_toNat_of_lt (by omega)]
    omega
  · rw [BitVec.toInt_eq_toNat_of_lt (by omega)]
    omega

namespace Server

/-- The messages that the thread has not handled yet: the rest of a message that it is reading,
the others whole. -/
def Pending (pipe : List UInt8) : Thread → List (List UInt8) → Prop
  | .header, msgs => pipe = msgs.flatten
  | .body msgp, msgs => ∃ msg rest, msgs = msg :: rest ∧ WellFormed msg ∧
      (∃ heap : Buffer, msgp = heap.store 0 (msg.take 4)) ∧ pipe = msg.drop 4 ++ rest.flatten
  | .exited, msgs => ∃ msg rest, msgs = msg :: rest ∧ Oversized msg

def handledBytes (s : Server) : List (List UInt8) := s.handled.map Received.bytes

/-- What was handled and what is pending make up what was sent. -/
structure Tracks (s : Server) : Prop where
  framed : ∀ msg ∈ s.sent, WellFormed msg ∨ Oversized msg
  wellFormed : ∀ msg ∈ s.handledBytes, WellFormed msg
  split : ∃ msgs, Pending s.pipe s.thread msgs ∧ s.sent = s.handledBytes ++ msgs

/-- The thread runs, it has handled no message out of turn, and it handles all well-formed ones
when it goes on reading. -/
structure Recovers (s : Server) : Prop where
  running : s.thread ≠ .exited
  in_order : s.handledBytes <+: s.sent.filter WellFormed
  none_missed : ∀ heap, ∃ n t, Run step s (List.replicate n (.read heap)) t ∧ t.pipe = [] ∧
    t.thread = .header ∧ t.handledBytes = s.sent.filter WellFormed

variable {s t : Server}

/-- What bounds the reads that are left; a message takes two, the second of no byte at the least. -/
def rank (s : Server) : Nat :=
  2 * s.pipe.length + match s.thread with
    | .body _ => 1
    | .header | .exited => 0

theorem thelperMain_sent (s : Server) (result : Int) : (s.thelperMain result).sent = s.sent := by
  rw [thelperMain]
  split <;> rfl

theorem read_sent {heap : Buffer} (taken : step s (.read heap) = some t) : t.sent = s.sent := by
  cases thread : s.thread with
  | header =>
      simp only [step, thread, Option.bind_eq_bind, Option.bind_eq_some_iff] at taken
      obtain ⟨⟨header, pipe⟩, -, taken⟩ := taken
      split at taken
      · obtain rfl := Option.some.inj taken
        exact thelperMain_sent ..
      · obtain rfl := Option.some.inj taken
        rfl
  | body msgp =>
      simp only [step, thread, Option.bind_eq_bind, Option.bind_eq_some_iff] at taken
      obtain ⟨⟨body, pipe⟩, -, taken⟩ := taken
      split at taken
      · obtain rfl := Option.some.inj taken
        exact thelperMain_sent ..
      · obtain rfl := Option.some.inj taken
        exact thelperMain_sent ..
  | exited => simp [step, thread] at taken

variable {msg : List UInt8} {rest : List (List UInt8)}

theorem step_header (heap : Buffer) (framed : WellFormed msg ∨ Oversized msg)
    (thread : s.thread = .header) (pipe : s.pipe = (msg :: rest).flatten) :
    step s (.read heap) = some { s with
      pipe := msg.drop 4 ++ rest.flatten
      thread := if WellFormed msg then .body (heap.store 0 (msg.take 4)) else .exited } := by
  obtain ⟨least, whole⟩ := framed_facts framed
  have length : (msg.take 4).length = 4 := by simp [least]
  have reads : piperead s.pipe 4 = some (.bytes (msg.take 4), msg.drop 4 ++ rest.flatten) := by
    have whole_pipe : s.pipe = msg.take 4 ++ (msg.drop 4 ++ rest.flatten) := by
      rw [← List.append_assoc, List.take_append_drop]
      exact pipe
    rw [whole_pipe]
    exact piperead_append (by rw [length]; rfl) (by omega)
  have fits : ¬ SERVER_BUFSZ < (heap.store 0 (msg.take 4)).msgsz ↔ WellFormed msg := by
    rw [BitVec.lt_def, store_header heap least, whole, Nat.not_lt]
    exact ⟨fun most => ⟨least, most, whole⟩, fun wellFormed => wellFormed.2.1⟩
  have header : msgrcvHeader SERVER_BUFSZ (.bytes (msg.take 4)) heap =
      if WellFormed msg then some (heap.store 0 (msg.take 4)) else none := by
    have complete : (PipeRead.bytes (msg.take 4)).result = 4 := by
      rw [PipeRead.result, length]
      rfl
    unfold msgrcvHeader
    rw [if_neg (not_not_intro complete), ← ite_not]
    exact if_congr fits rfl rfl
  simp only [step, thread, reads, Option.bind_eq_bind, Option.bind_some, header]
  by_cases wellFormed : WellFormed msg
  · rw [if_pos wellFormed, if_pos wellFormed]
  · rw [if_neg wellFormed, if_neg wellFormed]
    rfl

theorem step_body {heap : Buffer} (next : Buffer) (wellFormed : WellFormed msg)
    (thread : s.thread = .body (heap.store 0 (msg.take 4)))
    (pipe : s.pipe = msg.drop 4 ++ rest.flatten) :
    step s (.read next) = some { s with
      pipe := rest.flatten
      thread := .header
      handled := s.handled ++
        [⟨(heap.store 0 (msg.take 4)).store 4 (msg.drop 4), msg.length⟩] } := by
  obtain ⟨least, most, whole⟩ := wellFormed
  have announces := (store_header heap least).trans whole
  have same : ((heap.store 0 (msg.take 4)).store 4 (msg.drop 4)).msgsz =
    (heap.store 0 (msg.take 4)).msgsz := rfl
  obtain ⟨left, left_int, all_int⟩ := sizes announces least most
  have small : msg.length ≤ 368 := most
  have length : (msg.drop 4).length = msg.length - 4 := List.length_drop
  have reads : piperead (msg.drop 4 ++ rest.flatten) _ = some (.bytes (msg.drop 4), rest.flatten) :=
    piperead_append (left.trans length.symm) (by omega)
  have taken : ((msg.drop 4).length : Int) = msg.length - 4 := by omega
  simp only [step, thread, pipe, reads, Option.bind_eq_bind, Option.bind_some, msgrcvBody,
    PipeRead.result, PipeRead.taken, same, left_int, all_int, taken]
  rw [if_neg (not_not_intro rfl), if_neg (by omega), Int.toNat_natCast]
  rfl

namespace Tracks

theorem initial : Tracks initial :=
  ⟨by simp [Server.initial], by simp [Server.initial, handledBytes], [], rfl, rfl⟩

theorem send (h : Tracks s) {msg : List UInt8} (framed : WellFormed msg ∨ Oversized msg)
    (taken : step s (.send msg) = some t) : Tracks t := by
  obtain rfl := Option.some.inj taken
  obtain ⟨msgs, pending, split⟩ := h.split
  constructor
  case framed =>
    intro other mem
    rcases List.mem_append.mp mem with mem | mem
    · exact h.framed other mem
    · exact List.mem_singleton.mp mem ▸ framed
  case wellFormed => exact h.wellFormed
  case split =>
    refine ⟨msgs ++ [msg], ?_, by rw [split]; simp [handledBytes]⟩
    dsimp only
    cases thread : s.thread with
    | header =>
        rw [thread] at pending
        simp [Pending, show s.pipe = msgs.flatten from pending]
    | body msgp =>
        rw [thread] at pending
        obtain ⟨first, rest, rfl, wf, stored, pipe⟩ := pending
        exact ⟨first, rest ++ [msg], rfl, wf, stored, by simp [pipe]⟩
    | exited =>
        rw [thread] at pending
        obtain ⟨first, rest, rfl, oversized⟩ := pending
        exact ⟨first, rest ++ [msg], rfl, oversized⟩

/-- The next read checks the header of a message or handles the message. -/
theorem read (h : Tracks s) (heap : Buffer) : (s.pipe = [] ∧ s.thread = .header) ∨
    s.thread = .exited ∨
      ∃ t, step s (.read heap) = some t ∧ Tracks t ∧ t.rank < s.rank := by
  obtain ⟨msgs, pending, split⟩ := h.split
  cases thread : s.thread with
  | header =>
      rw [thread] at pending
      cases msgs with
      | nil => exact .inl ⟨pending, rfl⟩
      | cons msg rest =>
          have framed := h.framed msg (by simp [split])
          refine .inr (.inr ⟨_, step_header heap framed thread pending, ⟨h.framed, h.wellFormed,
            msg :: rest, ?_, split⟩, ?_⟩)
          · dsimp only
            split
            case isTrue wellFormed => exact ⟨msg, rest, rfl, wellFormed, ⟨heap, rfl⟩, rfl⟩
            case isFalse long => exact ⟨msg, rest, rfl, framed.resolve_left long⟩
          · have least := (framed_facts framed).1
            have before : s.pipe.length = msg.length + rest.flatten.length := by
              rw [show s.pipe = msg ++ rest.flatten from pending, List.length_append]
            simp only [rank, thread, before, List.length_append, List.length_drop]
            split <;> omega
  | body msgp =>
      rw [thread] at pending
      obtain ⟨msg, rest, rfl, wellFormed, ⟨old, rfl⟩, pipe⟩ := pending
      refine .inr (.inr ⟨_, step_body heap wellFormed thread pipe,
        ⟨h.framed, ?_, rest, rfl, ?_⟩, ?_⟩)
      · intro other mem
        rw [handledBytes, List.map_append, List.map_singleton, received_bytes] at mem
        rcases List.mem_append.mp mem with mem | mem
        · exact h.wellFormed other mem
        · exact List.mem_singleton.mp mem ▸ wellFormed
      · rw [split, handledBytes, handledBytes, List.map_append, List.map_singleton, received_bytes,
          List.append_assoc, List.singleton_append]
      · simp only [rank, thread, pipe, List.length_append]
        omega
  | exited => exact .inr (.inl rfl)

/-- The thread has exited only if a message did not fit. -/
theorem running (h : Tracks s) (fit : ∀ msg ∈ s.sent, WellFormed msg) : s.thread ≠ .exited := by
  intro thread
  obtain ⟨msgs, pending, split⟩ := h.split
  rw [thread] at pending
  obtain ⟨msg, rest, rfl, oversized⟩ := pending
  exact oversized.not_wellFormed (fit msg (by simp [split]))

/-- A thread that waits at an empty pipe has handled everything. -/
theorem drained (h : Tracks s) (empty : s.pipe = []) (waiting : s.thread = .header) :
    s.handledBytes = s.sent := by
  obtain ⟨msgs, pending, split⟩ := h.split
  rw [waiting] at pending
  have nothing : msgs.flatten = [] := (show s.pipe = msgs.flatten from pending).symm.trans empty
  cases msgs with
  | nil => exact (split.trans (List.append_nil _)).symm
  | cons msg rest =>
      have least := (framed_facts (h.framed msg (by simp [split]))).1
      have hollow : msg = [] := (List.append_eq_nil_iff.mp nothing).1
      simp [hollow] at least

theorem of_read (h : Tracks s) {heap : Buffer} (taken : step s (.read heap) = some t) :
    Tracks t := by
  rcases h.read heap with ⟨empty, waiting⟩ | exited | ⟨u, taken', tracks, -⟩
  · simp [step, waiting, empty, piperead] at taken
  · simp [step, exited] at taken
  · obtain rfl : u = t := Option.some.inj (taken'.symm.trans taken)
    exact tracks

theorem of_reads (h : Tracks s) {heap : Buffer} {n : Nat}
    (run : Run step s (List.replicate n (.read heap)) t) : Tracks t ∧ t.sent = s.sent := by
  induction n generalizing s with
  | zero =>
      cases run
      exact ⟨h, rfl⟩
  | succ n ih =>
      cases run with
      | cons taken rest =>
          obtain ⟨tracks, same⟩ := ih (h.of_read taken) rest
          exact ⟨tracks, same.trans (read_sent taken)⟩

theorem recovers_iff (h : Tracks s) : Recovers s ↔ ∀ msg ∈ s.sent, WellFormed msg := by
  constructor
  · intro recovers
    obtain ⟨n, t, run, empty, waiting, all⟩ := recovers.none_missed fun _ => 0
    obtain ⟨tracks, sent⟩ := h.of_reads run
    rw [tracks.drained empty waiting, sent] at all
    intro msg mem
    rw [all] at mem
    exact of_decide_eq_true (List.mem_filter.mp mem).2
  · intro fit
    have all : s.sent.filter WellFormed = s.sent :=
      List.filter_eq_self.mpr fun msg mem => decide_eq_true (fit msg mem)
    constructor
    case running => exact h.running fit
    case in_order =>
      obtain ⟨msgs, -, split⟩ := h.split
      rw [all, split]
      exact List.prefix_append ..
    case none_missed =>
      intro heap
      have moves : ∀ u, (Tracks u ∧ u.sent = s.sent) → (u.pipe = [] ∧ u.thread = .header) ∨
          ∃ v, step u (.read heap) = some v ∧ (Tracks v ∧ v.sent = s.sent) ∧ v.rank < u.rank := by
        intro u ⟨tracks, same⟩
        rcases tracks.read heap with done | exited | ⟨v, taken, next, lower⟩
        · exact .inl done
        · exact absurd exited (tracks.running (same ▸ fit))
        · exact .inr ⟨v, taken, ⟨next, (read_sent taken).trans same⟩, lower⟩
      obtain ⟨n, t, run, ⟨tracks, same⟩, empty, waiting⟩ :=
        exists_run_of_decreasing rank moves ⟨h, rfl⟩
      exact ⟨n, t, run, empty, waiting, by rw [tracks.drained empty waiting, same, all]⟩

theorem of_run {ls : List Label} (run : Run step .initial ls s)
    (framed : ∀ msg ∈ s.sent, WellFormed msg ∨ Oversized msg) : Tracks s := by
  refine run.invariant (I := fun s => (∀ msg ∈ s.sent, WellFormed msg ∨ Oversized msg) → Tracks s)
    ?_ (fun _ => .initial) framed
  intro u l v tracks taken framed
  cases l with
  | send msg =>
      obtain rfl := Option.some.inj taken
      have before := tracks fun other mem => framed other (List.mem_append_left _ mem)
      exact before.send (framed msg (by simp)) rfl
  | read heap => exact (tracks (read_sent taken ▸ framed)).of_read taken

end Tracks

/-- Wherever a run of writes and reads has come to, the thread handles every well-formed message,
once and in order, and keeps running, exactly if no message was longer than its buffer. -/
theorem server_recovers_iff {ls : List Label} (run : Run step initial ls s)
    (framed : ∀ msg ∈ s.sent, WellFormed msg ∨ Oversized msg) :
    Recovers s ↔ ∀ msg ∈ s.sent, ¬ Oversized msg := by
  rw [(Tracks.of_run run framed).recovers_iff]
  refine forall₂_congr fun msg mem => ⟨fun wellFormed oversized => ?_, fun fits => ?_⟩
  · exact oversized.not_wellFormed wellFormed
  · exact (framed msg mem).resolve_right fits

/-- GPSONE_UNBLOCK without a union, in 13 bytes. -/
def unblock : List UInt8 := [13, 0, 0, 0, 0, 0, 0, 0, 0, 0, 0, 0, 0xF3]

/-- 369 bytes, one more than the buffer holds. -/
def oversized : List UInt8 := [0x71, 1, 0, 0] ++ List.replicate 365 0

theorem server_handles_two_messages : ∃ s,
    Run step initial [.send unblock, .read fun _ => 7, .send unblock, .read fun _ => 0] s ∧
      Recovers s := by
  refine ⟨_, run_iff_foldlM.mpr (rfl : List.foldlM step _ _ = some _), ?_⟩
  refine (server_recovers_iff (run_iff_foldlM.mpr (rfl : List.foldlM step initial
    [.send unblock, .read fun _ => 7, .send unblock, .read fun _ => 0] = some _)) ?_).mpr ?_
  · decide
  · decide

theorem oversized_message_ends_the_server : ∃ s,
    Run step initial [.send oversized, .send unblock, .read fun _ => 0] s ∧
      (∀ msg ∈ s.sent, WellFormed msg ∨ Oversized msg) ∧ WellFormed unblock ∧
      unblock ∈ s.sent ∧ s.handled = [] ∧ s.thread = .exited ∧ ¬ Recovers s := by
  have length : oversized.length = 369 := by
    rw [oversized, List.length_append, List.length_replicate]
    rfl
  have long : Oversized oversized := by
    rw [Oversized, length]
    exact ⟨by decide, rfl⟩
  refine ⟨_, run_iff_foldlM.mpr (rfl : List.foldlM step _ _ = some _), fun msg mem => ?_,
    by decide, List.mem_cons_of_mem _ List.mem_cons_self, rfl, rfl,
    fun recovers => recovers.running rfl⟩
  have either : msg = oversized ∨ msg = unblock := by
    simpa using (show msg ∈ [oversized, unblock] from mem)
  rcases either with rfl | rfl
  · exact .inr long
  · exact .inl (by decide)

end Server

end Msm8974.DmnConn
