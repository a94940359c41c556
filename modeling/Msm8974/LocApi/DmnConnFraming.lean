import Msm8974.LocApi.DmnConnRecovery

/-!
msgsnd and msgrcv over a pipe whose reads and writes may fail or stop short. Every size is right
as long as the announced one covers its own field: below that the rest to be read wraps around.
-/

namespace Msm8974.DmnConn

/-- A read that takes at most `limit` bytes; `none` is one that fails. -/
def pipereadUpTo (limit : Option Nat) (pipe : List UInt8) (sz : BitVec 32) :
    PipeRead × List UInt8 :=
  if sz.toInt < 0 then (.error, pipe)
  else
    match limit with
    | none => (.error, pipe)
    | some limit => (.bytes (pipe.take (min limit sz.toNat)), pipe.drop (min limit sz.toNat))

def pipewriteUpTo (limit : Option Nat) (pipe : List UInt8) (buf : Buffer) (sz : BitVec 32) :
    Int × List UInt8 :=
  if sz.toInt < 0 then (-1, pipe)
  else
    match limit with
    | none => (-1, pipe)
    | some limit => (min limit sz.toNat, pipe ++ (List.range (min limit sz.toNat)).map buf)

/-- A size_t as it is stored. -/
def sizeBytes (sz : BitVec 32) : List UInt8 :=
  [UInt8.ofNat sz.toNat, UInt8.ofNat (sz.toNat / 2 ^ 8), UInt8.ofNat (sz.toNat / 2 ^ 16),
    UInt8.ofNat (sz.toNat / 2 ^ 24)]

structure Sent where
  result : Int
  msgp : Buffer
  pipe : List UInt8

def msgsnd (limit : Option Nat) (pipe : List UInt8) (msgp : Buffer) (msgsz : BitVec 32) : Sent :=
  let pmsg := msgp.store 0 (sizeBytes msgsz)
  let (result, pipe) := pipewriteUpTo limit pipe pmsg msgsz
  ⟨if result ≠ msgsz.toInt then -1 else result, pmsg, pipe⟩

/-- What a call of msgrcv leaves, with the offset and size of each read it made. -/
structure Receipt where
  result : Int
  msgp : Buffer
  pipe : List UInt8
  asked : List (Nat × BitVec 32)

def msgrcv (header body : Option Nat) (pipe : List UInt8) (msgp : Buffer) (msgbufsz : BitVec 32) :
    Receipt :=
  let (read, pipe) := pipereadUpTo header pipe 4
  match msgrcvHeader msgbufsz read msgp with
  | none => ⟨-1, msgp.store 0 read.taken, pipe, [(0, 4)]⟩
  | some msgp =>
      let (read, pipe) := pipereadUpTo body pipe (msgp.msgsz - 4)
      let asked := [(0, 4), (4, msgp.msgsz - 4)]
      let (msgp, result) := msgrcvBody read msgp
      ⟨result, msgp, pipe, asked⟩

/-- What the two ends of the pipe expect of a call of msgrcv. -/
structure Frames (header body : Option Nat) (pipe : List UInt8) (msgp : Buffer)
    (msgbufsz : BitVec 32) (r : Receipt) : Prop where
  size : 0 < r.result →
    r.result = r.msgp.msgsz.toNat ∧ 4 ≤ r.result ∧ r.result ≤ msgbufsz.toNat
  consumed : 0 < r.result → ∃ taken, pipe = taken ++ r.pipe ∧ taken.length = r.result ∧
    ∀ i (inside : i < taken.length), r.msgp i = taken[i]
  space : ∀ ask ∈ r.asked, ask.1 + ask.2.toNat ≤ msgbufsz.toNat
  /-- A message that msgsnd has put at the head of the pipe arrives whole, if the reads do not
  stop short, or not at all. -/
  unchanged : ∀ limit earlier message msgsz rest, 0 ≤ (msgsnd limit earlier message msgsz).result →
    (msgsnd limit earlier message msgsz).pipe ++ rest = earlier ++ pipe →
    4 ≤ msgsz.toNat → msgsz.toNat ≤ msgbufsz.toNat →
      ((∃ k ∈ header, 4 ≤ k) → (∃ k ∈ body, msgsz.toNat - 4 ≤ k) → 0 < r.result) ∧
      (0 < r.result → r.result = msgsz.toNat ∧ r.pipe = rest ∧
        ∀ i < msgsz.toNat, r.msgp i = (msgsnd limit earlier message msgsz).msgp i)

/-- The buffer holds the size field, and a size that arrives covers its own field. -/
def SizeCovers (header : Option Nat) (pipe : List UInt8) (msgbufsz : BitVec 32) : Prop :=
  4 ≤ msgbufsz.toNat ∧
    ∀ limit ∈ header, 4 ≤ limit → 4 ≤ pipe.length → 4 ≤ announced pipe

section Reads

variable {limit : Option Nat} {pipe : List UInt8} {sz : BitVec 32}

/-- A read that takes all it was asked for. -/
theorem pipereadUpTo_full (limit : Option Nat) (pipe : List UInt8) (nonneg : 0 ≤ sz.toInt) :
    (pipereadUpTo limit pipe sz).1.result = sz.toNat ↔
      ∃ k ∈ limit, sz.toNat ≤ k ∧ sz.toNat ≤ pipe.length := by
  unfold pipereadUpTo
  rw [if_neg (by omega)]
  cases limit with
  | none => simp [PipeRead.result]
  | some limit =>
      simp [PipeRead.result]
      omega

end Reads

section Receiving

variable {header body : Option Nat} {pipe : List UInt8} {msgp : Buffer} {msgbufsz : BitVec 32}

/-- The four bytes of the size have come. -/
def HeaderRead (header : Option Nat) (pipe : List UInt8) : Prop :=
  (∃ k ∈ header, 4 ≤ k) ∧ 4 ≤ pipe.length

theorem announced_take (least : 4 ≤ pipe.length) (heap : Buffer) :
    (heap.store 0 (pipe.take 4)).msgsz.toNat = announced pipe := store_header heap least

theorem header_result : (pipereadUpTo header pipe 4).1.result = 4 ↔ HeaderRead header pipe := by
  have full := pipereadUpTo_full header pipe (show 0 ≤ (4 : BitVec 32).toInt by decide)
  have four : ((4 : BitVec 32).toNat : Int) = 4 := rfl
  rw [four] at full
  rw [full, HeaderRead]
  constructor
  · exact fun ⟨k, mem, enough, long⟩ => ⟨⟨k, mem, enough⟩, long⟩
  · exact fun ⟨⟨k, mem, enough⟩, long⟩ => ⟨k, mem, enough, long⟩

theorem header_read (read : HeaderRead header pipe) :
    pipereadUpTo header pipe 4 = (.bytes (pipe.take 4), pipe.drop 4) := by
  apply read.1.elim
  intro k ⟨mem, enough⟩
  have four : (4 : BitVec 32).toNat = 4 := rfl
  rw [Option.mem_def.mp mem, pipereadUpTo, if_neg (by decide), four]
  simp [Nat.min_eq_right enough]

/-- Without a size that fits the buffer there is no second read. -/
theorem msgrcv_rejects (body : Option Nat) (msgp : Buffer)
    (h : HeaderRead header pipe → msgbufsz.toNat < announced pipe) :
    (msgrcv header body pipe msgp msgbufsz).result = -1 ∧
      (msgrcv header body pipe msgp msgbufsz).asked = [(0, 4)] := by
  have rejected : msgrcvHeader msgbufsz (pipereadUpTo header pipe 4).1 msgp = none := by
    unfold msgrcvHeader
    split
    · rfl
    case isFalse came =>
      have read := header_result.mp (Decidable.not_not.mp came)
      have small := h read
      rw [← announced_take read.2 msgp] at small
      rw [header_read read]
      exact if_pos (BitVec.lt_def.mpr small)
  simp only [msgrcv, rejected]
  exact ⟨trivial, trivial⟩

/-- With one, the second read asks for the rest of the message. -/
theorem msgrcv_reads (body : Option Nat) (msgp : Buffer) (read : HeaderRead header pipe)
    (fits : announced pipe ≤ msgbufsz.toNat) :
    ∃ msgsz : BitVec 32, msgsz.toNat = announced pipe ∧
      msgrcv header body pipe msgp msgbufsz =
        { result := if (pipereadUpTo body (pipe.drop 4) (msgsz - 4)).1.result ≠ (msgsz - 4).toInt
            then -1 else msgsz.toInt
          msgp := (msgp.store 0 (pipe.take 4)).store 4
            (pipereadUpTo body (pipe.drop 4) (msgsz - 4)).1.taken
          pipe := (pipereadUpTo body (pipe.drop 4) (msgsz - 4)).2
          asked := [(0, 4), (4, msgsz - 4)] } := by
  have announces := announced_take read.2 msgp
  have accepted : msgrcvHeader msgbufsz (.bytes (pipe.take 4)) msgp =
      some (msgp.store 0 (pipe.take 4)) := by
    have came : (PipeRead.bytes (pipe.take 4)).result = 4 := by
      have long := read.2
      simp [PipeRead.result]
      omega
    rw [msgrcvHeader, if_neg (not_not_intro came), if_neg]
    · rfl
    · intro small
      have := BitVec.lt_def.mp small
      rw [show (PipeRead.bytes (pipe.take 4)).taken = pipe.take 4 from rfl, announces] at this
      omega
  refine ⟨(msgp.store 0 (pipe.take 4)).msgsz, announces, ?_⟩
  simp only [msgrcv, header_read read, accepted, msgrcvBody]
  rfl

/-- A size that covers its own field leaves the rest of the message to be read. -/
theorem rest_toNat (msgsz : BitVec 32) (covers : 4 ≤ msgsz.toNat) :
    (msgsz - 4).toNat = msgsz.toNat - 4 := by
  have four : (4 : BitVec 32).toNat = 4 := rfl
  rw [BitVec.toNat_sub_of_le (BitVec.le_def.mpr (by rwa [four])), four]

/-- A size below its own field asks for more than any buffer holds. -/
theorem rest_wraps (msgsz : BitVec 32) (short : msgsz.toNat < 4) :
    2 ^ 32 - 4 ≤ (msgsz - 4).toNat := by
  have four : (4 : BitVec 32).toNat = 4 := rfl
  rw [BitVec.toNat_sub, four]
  omega

/-- What has to come for a message to be received. -/
def MessageRead (body : Option Nat) (pipe : List UInt8) : Prop :=
  (∃ k ∈ body, announced pipe - 4 ≤ k) ∧ announced pipe ≤ pipe.length ∧ announced pipe < 2 ^ 31

theorem body_result (body : Option Nat) {msgsz : BitVec 32}
    (announces : msgsz.toNat = announced pipe) (covers : 4 ≤ announced pipe)
    (header : 4 ≤ pipe.length) :
    ((pipereadUpTo body (pipe.drop 4) (msgsz - 4)).1.result = (msgsz - 4).toInt ∧
      0 < msgsz.toInt) ↔ MessageRead body pipe := by
  have rest := rest_toNat msgsz (by omega)
  have high := msgsz.isLt
  rw [MessageRead]
  by_cases large : 2 ^ 31 ≤ msgsz.toNat
  · refine iff_of_false (fun ⟨_, positive⟩ => ?_) (by omega)
    rw [BitVec.toInt_eq_toNat_cond, if_neg (by omega)] at positive
    omega
  · have nonneg : (msgsz - 4).toInt = (msgsz - 4).toNat :=
      BitVec.toInt_eq_toNat_of_lt (by omega)
    have full := pipereadUpTo_full body (pipe.drop 4)
      (show 0 ≤ (msgsz - 4).toInt by omega)
    rw [nonneg, full, rest, announces, BitVec.toInt_eq_toNat_of_lt (by omega), List.length_drop]
    constructor
    · exact fun ⟨⟨k, mem, enough, long⟩, _⟩ => ⟨⟨k, mem, enough⟩, by omega, by omega⟩
    · exact fun ⟨⟨k, mem, enough⟩, long, _⟩ => ⟨⟨k, mem, enough, by omega⟩, by omega⟩

theorem body_read {msgsz : BitVec 32} (announces : msgsz.toNat = announced pipe)
    (covers : 4 ≤ announced pipe) (read : MessageRead body pipe) :
    pipereadUpTo body (pipe.drop 4) (msgsz - 4) =
      (.bytes ((pipe.take (announced pipe)).drop 4), pipe.drop (announced pipe)) := by
  have rest := rest_toNat msgsz (by omega)
  apply read.1.elim
  intro k ⟨mem, enough⟩
  have small := read.2.2
  have nonneg : ¬ (msgsz - 4).toInt < 0 := by
    rw [BitVec.toInt_eq_toNat_of_lt (by omega)]
    omega
  rw [Option.mem_def.mp mem, pipereadUpTo, if_neg nonneg]
  simp only [rest, announces, Nat.min_eq_right enough, List.drop_drop, List.drop_take]
  rw [Nat.add_sub_cancel' covers]

/-- Exactly the whole messages that fit are received, with nothing else taken from the pipe. -/
theorem msgrcv_pos_iff (body : Option Nat) (msgp : Buffer) (msgbufsz : BitVec 32)
    (covers : HeaderRead header pipe → 4 ≤ announced pipe) :
    0 < (msgrcv header body pipe msgp msgbufsz).result ↔
      HeaderRead header pipe ∧ announced pipe ≤ msgbufsz.toNat ∧ MessageRead body pipe := by
  by_cases accepted : HeaderRead header pipe ∧ announced pipe ≤ msgbufsz.toNat
  · apply (msgrcv_reads body msgp accepted.1 accepted.2).elim
    intro msgsz ⟨announces, eq⟩
    have result := body_result body announces (covers accepted.1) accepted.1.2
    rw [eq, ← and_assoc, and_iff_right accepted, ← result]
    simp only
    split
    case isTrue short => exact iff_of_false (by decide) fun whole => short whole.1
    case isFalse whole => rw [and_iff_right (Decidable.not_not.mp whole)]
  · have rejected := msgrcv_rejects body msgp fun read =>
      Nat.lt_of_not_le fun fits => accepted ⟨read, fits⟩
    rw [rejected.1]
    exact iff_of_false (by decide) fun ⟨read, fits, _⟩ => accepted ⟨read, fits⟩

theorem msgrcv_eq (msgp : Buffer) (read : HeaderRead header pipe)
    (fits : announced pipe ≤ msgbufsz.toNat) (covers : 4 ≤ announced pipe)
    (whole : MessageRead body pipe) :
    (msgrcv header body pipe msgp msgbufsz).result = announced pipe ∧
    (msgrcv header body pipe msgp msgbufsz).msgp.msgsz.toNat = announced pipe ∧
    (msgrcv header body pipe msgp msgbufsz).pipe = pipe.drop (announced pipe) ∧
    ∀ i, (msgrcv header body pipe msgp msgbufsz).msgp i =
      (pipe.take (announced pipe))[i]?.getD (msgp i) := by
  apply (msgrcv_reads body msgp read fits).elim
  intro msgsz ⟨announces, eq⟩
  have result := (body_result body announces covers read.2).mpr whole
  have small := whole.2.2
  rw [eq]
  refine ⟨?_, announced_take read.2 msgp, ?_, fun i => ?_⟩
  · rw [if_neg (not_not_intro result.1), BitVec.toInt_eq_toNat_of_lt (by omega), announces]
  · rw [body_read announces covers whole]
  · rw [body_read announces covers whole, ← store_body msgp (pipe.take (announced pipe)) i,
      List.take_take, Nat.min_eq_left covers]
    rfl

end Receiving

section Sending

variable {limit : Option Nat} {earlier rest : List UInt8} {message : Buffer} {msgsz : BitVec 32}

/-- The bytes of a message as it is sent. -/
def sentBytes (message : Buffer) (msgsz : BitVec 32) : List UInt8 :=
  (List.range msgsz.toNat).map (message.store 0 (sizeBytes msgsz))

theorem msgsnd_pipe (sent : 0 ≤ (msgsnd limit earlier message msgsz).result) :
    msgsz.toNat < 2 ^ 31 ∧
      (msgsnd limit earlier message msgsz).pipe = earlier ++ sentBytes message msgsz := by
  have high := msgsz.isLt
  by_cases negative : msgsz.toInt < 0
  · simp only [msgsnd, pipewriteUpTo, if_pos negative] at sent
    split at sent <;> omega
  · have small : msgsz.toNat < 2 ^ 31 := by
      rw [BitVec.toInt_eq_toNat_cond] at negative
      omega
    refine ⟨small, ?_⟩
    cases limit with
    | none =>
        simp only [msgsnd, pipewriteUpTo, if_neg negative] at sent
        split at sent <;> omega
    | some limit =>
        simp only [msgsnd, pipewriteUpTo, if_neg negative] at sent ⊢
        split at sent
        case isTrue => omega
        case isFalse whole =>
          rw [BitVec.toInt_eq_toNat_of_lt (by omega)] at whole
          have all : min limit msgsz.toNat = msgsz.toNat := by omega
          rw [all, sentBytes]

theorem sizeBytes_word (message : Buffer) (msgsz : BitVec 32) :
    (message.store 0 (sizeBytes msgsz)).msgsz = msgsz := by
  have bound := msgsz.isLt
  have byte (n : Nat) : (UInt8.ofNat n).toNat = n % 2 ^ 8 := UInt8.toNat_ofNat'
  apply BitVec.eq_of_toNat_eq
  simp only [Buffer.msgsz, Buffer.word, Buffer.store, sizeBytes]
  simp [byte]
  omega

theorem announced_sent (message : Buffer) (least : 4 ≤ msgsz.toNat) (rest : List UInt8) :
    announced (sentBytes message msgsz ++ rest) = msgsz.toNat := by
  have inside (i : Nat) (h : i < 4) : (sentBytes message msgsz ++ rest)[i]?.getD 0 =
      message.store 0 (sizeBytes msgsz) i := by
    have within : i < (sentBytes message msgsz).length := by
      rw [sentBytes, List.length_map, List.length_range]
      omega
    rw [List.getElem?_append_left within]
    simp [sentBytes, show i < msgsz.toNat by omega]
  have word := congrArg BitVec.toNat (sizeBytes_word message msgsz)
  rw [← word, announced, Buffer.msgsz, Buffer.msgsz, Buffer.word, Buffer.word, inside 0 (by omega),
    inside 1 (by omega), inside 2 (by omega), inside 3 (by omega)]

end Sending

section Framing

variable {header body : Option Nat} {pipe : List UInt8} {msgp : Buffer} {msgbufsz : BitVec 32}

/-- The reads of a call stay within the buffer if the size covers its own field. -/
theorem asked_iff : (∀ ask ∈ (msgrcv header body pipe msgp msgbufsz).asked,
    ask.1 + ask.2.toNat ≤ msgbufsz.toNat) ↔ SizeCovers header pipe msgbufsz := by
  have four : (4 : BitVec 32).toNat = 4 := rfl
  have high := msgbufsz.isLt
  by_cases accepted : HeaderRead header pipe ∧ announced pipe ≤ msgbufsz.toNat
  · apply (msgrcv_reads body msgp accepted.1 accepted.2).elim
    intro msgsz ⟨announces, eq⟩
    simp only [eq, List.forall_mem_cons, four, Nat.zero_add]
    constructor
    · intro ⟨first, second, _⟩
      refine ⟨first, fun _ _ _ _ => ?_⟩
      by_contra short
      have := rest_wraps msgsz (by omega)
      omega
    · intro ⟨first, covers⟩
      apply accepted.1.1.elim
      intro k ⟨mem, enough⟩
      have covers := covers k mem enough accepted.1.2
      have := rest_toNat msgsz (by omega)
      exact ⟨first, by omega, fun _ mem => by cases mem⟩
  · have rejected := msgrcv_rejects body msgp fun read =>
      Nat.lt_of_not_le fun fits => accepted ⟨read, fits⟩
    simp only [rejected.2, List.forall_mem_singleton, four, Nat.zero_add]
    constructor
    · refine fun first => ⟨first, fun k mem enough long => ?_⟩
      by_contra short
      exact accepted ⟨⟨⟨k, mem, enough⟩, long⟩, by omega⟩
    · exact fun covers => covers.1

theorem frames_of_covers (covers : SizeCovers header pipe msgbufsz) :
    Frames header body pipe msgp msgbufsz (msgrcv header body pipe msgp msgbufsz) := by
  have least : HeaderRead header pipe → 4 ≤ announced pipe := fun ⟨⟨k, mem, enough⟩, long⟩ =>
    covers.2 k mem enough long
  have positive := msgrcv_pos_iff body msgp msgbufsz least
  refine ⟨fun pos => ?_, fun pos => ?_, asked_iff.mpr covers, ?_⟩
  · have ⟨read, fits, whole⟩ := positive.mp pos
    have ⟨result, msgsz, _⟩ := msgrcv_eq msgp read fits (least read) whole
    have := least read
    exact ⟨by rw [result, msgsz], by omega, by omega⟩
  · have ⟨read, fits, whole⟩ := positive.mp pos
    have ⟨result, _, left, bytes⟩ := msgrcv_eq msgp read fits (least read) whole
    refine ⟨pipe.take (announced pipe), ?_, ?_, fun i inside => ?_⟩
    · rw [left, List.take_append_drop]
    · rw [result, List.length_take, Nat.min_eq_left whole.2.1]
    · rw [bytes i, List.getElem?_eq_getElem inside, Option.getD_some]
  · intro limit earlier message msgsz rest sent pipes covers' fits'
    have ⟨small, eq⟩ := msgsnd_pipe sent
    rw [eq, List.append_assoc, List.append_cancel_left_eq] at pipes
    have announces := announced_sent message covers' rest
    rw [pipes] at announces
    have size : (sentBytes message msgsz).length = msgsz.toNat := by simp [sentBytes]
    have length := congrArg List.length pipes
    rw [List.length_append, size] at length
    constructor
    · intro first second
      rw [← announces] at second
      exact positive.mpr ⟨⟨first, by omega⟩, by omega, second, by omega, by omega⟩
    · intro pos
      have ⟨read, fits, whole⟩ := positive.mp pos
      have ⟨result, _, left, bytes⟩ := msgrcv_eq msgp read fits (least read) whole
      refine ⟨by rw [result, announces], ?_, fun i inside => ?_⟩
      · rw [left, announces, ← pipes, ← size, List.drop_left]
      · rw [bytes i, announces, ← pipes, ← size, List.take_left, sentBytes]
        simp [inside, msgsnd]

/-- A call frames exactly when the size field covers itself and fits the buffer: whatever else
the pipe holds and however its reads end. -/
theorem msgrcv_frames_iff (header body : Option Nat) (pipe : List UInt8) (msgp : Buffer)
    (msgbufsz : BitVec 32) :
    Frames header body pipe msgp msgbufsz (msgrcv header body pipe msgp msgbufsz) ↔
      SizeCovers header pipe msgbufsz :=
  ⟨fun frames => asked_iff.mp frames.space, frames_of_covers⟩

/-- A size of three, and an error where the rest is asked for: -1 is the difference. -/
theorem failed_read_is_a_message :
    ¬∀ header body pipe msgp msgbufsz,
      Frames header body pipe msgp msgbufsz (msgrcv header body pipe msgp msgbufsz) := by
  intro h
  have frames := h (some 4) none [3, 0, 0, 0] (fun _ => 0) SERVER_BUFSZ
  exact absurd (frames.size (by decide)).2.1 (by decide)

end Framing

end Msm8974.DmnConn
