import Msm8974.LocApi.ThelperHandshake

/-!
Unblock and join. thread_exit is set before the message is written, so a thread that takes the
message sees the flag; and the message is long enough for the two reads of one message, whatever
bytes stand before it in the pipe.
-/

namespace Msm8974.DmnConn

namespace Server

variable {s t : Server} {heap : Buffer}

theorem read_of_header (header : s.thread = .header) (taken : s.step (.read heap) = some t) :
    t.thread ≠ .header ∧ s.pipe.length ≤ t.pipe.length + 4 := by
  simp only [step, header, Option.bind_eq_bind, Option.bind_eq_some_iff] at taken
  obtain ⟨⟨read, pipe⟩, first, taken⟩ := taken
  have short : s.pipe.length ≤ pipe.length + 4 := by
    simp only [piperead] at first
    split at first
    case isTrue wrong => exact absurd wrong (by decide)
    case isFalse =>
      split at first
      case isTrue wrong => exact absurd wrong (by decide)
      case isFalse =>
        split at first
        case isTrue => cases first
        case isFalse =>
          obtain ⟨-, rfl⟩ := Prod.mk.inj (Option.some.inj first)
          rw [List.length_drop]
          exact Nat.le_add_of_sub_le (Nat.le_refl _)
  split at taken <;> obtain rfl := Option.some.inj taken
  · simpa [thelperMain] using short
  · simpa using short

theorem read_of_body {msgp : Buffer} (body : s.thread = .body msgp)
    (taken : s.step (.read heap) = some t) : t.thread = .header ∨ t.thread = .exited := by
  simp only [step, body, Option.bind_eq_bind, Option.bind_eq_some_iff] at taken
  obtain ⟨⟨read, pipe⟩, -, taken⟩ := taken
  split at taken <;> obtain rfl := Option.some.inj taken <;> simp [thelperMain]

/-- A read blocks on an empty pipe only. -/
theorem read_isSome (heap : Buffer) (running : s.thread ≠ .exited) (bytes : s.pipe ≠ []) :
    (s.step (.read heap)).isSome := by
  have reads (sz : BitVec 32) : ∃ read pipe, piperead s.pipe sz = some (read, pipe) := by
    simp only [piperead, if_neg bytes]
    split
    · exact ⟨_, _, rfl⟩
    · split <;> exact ⟨_, _, rfl⟩
  cases thread : s.thread with
  | header =>
      obtain ⟨read, pipe, first⟩ := reads 4
      simp only [step, thread, first, Option.bind_eq_bind, Option.bind_some]
      split <;> rfl
  | body msgp =>
      obtain ⟨read, pipe, second⟩ := reads (msgp.msgsz - 4)
      simp only [step, thread, second, Option.bind_eq_bind, Option.bind_some]
      split <;> rfl
  | exited => exact (running thread).elim

end Server

theorem unblockMessage_length (cmsgbuf : Buffer) : (unblockMessage cmsgbuf).length = 112 := by
  simp [unblockMessage, sentBytes, CTRL_MSGBUF_SIZE]

namespace Thelper
open Msm8974.Runs

variable {s t : Thelper} {l : Label}

/-- Where thread_proc stands when thelper_main is somewhere else. -/
structure Serving (s : Thelper) : Prop where
  reading : ∀ msgp, s.server.thread = .body msgp → s.main = .proc
  exited : s.server.thread = .exited → s.main = .procFailed ∨
    s.thread_exit = true ∧ (s.main = .test ∨ s.main = .post ∨ s.main = .ended)

theorem Serving.initial : Serving initial := ⟨by simp [Thelper.initial, Server.initial],
  by simp [Thelper.initial, Server.initial]⟩

theorem deliver_server {msg : List UInt8} (sent : s.deliver msg = some t) :
    (∃ server, t = { s with server } ∧ server.thread = s.server.thread ∧
      server.pipe = if s.opened then s.server.pipe ++ msg else s.server.pipe) := by
  rw [deliver] at sent
  split at sent
  case isTrue opened =>
    obtain ⟨server, written, sent⟩ := Option.bind_eq_some_iff.mp sent
    obtain rfl := Option.some.inj written
    exact ⟨_, (Option.some.inj sent).symm, rfl, by rw [if_pos opened]⟩
  case isFalse closed => exact ⟨s.server, (Option.some.inj sent).symm, rfl, by rw [if_neg closed]⟩

theorem Serving.step (shared : Shared s) (h : Serving s) (taken : step s l = some t) :
    Serving t := by
  have unborn := shared.unborn
  obtain ⟨reading, exited⟩ := h
  cases step_moves taken
  case unblockProc place sent =>
    obtain ⟨server, rfl, thread, -⟩ := deliver_server sent
    constructor <;> simpa [thread]
  case send sent =>
    obtain ⟨server, rfl, thread, -⟩ := deliver_server sent
    constructor <;> simpa [thread]
  all_goals constructor <;> grind

namespace Shutdown

/-- The client has called unblock, and what the thread does was told by then. -/
structure Unblocked (s : Thelper) : Prop where
  shared : Shared s
  serving : Serving s
  client : s.client = .unblock ∨ s.client = .join ∨ s.client = .joined
  exit : s.thread_exit = true
  told : s.main.told = true
  finished : s.client = .joined → s.main = .ended
  /-- No read has been made since the message was written, or one. -/
  message : s.client = .join → s.main = .unlock false ∨ s.main = .pre ∨ s.main = .proc →
    108 ≤ s.server.pipe.length ∧ (s.server.thread = .header → 112 ≤ s.server.pipe.length)

theorem Unblocked.step (h : Unblocked s) (taken : step s l = some t) : Unblocked t := by
  have shared := h.shared.step taken
  have serving := h.serving.step h.shared taken
  have started := h.shared.started
  obtain ⟨-, -, client, exit, told, finished, message⟩ := h
  refine ⟨shared, serving, ?_, ?_, ?_, ?_, ?_⟩
  · cases step_moves taken
    case send sent =>
      obtain ⟨server, rfl, -, -⟩ := deliver_server sent
      exact client
    case signal failed place =>
      obtain ⟨_, awake⟩ | ⟨_, awake⟩ := wake_cases s.client <;> grind
    all_goals grind
  · cases step_moves taken
    case send sent =>
      obtain ⟨server, rfl, -, -⟩ := deliver_server sent
      exact exit
    case unblockProc place sent =>
      obtain ⟨server, rfl, -, -⟩ := deliver_server sent
      exact exit
    all_goals grind
  · cases step_moves taken
    case send sent =>
      obtain ⟨server, rfl, -, -⟩ := deliver_server sent
      exact told
    case unblockProc place sent =>
      obtain ⟨server, rfl, -, -⟩ := deliver_server sent
      exact told
    all_goals grind [Main.told]
  · cases step_moves taken
    case send sent =>
      obtain ⟨server, rfl, -, -⟩ := deliver_server sent
      exact finished
    case signal failed place =>
      obtain ⟨_, awake⟩ | ⟨_, awake⟩ := wake_cases s.client <;> grind
    all_goals grind
  · cases step_moves taken
    case send msg sent =>
      obtain ⟨server, rfl, thread, pipe⟩ := deliver_server sent
      intro place ahead
      obtain ⟨bytes, whole⟩ := message place ahead
      have grown : s.server.pipe.length ≤ server.pipe.length := by
        rw [pipe]
        split <;> simp
      exact ⟨Nat.le_trans bytes grown, fun header => Nat.le_trans (whole (thread ▸ header)) grown⟩
    case unblockProc cmsgbuf t place sent =>
      obtain ⟨server, rfl, thread, pipe⟩ := deliver_server sent
      intro _ ahead
      have opened : s.opened = true := by grind [Main.Started]
      have length := unblockMessage_length cmsgbuf
      rw [if_pos opened] at pipe
      have grown : 112 ≤ server.pipe.length := by
        rw [pipe, List.length_append]
        omega
      exact ⟨by simpa using Nat.le_trans (by decide) grown, fun _ => grown⟩
    case signal failed place =>
      obtain ⟨_, awake⟩ | ⟨_, awake⟩ := wake_cases s.client <;> grind [Main.told]
    case reads heap msgp server place read goes_on =>
      intro joining ahead
      have least := message joining ahead
      -- only the read of a header goes on
      cases thread : s.server.thread with
      | header =>
          have rest := (Server.read_of_header thread read).2
          have whole := least.2 thread
          exact ⟨by simpa using (by omega : 108 ≤ server.pipe.length),
            fun header => by simp [goes_on] at header⟩
      | body _ =>
          obtain header | exited := Server.read_of_body thread read
          · simp [goes_on] at header
          · simp [goes_on] at exited
      | exited => simp [Server.step, thread] at read
    all_goals grind

def clientRank : Client → Nat
  | .unblock => 2
  | .join => 1
  | _ => 0

def mainRank (main : Main) (thread : Thread) : Nat :=
  match main, thread with
  | .ready _, _ => 10
  | .signal _, _ => 9
  | .unlock _, _ => 8
  | .pre, _ => 7
  | .proc, .header => 6
  | .proc, _ => 5
  | .procFailed, _ => 4
  | .test, _ => 3
  | .post, _ | .preFailed, _ => 2
  | _, _ => 0

def rank (s : Thelper) : Nat := clientRank s.client + mainRank s.main s.server.thread

/-- Who brings join_thelper forward. -/
def helpful (s : Thelper) : Party :=
  match s.client, s.main with
  | .unblock, _ | _, .ended => .client
  | _, _ => .thread

/-- The reads that are left. -/
def readsLeft (s : Thelper) : Nat :=
  match s.main, s.server.thread with
  | .ready _, _ | .signal _, _ | .unlock _, _ | .pre, _ | .proc, .header => 2
  | .proc, _ => 1
  | _, _ => 0

theorem Unblocked.moves (h : Unblocked s) (open_ : s.client ≠ .joined) :
    CanMove Thelper.step Label.party (helpful s) s := by
  obtain ⟨shared, serving, client, exit, told, finished, message⟩ := h
  rcases client with place | place | place
  · refine ⟨.unblockProc fun _ => 0, by simp [Label.party, helpful, place], ?_⟩
    simp only [Thelper.step, place, deliver]
    split <;> rfl
  · cases main : s.main with
    | absent | init | initFailed => simp [main, Main.told] at told
    | ready failed =>
        have free : s.thread_mutex = none := by
          have client_holds := shared.client_holds
          have thread_holds := shared.thread_holds
          have holders := shared.holders
          grind [Client.inside, Main.inside]
        exact ⟨.thread, by simp [Label.party, helpful, place, main],
          by simp [Thelper.step, threadStep, main, free]⟩
    | signal _ | unlock _ | preFailed | procFailed | test | post =>
        exact ⟨.thread, by simp [Label.party, helpful, place, main],
          by simp [Thelper.step, threadStep, main]⟩
    | pre =>
        exact ⟨.procPre 0, by simp [Label.party, helpful, place, main],
          by simp [Thelper.step, main]⟩
    | proc =>
        refine ⟨.read fun _ => 0, by simp [Label.party, helpful, place, main], ?_⟩
        have running : s.server.thread ≠ .exited := fun exited => by
          simpa [main] using serving.exited exited
        have bytes : s.server.pipe ≠ [] := by
          rintro empty
          simpa [empty] using (message place (.inr (.inr main))).1
        obtain ⟨server, read⟩ :=
          Option.isSome_iff_exists.mp (Server.read_isSome (fun _ => 0) running bytes)
        simp only [Thelper.step, main, procRead, read, Option.bind_eq_bind, Option.bind_some]
        split <;> rfl
    | ended =>
        exact ⟨.client, by simp [Label.party, helpful, place, main],
          by simp [Thelper.step, clientStep, place, main]⟩
  · exact (open_ place).elim

theorem Unblocked.progress (h : Unblocked s) (open_ : s.client ≠ .joined)
    (taken : Thelper.step s l = some t) : t.client = .joined ∨ rank t < rank s ∨
      rank t = rank s ∧ helpful t = helpful s ∧ l.party ≠ helpful s := by
  obtain ⟨shared, serving, client, exit, told, finished, message⟩ := h
  cases step_moves taken
  case send sent =>
    obtain ⟨server, rfl, thread, -⟩ := deliver_server sent
    refine .inr (.inr ⟨by simp [rank, thread], rfl, ?_⟩)
    unfold helpful
    split <;> simp [Label.party]
  case unblockProc place sent =>
    obtain ⟨server, rfl, thread, -⟩ := deliver_server sent
    exact .inr (.inl (by simp [rank, thread, clientRank, place]))
  case reads heap msgp server place read goes_on =>
    cases thread : s.server.thread with
    | header => exact .inr (.inl (by simp [rank, mainRank, place, thread, goes_on]))
    | body _ =>
        obtain header | exited := Server.read_of_body thread read
        · simp [goes_on] at header
        · simp [goes_on] at exited
    | exited => simp [Server.step, thread] at read
  case returns heap server place read done =>
    exact .inr (.inl (by cases thread : s.server.thread <;> simp [rank, mainRank, place, thread]))
  case fails heap server place read failed =>
    exact .inr (.inl (by cases thread : s.server.thread <;> simp [rank, mainRank, place, thread]))
  case pre result place =>
    by_cases failed : result < 0
    · exact .inr (.inl (by simp [rank, mainRank, place, failed]))
    · exact .inr (.inl
        (by cases thread : s.server.thread <;> simp [rank, mainRank, place, failed, thread]))
  case signal failed place =>
    obtain ⟨_, awake⟩ | ⟨_, awake⟩ := wake_cases s.client <;>
      grind [rank, clientRank, mainRank]
  all_goals grind [rank, clientRank, mainRank, Main.told]

def isRead : Label → Bool
  | .read _ => true
  | _ => false

theorem Unblocked.pays (h : Unblocked s) (taken : Thelper.step s l = some t) :
    (if isRead l then 1 else 0) + readsLeft t ≤ readsLeft s := by
  obtain ⟨shared, serving, client, exit, told, finished, message⟩ := h
  cases step_moves taken
  case send sent =>
    obtain ⟨server, rfl, thread, -⟩ := deliver_server sent
    simp [isRead, readsLeft, thread]
  case unblockProc place sent =>
    obtain ⟨server, rfl, thread, -⟩ := deliver_server sent
    simp [isRead, readsLeft, thread]
  case reads heap msgp server place read goes_on =>
    cases thread : s.server.thread with
    | header => simp [isRead, readsLeft, place, thread, goes_on]
    | body _ =>
        obtain header | exited := Server.read_of_body thread read
        · simp [goes_on] at header
        · simp [goes_on] at exited
    | exited => simp [Server.step, thread] at read
  case returns heap server place read done =>
    cases thread : s.server.thread <;> simp [isRead, readsLeft, place, thread]
  case fails heap server place read failed =>
    cases thread : s.server.thread <;> simp [isRead, readsLeft, place, thread]
  case pre result place =>
    by_cases failed : result < 0
    · simp [isRead, readsLeft, place, failed]
    · cases thread : s.server.thread <;> simp [isRead, readsLeft, place, failed, thread]
  all_goals grind [isRead, readsLeft, Main.told]

theorem readsLeft_le (s : Thelper) : readsLeft s ≤ 2 := by
  unfold readsLeft
  split <;> decide

theorem Unblocked.of_run {ls : List Label} (run : Run Thelper.step Thelper.initial ls s)
    (signalled : .spurious ∉ ls) (unblocked : s.client = .unblock) (present : s.main ≠ .absent) :
    Unblocked s := by
  have told := Told.of_run run signalled
  have serving : Shared s ∧ Serving s := run.invariant (I := fun s => Shared s ∧ Serving s)
    (fun _ _ _ h taken => ⟨h.1.step taken, h.2.step h.1 taken⟩) ⟨.initial, .initial⟩
  exact {
    shared := told.shared
    serving := serving.2
    client := .inl unblocked
    exit := told.unblocked unblocked
    told := (told.handed (.inr (.inl unblocked))).resolve_right present
    finished := fun joined => by simp [unblocked] at joined
    message := fun joining => by simp [unblocked] at joining }

end Shutdown

/-- The client has just set thread_exit, and a peer has left three bytes in the pipe. -/
def straying : Thelper :=
  ⟨true, true, none, .unblock, .proc, true, ⟨[8, 0, 0], .header, [], [[8, 0, 0]]⟩⟩

end Thelper

end Msm8974.DmnConn
