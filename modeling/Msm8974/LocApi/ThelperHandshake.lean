import Msm8974.LocApi.Thelper

/-!
The handshake of launch_thelper. No wake-up is lost: the client tests both flags under the mutex
under which the thread sets thread_ready, so launch returns whenever there is a thread. What its
result says of the thread rests on pthread_cond_wait not waking up by itself, for the client does
not test the flags again.
-/

namespace Msm8974.DmnConn.Thelper
open Msm8974.Runs

/-- The client holds the mutex. -/
def Client.inside : Client → Bool
  | .test | .unlock => true
  | _ => false

/-- The thread holds the mutex. -/
def Main.inside : Main → Bool
  | .signal _ | .unlock _ => true
  | _ => false

def Main.signalled : Main → Bool
  | .absent | .init | .initFailed | .ready _ | .signal _ => false
  | _ => true

/-- What thread_proc_init has done, and that its failure is noted before the client is told. -/
def Main.Started (main : Main) (opened thread_exit : Bool) : Prop :=
  match main with
  | .absent | .init | .initFailed => opened = false
  | .ready failed | .signal failed | .unlock failed =>
      opened = !failed ∧ (failed = true → thread_exit = true)
  | .ended => opened = true ∨ thread_exit = true
  | _ => opened = true

/-- What the shared state says of the two parties. -/
structure Shared (s : Thelper) : Prop where
  client_holds : s.thread_mutex = some .client ↔ s.client.inside = true
  thread_holds : s.thread_mutex = some .thread ↔ s.main.inside = true
  holders : s.thread_mutex = none ∨ s.thread_mutex = some .client ∨ s.thread_mutex = some .thread
  ready : s.thread_ready = s.main.signalled
  waiting : s.client = .blocked → s.thread_ready = false
  unborn : s.client = .idle ∨ s.client = .create → s.main = .absent
  started : s.main.Started s.opened s.thread_exit
  answered : ∀ result, s.client = .launched result →
    result = 0 ∨ result = 1 ∧ s.thread_exit = true ∨ result = -1 ∧ s.main = .absent
  untouched : s.client = .create ∨ s.client = .lock → s.main = .absent → s.thread_exit = false

variable {s t : Thelper} {l : Label}

theorem Shared.initial : Shared initial where
  client_holds := by simp [Thelper.initial, Client.inside]
  thread_holds := by simp [Thelper.initial, Main.inside]
  holders := .inl rfl
  ready := rfl
  waiting := by simp [Thelper.initial]
  unborn := fun _ => rfl
  started := rfl
  answered := by simp [Thelper.initial]
  untouched := fun _ _ => rfl

/-- What a step can do, one case for each place where the two programs can stand. -/
inductive Moves (s : Thelper) : Label → Thelper → Prop
  | launch (place : s.client = .idle) :
      Moves s .launch { s with thread_exit := false, thread_ready := false, client := .create }
  | created (callback : Bool) (place : s.client = .create) :
      Moves s (.create callback true) { s with client := .lock, main := .init }
  | not_created (place : s.client = .create) :
      Moves s (.create false false) { s with client := .launched (-1) }
  | not_noticed (place : s.client = .create) :
      Moves s (.create true false) { s with client := .lock }
  | lock (place : s.client = .lock) (free : s.thread_mutex = none) :
      Moves s .client { s with thread_mutex := some .client, client := .test }
  | wait (place : s.client = .test) (unready : s.thread_ready = false)
      (running : s.thread_exit = false) :
      Moves s .client { s with thread_mutex := none, client := .blocked }
  | pass (place : s.client = .test) (told : s.thread_ready = true ∨ s.thread_exit = true) :
      Moves s .client { s with client := .unlock }
  | relock (place : s.client = .woken) (free : s.thread_mutex = none) :
      Moves s .client { s with thread_mutex := some .client, client := .unlock }
  | unlock (place : s.client = .unlock) :
      Moves s .client { s with thread_mutex := none, client := .answer }
  | answer (place : s.client = .answer) :
      Moves s .client { s with client := .launched (if s.thread_exit then 1 else 0) }
  | join (place : s.client = .join) (ended : s.main = .ended) :
      Moves s .client { s with client := .joined }
  | unblock (result : Int) (place : s.client = .launched result) :
      Moves s .unblock { s with thread_exit := true, client := .unblock }
  | unblockProc {cmsgbuf : Buffer} {t : Thelper} (place : s.client = .unblock)
      (sent : s.deliver (unblockMessage cmsgbuf) = some t) :
      Moves s (.unblockProc cmsgbuf) { t with client := .join }
  | initFails {result : Int} (place : s.main = .init) (failed : result < 0) :
      Moves s (.procInit result) { s with main := .initFailed }
  | init {result : Int} (place : s.main = .init) (done : 0 ≤ result) :
      Moves s (.procInit result) { s with opened := true, main := .ready false }
  | noteInit (place : s.main = .initFailed) :
      Moves s .thread { s with thread_exit := true, main := .ready true }
  | signalLock (failed : Bool) (place : s.main = .ready failed) (free : s.thread_mutex = none) :
      Moves s .thread { s with thread_mutex := some .thread, main := .signal failed }
  | signal (failed : Bool) (place : s.main = .signal failed) :
      Moves s .thread
        { s with thread_ready := true, client := wake s.client, main := .unlock failed }
  | signalUnlock (failed : Bool) (place : s.main = .unlock failed) :
      Moves s .thread { s with thread_mutex := none, main := if failed then .ended else .pre }
  | pre {result : Int} (place : s.main = .pre) :
      Moves s (.procPre result) { s with main := if result < 0 then .preFailed else .proc }
  | notePre (place : s.main = .preFailed) :
      Moves s .thread { s with thread_exit := true, main := .ended }
  | reads {heap msgp : Buffer} {server : Server} (place : s.main = .proc)
      (read : s.server.step (.read heap) = some server) (goes_on : server.thread = .body msgp) :
      Moves s (.read heap) { s with server }
  | returns {heap : Buffer} {server : Server} (place : s.main = .proc)
      (read : s.server.step (.read heap) = some server) (done : server.thread = .header) :
      Moves s (.read heap) { s with server, main := .test }
  | fails {heap : Buffer} {server : Server} (place : s.main = .proc)
      (read : s.server.step (.read heap) = some server) (failed : server.thread = .exited) :
      Moves s (.read heap) { s with server, main := .procFailed }
  | noteProc (place : s.main = .procFailed) :
      Moves s .thread { s with thread_exit := true, main := .test }
  | test (place : s.main = .test) :
      Moves s .thread { s with main := if s.thread_exit then .post else .proc }
  | post (place : s.main = .post) : Moves s .thread { s with main := .ended }
  | spurious (place : s.client = .blocked) : Moves s .spurious { s with client := .woken }
  | send {msg : List UInt8} {t : Thelper} (sent : s.deliver msg = some t) : Moves s (.send msg) t

theorem step_moves (taken : step s l = some t) : Moves s l t := by
  cases l with
  | launch => grind [Thelper.step, Moves]
  | create callback made => grind [Thelper.step, Moves]
  | client => grind [Thelper.step, clientStep, Moves]
  | unblock => grind [Thelper.step, Moves]
  | unblockProc cmsgbuf =>
      simp only [Thelper.step] at taken
      split at taken
      case h_1 place =>
        obtain ⟨u, sent, taken⟩ := Option.bind_eq_some_iff.mp taken
        obtain rfl := Option.some.inj taken
        exact .unblockProc place sent
      case h_2 => cases taken
  | procInit result => grind [Thelper.step, Moves]
  | procPre result => grind [Thelper.step, Moves]
  | read heap =>
      simp only [Thelper.step] at taken
      split at taken
      case h_1 place =>
        obtain ⟨server, read, taken⟩ := Option.bind_eq_some_iff.mp taken
        split at taken
        case h_1 goes_on =>
          obtain rfl := Option.some.inj taken
          exact .reads place read goes_on
        case h_2 done =>
          obtain rfl := Option.some.inj taken
          exact .returns place read done
        case h_3 failed =>
          obtain rfl := Option.some.inj taken
          exact .fails place read failed
      case h_2 => cases taken
  | thread => grind [Thelper.step, threadStep, Moves]
  | spurious => grind [Thelper.step, Moves]
  | send msg => exact .send taken

theorem deliver_fields {msg : List UInt8} (sent : s.deliver msg = some t) :
    ∃ server, t = { s with server } := by
  rw [deliver] at sent
  split at sent
  · obtain ⟨server, -, sent⟩ := Option.bind_eq_some_iff.mp sent
    exact ⟨server, (Option.some.inj sent).symm⟩
  · exact ⟨s.server, (Option.some.inj sent).symm⟩

/-- A signal reaches a client that waits. -/
theorem wake_cases (client : Client) :
    client = .blocked ∧ wake client = .woken ∨ client ≠ .blocked ∧ wake client = client := by
  cases client <;> simp [wake]

theorem Main.Started.exit {main : Main} {opened thread_exit : Bool}
    (h : main.Started opened thread_exit) : main.Started opened true := by
  cases main <;> simp_all [Main.Started]

theorem Shared.step (h : Shared s) (taken : step s l = some t) : Shared t := by
  obtain ⟨client_holds, thread_holds, holders, ready, waiting, unborn, started, answered,
    untouched⟩ := h
  cases step_moves taken
  case unblockProc place sent =>
    obtain ⟨server, rfl⟩ := deliver_fields sent
    constructor <;> grind [Client.inside]
  case send sent =>
    obtain ⟨server, rfl⟩ := deliver_fields sent
    constructor <;> assumption
  case signal failed place =>
    obtain ⟨_, awake⟩ | ⟨_, awake⟩ := wake_cases s.client <;> constructor <;>
      grind [Client.inside, Main.inside, Main.signalled, Main.Started]
  all_goals
    constructor <;>
      grind [Client.inside, Main.inside, Main.signalled, Main.Started, Main.Started.exit]

theorem Shared.of_run {ls : List Label} (run : Run Thelper.step Thelper.initial ls s) :
    Shared s :=
  run.invariant (fun _ _ _ h taken => h.step taken) .initial

/-- The thread has signalled, or has failed and is about to signal. -/
def Main.told : Main → Bool
  | .absent | .init | .initFailed | .ready false | .signal false => false
  | _ => true

theorem Main.told_of_signalled {main : Main} (signalled : main.signalled = true) :
    main.told = true := by
  cases main <;> grind [Main.told, Main.signalled]

/-- What the client knows of the thread when pthread_cond_wait returns on a signal only. -/
structure Told (s : Thelper) : Prop where
  shared : Shared s
  woken : s.client = .woken → s.thread_ready = true
  passed : s.client = .unlock ∨ s.client = .answer → s.thread_ready = true ∨ s.thread_exit = true
  succeeded : s.client = .launched 0 → s.thread_ready = true ∧ s.opened = true
  noted : s.thread_exit = true → s.main.told = true ∨
    s.client = .unblock ∨ s.client = .join ∨ s.client = .joined
  handed : (∃ result, s.client = .launched result) ∨ s.client = .unblock ∨ s.client = .join ∨
    s.client = .joined → s.main.told = true ∨ s.main = .absent
  unblocked : s.client = .unblock → s.thread_exit = true

theorem Told.initial : Told initial :=
  ⟨.initial, by simp [Thelper.initial], by simp [Thelper.initial], by simp [Thelper.initial],
    by simp [Thelper.initial], by simp [Thelper.initial], by simp [Thelper.initial]⟩

theorem Shared.opened (h : Shared s) (ready : s.thread_ready = true)
    (running : s.thread_exit = false) : s.opened = true := by
  have signalled := h.ready.symm.trans ready
  have started := h.started
  cases place : s.main <;> grind [Main.signalled, Main.Started]

section ToldStep
variable (h : Told s) (signalled : l ≠ .spurious) (taken : step s l = some t)
include h signalled taken

/-- What holds of the client after a step. -/
theorem Told.client_step : (t.client = .woken → t.thread_ready = true) ∧
    (t.client = .unlock ∨ t.client = .answer → t.thread_ready = true ∨ t.thread_exit = true) ∧
    (t.client = .launched 0 → t.thread_ready = true ∧ t.opened = true) ∧
    (t.client = .unblock → t.thread_exit = true) := by
  have opened := h.shared.opened
  obtain ⟨-, woken, passed, succeeded, -, -, unblocked⟩ := h
  cases step_moves taken
  case spurious => exact (signalled rfl).elim
  case unblockProc place sent =>
    obtain ⟨server, rfl⟩ := deliver_fields sent
    simp
  case send sent =>
    obtain ⟨server, rfl⟩ := deliver_fields sent
    exact ⟨woken, passed, succeeded, unblocked⟩
  case signal failed place =>
    obtain ⟨_, awake⟩ | ⟨_, awake⟩ := wake_cases s.client <;> grind
  all_goals grind

/-- What holds of the thread after a step. -/
theorem Told.main_step : (t.thread_exit = true → t.main.told = true ∨
      t.client = .unblock ∨ t.client = .join ∨ t.client = .joined) ∧
    ((∃ result, t.client = .launched result) ∨ t.client = .unblock ∨ t.client = .join ∨
      t.client = .joined → t.main.told = true ∨ t.main = .absent) := by
  have unborn := h.shared.unborn
  have signals : s.thread_ready = true → s.main.told = true := fun ready =>
    Main.told_of_signalled (h.shared.ready.symm.trans ready)
  obtain ⟨-, woken, passed, succeeded, noted, handed, unblocked⟩ := h
  cases step_moves taken
  case spurious => exact (signalled rfl).elim
  case unblockProc place sent =>
    obtain ⟨server, rfl⟩ := deliver_fields sent
    grind
  case send sent =>
    obtain ⟨server, rfl⟩ := deliver_fields sent
    exact ⟨noted, handed⟩
  case signal failed place =>
    obtain ⟨_, awake⟩ | ⟨_, awake⟩ := wake_cases s.client <;> grind [Main.told]
  all_goals grind [Main.told]

theorem Told.step : Told t := by
  obtain ⟨woken, passed, succeeded, unblocked⟩ := h.client_step signalled taken
  obtain ⟨noted, handed⟩ := h.main_step signalled taken
  exact ⟨h.shared.step taken, woken, passed, succeeded, noted, handed, unblocked⟩

end ToldStep

theorem Told.of_run {ls : List Label} (run : Run Thelper.step Thelper.initial ls s)
    (signalled : .spurious ∉ ls) : Told s :=
  run.invariant_of_meets (fun _ _ _ h admitted taken => h.step admitted taken)
    (meets_of_forall_mem fun _ mem _ => ne_of_mem_of_not_mem mem signalled) .initial

/-- launch_thelper returns 0 for a thread that has initialised and said so, as long as
pthread_cond_wait does not wake up by itself; the failure of a thread is reported as 1, which is
thread_exit, and -1 is only returned when there is no thread. One spurious wake-up is enough for a
success that is reported before thread_proc_init has run. -/
theorem launch_result {ls : List Label} (run : Run step Thelper.initial ls s) :
    (∀ result, s.client = .launched result →
      result = 0 ∨ result = 1 ∧ s.thread_exit = true ∨ result = -1 ∧ s.main = .absent) ∧
    (.spurious ∉ ls → s.client = .launched 0 → s.thread_ready = true ∧ s.opened = true) ∧
    ∃ ks t, Run step Thelper.initial ks t ∧ t.client = .launched 0 ∧ t.main = .init := by
  refine ⟨(Shared.of_run run).answered, fun signalled => ?_, ?_⟩
  · exact (Told.of_run run signalled).succeeded
  · refine ⟨[.launch, .create false true, .client, .client, .spurious, .client, .client, .client],
      ⟨false, false, none, .launched 0, .init, false, .initial⟩, ?_, rfl, rfl⟩
    exact run_iff_foldlM.mpr rfl

theorem launch_result_when_ready : ∃ s, Run step Thelper.initial [.launch, .create false true,
      .procInit 0, .client, .client, .thread, .thread, .thread, .client, .client, .client] s ∧
    s.client = .launched 0 ∧ s.thread_ready = true ∧ s.opened = true := by
  obtain ⟨s, run, launched⟩ : ∃ s, Run step Thelper.initial [.launch, .create false true,
      .procInit 0, .client, .client, .thread, .thread, .thread, .client, .client, .client] s ∧
    s.client = .launched 0 := ⟨_, run_iff_foldlM.mpr rfl, rfl⟩
  exact ⟨s, run, launched, (launch_result run).2.1 (by simp) launched⟩

/-- The client is inside launch_thelper and has tried to create the thread. -/
def Client.launching : Client → Bool
  | .lock | .test | .blocked | .woken | .unlock | .answer => true
  | _ => false

namespace Launch

def clientRank : Client → Nat
  | .lock => 6
  | .test => 5
  | .blocked => 4
  | .woken => 3
  | .unlock => 2
  | .answer => 1
  | _ => 0

def mainRank : Main → Nat
  | .init => 5
  | .initFailed => 4
  | .ready _ => 3
  | .signal _ => 2
  | .unlock _ => 1
  | _ => 0

def rank (s : Thelper) : Nat := clientRank s.client + mainRank s.main

/-- The client waits for a signal, or for the mutex that the thread holds. -/
def Waits (s : Thelper) : Prop :=
  s.client = .blocked ∨ (s.client = .lock ∨ s.client = .woken) ∧ s.thread_mutex ≠ none

open Classical in
/-- Who brings launch_thelper forward. -/
noncomputable def helpful (s : Thelper) : Party := if Waits s then .thread else .client

/-- launch_thelper is under way and there is a thread. -/
structure Going (s : Thelper) : Prop where
  shared : Shared s
  thread : s.main ≠ .absent
  client : s.client.launching = true ∨ ∃ result, s.client = .launched result

theorem Going.moves (h : Going s) (open_ : ¬ ∃ result, s.client = .launched result) :
    CanMove step Label.party (helpful s) s := by
  have launching := h.client.resolve_right open_
  obtain ⟨client_holds, thread_holds, holders, ready, waiting, -, -, -, -⟩ := h.shared
  by_cases waits : Waits s
  · rw [helpful, if_pos waits]
    -- the thread has not signalled, or is about to release the mutex
    have ahead : s.main = .init ∨ s.main = .initFailed ∨
        (∃ failed, s.main = .ready failed ∧ s.thread_mutex = none) ∨
        (∃ failed, s.main = .signal failed) ∨ ∃ failed, s.main = .unlock failed := by
      have present := h.thread
      rcases waits with blocked | ⟨taking, held⟩
      · cases place : s.main <;> grind [Main.signalled, Main.inside, Client.inside]
      · cases place : s.main <;> grind [Main.inside, Client.inside]
    rcases ahead with place | place | ⟨failed, place, free⟩ | ⟨failed, place⟩ | ⟨failed, place⟩
    · exact ⟨.procInit 0, rfl, by simp [Thelper.step, place]⟩
    · exact ⟨.thread, rfl, by simp [Thelper.step, threadStep, place]⟩
    · exact ⟨.thread, rfl, by simp [Thelper.step, threadStep, place, free]⟩
    · exact ⟨.thread, rfl, by simp [Thelper.step, threadStep, place]⟩
    · exact ⟨.thread, rfl, by simp [Thelper.step, threadStep, place]⟩
  · rw [helpful, if_neg waits]
    refine ⟨.client, rfl, ?_⟩
    simp only [Waits, not_or, not_and, not_not] at waits
    cases place : s.client <;> grind [Thelper.step, clientStep, Client.launching]

theorem Going.progress (h : Going s) (open_ : ¬ ∃ result, s.client = .launched result)
    (taken : step s l = some t) : (∃ result, t.client = .launched result) ∨ rank t < rank s ∨
      rank t = rank s ∧ helpful t = helpful s ∧ l.party ≠ helpful s := by
  have launching := h.client.resolve_right open_
  have present := h.thread
  obtain ⟨client_holds, thread_holds, holders, ready, waiting, -, -, -, -⟩ := h.shared
  cases step_moves taken
  case send sent =>
    obtain ⟨server, rfl⟩ := deliver_fields sent
    exact .inr (.inr ⟨rfl, rfl, by unfold helpful; split <;> simp [Label.party]⟩)
  case signal failed place =>
    obtain ⟨_, awake⟩ | ⟨_, awake⟩ := wake_cases s.client <;> grind [rank, clientRank, mainRank]
  all_goals
    grind [rank, clientRank, mainRank, helpful, Waits, Label.party, Client.launching,
      Client.inside, Main.inside, Main.signalled]

theorem Going.step (h : Going s) (open_ : ¬ ∃ result, s.client = .launched result)
    (taken : step s l = some t) : Going t := by
  have shared := h.shared.step taken
  have launching := h.client.resolve_right open_
  have present := h.thread
  refine ⟨shared, ?_, ?_⟩
  · cases step_moves taken
    case send sent =>
      obtain ⟨server, rfl⟩ := deliver_fields sent
      exact present
    all_goals grind [Client.launching]
  · cases step_moves taken
    case send sent =>
      obtain ⟨server, rfl⟩ := deliver_fields sent
      exact .inl launching
    case signal failed place =>
      obtain ⟨_, awake⟩ | ⟨_, awake⟩ := wake_cases s.client <;> grind [Client.launching]
    all_goals grind [Client.launching]

/-- The callback made no thread, and nobody will signal. -/
structure Abandoned (s : Thelper) : Prop where
  thread : s.main = .absent
  client : s.client = .lock ∨ s.client = .test ∨ s.client = .blocked
  unready : s.thread_ready = false
  running : s.thread_exit = false

theorem Abandoned.step (h : Abandoned s) (signalled : l ≠ .spurious)
    (taken : step s l = some t) : Abandoned t := by
  obtain ⟨thread, client, unready, running⟩ := h
  cases step_moves taken
  case send sent =>
    obtain ⟨server, rfl⟩ := deliver_fields sent
    exact ⟨thread, client, unready, running⟩
  all_goals constructor <;> grind

end Launch

/-- Once the thread is created, launch_thelper returns in every execution that is fair to the
client and the thread, however their steps interleave and whether or not pthread_cond_wait wakes
up by itself: no signal is lost. A create_thread_cb that makes no thread is not noticed, and then
launch_thelper does not return unless pthread_cond_wait does by itself. -/
theorem launch_returns (e : Execution step) {ls : List Label}
    (before : Run step Thelper.initial ls (e.state 0))
    (client : e.Fair Label.party .client) (thread : e.Fair Label.party .thread) :
    ((e.state 0).client.launching = true → (e.state 0).main ≠ .absent →
      ∃ n result, (e.state n).client = .launched result) ∧
    ((e.state 0).client = .lock → (e.state 0).main = .absent →
      (∀ n, e.label n ≠ some .spurious) → ∀ n result, (e.state n).client ≠ .launched result) := by
  constructor
  · intro launching present
    have fair (s : Thelper) : e.Fair Label.party (Launch.helpful s) := by
      rw [Launch.helpful]
      split
      · exact thread
      · exact client
    have going : Launch.Going (e.state 0) := ⟨.of_run before, present, .inl launching⟩
    obtain ⟨n, -, returned⟩ := e.eventually_of_rank Launch.rank Launch.helpful
      (fun _ _ _ h open_ taken => h.step open_ taken) (fun _ h open_ => h.moves open_)
      (fun _ _ _ h open_ taken => h.progress open_ taken) fair going
    exact ⟨n, returned⟩
  · intro waits absent signalled n result returned
    have abandoned : Launch.Abandoned (e.state n) := by
      clear returned
      induction n with
      | zero =>
          have shared := Shared.of_run before
          exact ⟨absent, .inl waits, by rw [shared.ready, absent]; rfl,
            shared.untouched (.inr waits) absent⟩
      | succ n ih =>
          cases moved : e.label n with
          | none => rwa [e.idle moved]
          | some l =>
              exact ih.step (fun spurious => signalled n (spurious ▸ moved)) (e.taken moved)
    rcases abandoned.client with place | place | place <;> rw [place] at returned <;>
      cases returned

/-- A client that has joined and a thread that has ended have nothing left to do. -/
theorem not_canMove_of_joined (joined : s.client = .joined) (ended : s.main = .ended)
    {p : Party} (either : p = .client ∨ p = .thread) : ¬ CanMove step Label.party p s := by
  rintro ⟨l, rfl, moved⟩
  cases l <;> simp_all [Label.party, Thelper.step, clientStep, threadStep]

/-- From the creation of a thread whose thread_proc_pre fails to its end. -/
def shortLife : List Label :=
  [.procInit 0, .client, .client, .thread, .thread, .thread, .client, .client, .client,
    .procPre (-1), .thread, .unblock, .unblockProc fun _ => 0, .client]

theorem launch_returns_to_a_short_life :
    ∃ e : Execution step, (e.state 0).client = .lock ∧ (e.state 0).main = .init ∧
      ∃ n result, (e.state n).client = .launched result := by
  have before : Run step Thelper.initial [.launch, .create false true]
      ⟨false, false, none, .lock, .init, false, .initial⟩ := run_iff_foldlM.mpr rfl
  have life : Run step ⟨false, false, none, .lock, .init, false, .initial⟩ shortLife
      ⟨true, true, none, .joined, .ended, true, ⟨unblockMessage fun _ => 0, .header, [],
        [unblockMessage fun _ => 0]⟩⟩ := run_iff_foldlM.mpr rfl
  obtain ⟨e, start, still, -⟩ := life.exists_execution
  have client := Execution.fair_of_blocked still (not_canMove_of_joined rfl rfl (.inl rfl))
  have thread := Execution.fair_of_blocked still (not_canMove_of_joined rfl rfl (.inr rfl))
  refine ⟨e, by rw [start], by rw [start], ?_⟩
  exact (launch_returns e (start ▸ before) client thread).1 (by rw [start]; rfl)
    (by rw [start]; simp)

end Msm8974.DmnConn.Thelper
