import Msm8974.Utils.MsgQ

/-!
MsgTask.cpp. Any thread may send a message; the task's own thread receives, processes and
deletes one after the other. destroy() unblocks the queue and gives up the thread, and what
deletes the task flushes and destroys the queue once the thread has left its loop.
-/

namespace Msm8974.Tasks
open Msm8974.Runs Msm8974.MsgQ

inductive DeallocFunc
  | locMsgDestroy
  deriving DecidableEq

/-- A call of sendMsg with its LocMsg. -/
abbrev Msg (L : Type) := Send L DeallocFunc

/-- Where the thread is in its loop around MsgTask::run. -/
inductive Loop (L : Type)
  | listening
  | received (msg : Msg L)
  | processed (msg : Msg L)
  | left

/-- The message that run() has in its hands. -/
def Loop.msg {L : Type} : Loop L → Option (Msg L)
  | .received msg | .processed msg => some msg
  | .listening | .left => none

structure MsgTask (L : Type) where
  mQ : World L DeallocFunc Unit
  thread : Loop L
  /-- Whether destroy() was called, and whether ~MsgTask has flushed the queue. -/
  destroying : Bool
  flushed : Bool
  /-- The messages whose proc ran, and those that run() deleted. -/
  processed : List (Msg L)
  deleted : List (Msg L)

namespace MsgTask
variable {L : Type}

def sendMsg (msg : L) (allocated : Bool) (t : MsgTask L) : MsgTask L :=
  let msg : Msg L := ⟨t.mQ.sends, msg, some .locMsgDestroy⟩
  let (rv, q) := snd t.mQ.q (some msg) (some .locMsgDestroy) allocated
  { t with
    mQ := { t.mQ with q := q, sends := t.mQ.sends + 1, log := t.mQ.log ++ [.snd (some msg) rv] } }

/-- run() once msg_q_rcv has returned; it returns false if there is no message. -/
def receive (result : Option (Received (Msg L) DeallocFunc)) (t : MsgTask L) : MsgTask L :=
  { t with
    mQ := t.mQ.finish () result
    thread :=
      match result with
      | none => .listening
      | some ⟨.success, some msg, _⟩ => .received msg
      | some _ => .left }

/-- ~MsgTask up to its call of msg_q_destroy. -/
def flush (t : MsgTask L) : MsgTask L :=
  let (_, calls, q) := MsgQ.flush t.mQ.q
  { t with mQ := t.mQ.empty calls q, flushed := true }

/-- Besides the senders and the steps of run(): the thread is told to stop, destroy() is
called, and ~MsgTask makes its two calls. -/
inductive Label (L : Type)
  | sendMsg (msg : L) (allocated : Bool)
  | receive
  | wake
  | proc
  | delete
  | stop
  | destroy
  | flush
  | destroyQueue

def step (t : MsgTask L) : Label L → Option (MsgTask L)
  | .sendMsg msg allocated => some (t.sendMsg msg allocated)
  | .receive =>
      match t.thread with
      | .listening =>
          if t.mQ.waiting () then none else some (t.receive (rcv t.mQ.q true))
      | _ => none
  | .wake =>
      match t.thread, t.mQ.q with
      | .listening, some q => if t.mQ.waiting () then some (t.receive (rcvLoop q)) else none
      | _, _ => none
  | .proc =>
      match t.thread with
      | .received msg => some { t with thread := .processed msg, processed := t.processed ++ [msg] }
      | _ => none
  | .delete =>
      match t.thread with
      | .processed msg => some { t with thread := .listening, deleted := t.deleted ++ [msg] }
      | _ => none
  | .stop =>
      match t.thread with
      | .listening =>
          if t.destroying ∧ t.mQ.waiting () = false then some { t with thread := .left } else none
      | _ => none
  | .destroy =>
      if t.destroying then none
      else
        let (rv, q) := unblock t.mQ.q
        some { t with
          mQ := { t.mQ with q := q, log := t.mQ.log ++ [.unblock rv] }
          destroying := true }
  | .flush =>
      match t.thread with
      | .left => if t.destroying ∧ t.flushed = false then some t.flush else none
      | _ => none
  | .destroyQueue =>
      match t.mQ.q with
      | some q =>
          if t.flushed then
            let (_, calls, q) := MsgQ.destroy q
            some { t with mQ := t.mQ.empty calls q }
          else none
      | none => none

/-- The steps by what they do. -/
inductive Takes (t : MsgTask L) : Label L → MsgTask L → Prop
  | sendMsg (msg : L) (allocated : Bool) :
      Takes t (.sendMsg msg allocated) (t.sendMsg msg allocated)
  | receive (idle : t.thread = .listening) (awake : ¬ t.mQ.waiting () = true) :
      Takes t .receive (t.receive (rcv t.mQ.q true))
  | wake (q : Queue (Msg L) DeallocFunc) (idle : t.thread = .listening) (here : t.mQ.q = some q)
      (waits : t.mQ.waiting () = true) : Takes t .wake (t.receive (rcvLoop q))
  | proc (msg : Msg L) (holding : t.thread = .received msg) :
      Takes t .proc { t with thread := .processed msg, processed := t.processed ++ [msg] }
  | delete (msg : Msg L) (holding : t.thread = .processed msg) :
      Takes t .delete { t with thread := .listening, deleted := t.deleted ++ [msg] }
  | stop (idle : t.thread = .listening) (told : t.destroying = true)
      (awake : t.mQ.waiting () = false) : Takes t .stop { t with thread := .left }
  | destroy (first : ¬ t.destroying = true) : Takes t .destroy
      { t with
        mQ := { t.mQ with
          q := (unblock t.mQ.q).2
          log := t.mQ.log ++ [.unblock (unblock t.mQ.q).1] }
        destroying := true }
  | flush (left : t.thread = .left) (told : t.destroying = true) (first : t.flushed = false) :
      Takes t .flush t.flush
  | destroyQueue (q : Queue (Msg L) DeallocFunc) (here : t.mQ.q = some q)
      (flushed : t.flushed = true) : Takes t .destroyQueue
        { t with mQ := t.mQ.empty (MsgQ.destroy q).2.1 (MsgQ.destroy q).2.2 }

theorem takes_of_step {t u : MsgTask L} {l : Label L} (taken : step t l = some u) :
    Takes t l u := by
  cases l with
  | sendMsg msg allocated => exact Option.some.inj taken ▸ .sendMsg msg allocated
  | receive =>
      simp only [step] at taken
      split at taken
      next idle =>
        simp only [Option.ite_none_left_eq_some, Option.some.injEq] at taken
        exact taken.2 ▸ .receive idle taken.1
      · cases taken
  | wake =>
      simp only [step] at taken
      split at taken
      next q idle here =>
        simp only [Option.ite_none_right_eq_some, Option.some.injEq] at taken
        exact taken.2 ▸ .wake q idle here taken.1
      · cases taken
  | proc =>
      simp only [step] at taken
      split at taken
      next msg holding => exact Option.some.inj taken ▸ .proc msg holding
      · cases taken
  | delete =>
      simp only [step] at taken
      split at taken
      next msg holding => exact Option.some.inj taken ▸ .delete msg holding
      · cases taken
  | stop =>
      simp only [step] at taken
      split at taken
      next idle =>
        simp only [Option.ite_none_right_eq_some, Option.some.injEq] at taken
        exact taken.2 ▸ .stop idle taken.1.1 taken.1.2
      · cases taken
  | destroy =>
      simp only [step, Option.ite_none_left_eq_some, Option.some.injEq] at taken
      exact taken.2 ▸ .destroy taken.1
  | flush =>
      simp only [step] at taken
      split at taken
      next left =>
        simp only [Option.ite_none_right_eq_some, Option.some.injEq] at taken
        exact taken.2 ▸ .flush left taken.1.1 taken.1.2
      · cases taken
  | destroyQueue =>
      simp only [step] at taken
      split at taken
      next q here =>
        simp only [Option.ite_none_right_eq_some, Option.some.injEq] at taken
        exact taken.2 ▸ .destroyQueue q here taken.1
      · cases taken

/-- The constructor, with a thread or without one if it could not be created. -/
structure IsInit (t : MsgTask L) : Prop where
  mQ : MsgQ.IsInit t.mQ
  thread : t.thread = .listening ∨ t.thread = .left
  flushed : t.flushed = false
  processed : t.processed = []
  deleted : t.deleted = []

end MsgTask
end Msm8974.Tasks
