import Msm8974.LocApi.DmnConnFraming
import Msm8974.LocApi.DmnConnHandler
import Msm8974.Library.Fairness

/-!
The thread helper under the daemon connection: a client launches the server thread, waits until it
is ready, later unblocks and joins it. The two share thread_exit, thread_ready, a mutex and a
condition variable; thread_exit is also written and read outside the mutex. pthread_cond_wait may
wake up without a signal. The thread's thread_proc is loc_api_server_proc.
-/

namespace Msm8974.DmnConn

/-- sizeof(struct ctrl_msgbuf) -/
def CTRL_MSGBUF_SIZE : BitVec 32 := 112

/-- The message of loc_eng_dmn_conn_unblock_proc, whose other fields are not initialised. -/
def unblockMessage (cmsgbuf : Buffer) : List UInt8 :=
  sentBytes (cmsgbuf.store 12 [GPSONE_UNBLOCK]) CTRL_MSGBUF_SIZE

namespace Thelper

inductive Party where
  | client
  | thread
  | system
  | peer
  deriving DecidableEq

/-- The next thing that the client does. -/
inductive Client where
  | idle
  /-- in launch_thelper, before the thread is created -/
  | create
  /-- in thelper_signal_wait: pthread_mutex_lock -/
  | lock
  | test
  /-- in pthread_cond_wait, which has released the mutex -/
  | blocked
  /-- pthread_cond_wait takes the mutex again -/
  | woken
  | unlock
  /-- return thelper->thread_exit, without the mutex -/
  | answer
  | launched (result : Int)
  /-- after unblock_thelper, before unblock_proc -/
  | unblock
  | join
  | joined

/-- The next thing that thelper_main does. -/
inductive Main where
  | absent
  | init
  /-- sets thread_exit after a failure of thread_proc_init -/
  | initFailed
  /-- in thelper_signal_ready: pthread_mutex_lock -/
  | ready (failed : Bool)
  | signal (failed : Bool)
  | unlock (failed : Bool)
  | pre
  | preFailed
  | proc
  | procFailed
  /-- while (thelper->thread_exit == 0) -/
  | test
  | post
  | ended

end Thelper

open Thelper in
structure Thelper where
  thread_exit : Bool
  thread_ready : Bool
  thread_mutex : Option Party
  client : Client
  main : Main
  /-- thread_proc_init has opened the pipe. -/
  opened : Bool
  /-- The pipe and the progress of thread_proc. -/
  server : Server

namespace Thelper

def initial : Thelper := ⟨false, false, none, .idle, .absent, false, .initial⟩

inductive Label where
  | launch
  /-- The thread is created by the callback, whose result is not looked at, or by
  pthread_create; `made` tells if there is a thread. -/
  | create (create_thread_cb made : Bool)
  | client
  | unblock
  | unblockProc (cmsgbuf : Buffer)
  | procInit (result : Int)
  | procPre (result : Int)
  | read (heap : Buffer)
  | thread
  | spurious
  | send (msg : List UInt8)

def Label.party : Label → Party
  | .launch | .create .. | .client | .unblock | .unblockProc _ => .client
  | .procInit _ | .procPre _ | .read _ | .thread => .thread
  | .spurious => .system
  | .send _ => .peer

/-- The steps of the client inside launch_thelper and join_thelper. The result of
thelper_signal_wait is dropped. -/
def clientStep (s : Thelper) : Option Thelper :=
  match s.client with
  | .lock =>
      if s.thread_mutex = none then some { s with thread_mutex := some .client, client := .test }
      else none
  | .test =>
      if !s.thread_ready && !s.thread_exit then
        some { s with thread_mutex := none, client := .blocked }
      else some { s with client := .unlock }
  | .woken =>
      if s.thread_mutex = none then some { s with thread_mutex := some .client, client := .unlock }
      else none
  | .unlock => some { s with thread_mutex := none, client := .answer }
  | .answer => some { s with client := .launched (if s.thread_exit then 1 else 0) }
  | .join =>
      match s.main with
      | .ended => some { s with client := .joined }
      | _ => none
  | _ => none

/-- pthread_cond_signal -/
def wake : Client → Client
  | .blocked => .woken
  | client => client

/-- The steps of thelper_main between the callbacks. -/
def threadStep (s : Thelper) : Option Thelper :=
  match s.main with
  | .initFailed => some { s with thread_exit := true, main := .ready true }
  | .ready failed =>
      if s.thread_mutex = none then
        some { s with thread_mutex := some .thread, main := .signal failed }
      else none
  | .signal failed =>
      some { s with thread_ready := true, client := wake s.client, main := .unlock failed }
  | .unlock failed =>
      some { s with thread_mutex := none, main := if failed then .ended else .pre }
  | .preFailed => some { s with thread_exit := true, main := .ended }
  | .procFailed => some { s with thread_exit := true, main := .test }
  | .test => some { s with main := if s.thread_exit then .post else .proc }
  | .post => some { s with main := .ended }
  | .absent | .init | .pre | .proc | .ended => none

/-- One read of thread_proc. It returns with its message, or fails. -/
def procRead (s : Thelper) (heap : Buffer) : Option Thelper := do
  let server ← s.server.step (.read heap)
  match server.thread with
  | .body _ => some { s with server }
  | .header => some { s with server, main := .test }
  | .exited => some { s with server, main := .procFailed }

/-- What is written to the pipe. Before it is opened the descriptor belongs to another file. -/
def deliver (s : Thelper) (msg : List UInt8) : Option Thelper :=
  if s.opened then do
    let server ← s.server.step (.send msg)
    some { s with server }
  else some s

def step (s : Thelper) : Label → Option Thelper
  | .launch =>
      match s.client with
      | .idle => some { s with thread_exit := false, thread_ready := false, client := .create }
      | _ => none
  | .create create_thread_cb made =>
      match s.client with
      | .create =>
          if made then some { s with client := .lock, main := .init }
          else if create_thread_cb then some { s with client := .lock }
          else some { s with client := .launched (-1) }
      | _ => none
  | .client => s.clientStep
  | .unblock =>
      match s.client with
      | .launched _ => some { s with thread_exit := true, client := .unblock }
      | _ => none
  | .unblockProc cmsgbuf =>
      match s.client with
      | .unblock => do
          let s ← s.deliver (unblockMessage cmsgbuf)
          some { s with client := .join }
      | _ => none
  | .procInit result =>
      match s.main with
      | .init =>
          if result < 0 then some { s with main := .initFailed }
          else some { s with opened := true, main := .ready false }
      | _ => none
  | .procPre result =>
      match s.main with
      | .pre => some { s with main := if result < 0 then .preFailed else .proc }
      | _ => none
  | .read heap =>
      match s.main with
      | .proc => s.procRead heap
      | _ => none
  | .thread => s.threadStep
  | .spurious =>
      match s.client with
      | .blocked => some { s with client := .woken }
      | _ => none
  | .send msg => s.deliver msg

end Thelper

end Msm8974.DmnConn
