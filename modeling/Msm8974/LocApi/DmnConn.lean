import Mathlib.Algebra.GroupWithZero.Nat
import Msm8974.Library.Runs

/-!
The daemon connection: peers write messages to the loc_api_server pipe, and the server thread
runs loc_api_server_proc in the loop of thelper_main. A size_t has 32 bits, least significant
byte first. One step of the thread is one read of msgrcv, which blocks while the pipe is empty.
-/

namespace Msm8974.DmnConn

/-- The bytes of a ctrl_msgbuf and of what lies behind it, by their offsets. -/
abbrev Buffer := Nat → UInt8

namespace Buffer

def word (msgp : Buffer) (pos : Nat) : BitVec 32 :=
  BitVec.ofNat 32 ((msgp pos).toNat + 2 ^ 8 * (msgp (pos + 1)).toNat +
    2 ^ 16 * (msgp (pos + 2)).toNat + 2 ^ 24 * (msgp (pos + 3)).toNat)

def msgsz (msgp : Buffer) : BitVec 32 := msgp.word 0

def store (msgp : Buffer) (pos : Nat) (bytes : List UInt8) : Buffer := fun i =>
  if pos ≤ i then bytes[i - pos]?.getD (msgp i) else msgp i

end Buffer

/-- sizeof(struct ctrl_msgbuf) + 256 -/
def SERVER_BUFSZ : BitVec 32 := 112 + 256

/-- What read() gives: an error, or the bytes it took. -/
inductive PipeRead where
  | error
  | bytes (taken : List UInt8)

namespace PipeRead

def result : PipeRead → Int
  | .error => -1
  | .bytes taken => taken.length

def taken : PipeRead → List UInt8
  | .error => []
  | .bytes taken => taken

end PipeRead

/-- A read of `sz` bytes and what stays in the pipe. More than INT_MAX bytes cannot be asked for. -/
def piperead (pipe : List UInt8) (sz : BitVec 32) : Option (PipeRead × List UInt8) :=
  if sz.toInt < 0 then some (.error, pipe)
  else if sz = 0 then some (.bytes [], pipe)
  else if pipe = [] then none
  else some (.bytes (pipe.take sz.toNat), pipe.drop sz.toNat)

/-- The first read of msgrcv and the checks after it, which fail without a second read. -/
def msgrcvHeader (msgbufsz : BitVec 32) (header : PipeRead) (msgp : Buffer) : Option Buffer :=
  let msgp := msgp.store 0 header.taken
  if header.result ≠ 4 then none
  else if msgbufsz < msgp.msgsz then none
  else some msgp

/-- The second read of msgrcv, the buffer after it and the result. -/
def msgrcvBody (body : PipeRead) (msgp : Buffer) : Buffer × Int :=
  let msgp := msgp.store 4 body.taken
  (msgp, if body.result ≠ (msgp.msgsz - 4).toInt then -1 else msgp.msgsz.toInt)

/-- What loc_api_server_proc dispatches on. -/
structure Received where
  p_cmsgbuf : Buffer
  length : Nat

/-- The bytes that really came from the pipe. -/
def Received.bytes (r : Received) : List UInt8 := (List.range r.length).map r.p_cmsgbuf

inductive Thread where
  | header
  | body (msgp : Buffer)
  | exited

structure Server where
  pipe : List UInt8
  thread : Thread
  handled : List Received
  /-- Every message that was written, in order. -/
  sent : List (List UInt8)

namespace Server

def initial : Server := ⟨[], .header, [], []⟩

/-- The loop condition of thelper_main after a call of thread_proc. -/
def thelperMain (s : Server) (result : Int) : Server :=
  if result < 0 then { s with thread := .exited } else { s with thread := .header }

inductive Label where
  | send (msg : List UInt8)
  /-- The next read of the thread; `heap` is what malloc() returns for a new message. -/
  | read (heap : Buffer)

def step (s : Server) : Label → Option Server
  | .send msg => some { s with pipe := s.pipe ++ msg, sent := s.sent ++ [msg] }
  | .read heap =>
      match s.thread with
      | .header => do
          let (header, pipe) ← piperead s.pipe 4
          match msgrcvHeader SERVER_BUFSZ header heap with
          | none => some (thelperMain { s with pipe } (-1))
          | some msgp => some { s with pipe, thread := .body msgp }
      | .body msgp => do
          let (body, pipe) ← piperead s.pipe (msgp.msgsz - 4)
          let (msgp, length) := msgrcvBody body msgp
          if length ≤ 0 then some (thelperMain { s with pipe } (-1))
          else some (thelperMain { s with pipe, handled := s.handled ++ [⟨msgp, length.toNat⟩] } 0)
      | .exited => none

end Server

end Msm8974.DmnConn
