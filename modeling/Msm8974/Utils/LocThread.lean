import Msm8974.Library.Runs

/-!
LocThread.cpp: one LocThreadDelegate, the thread that creates it and the thread it spawns. The
creating thread is in LocThread::start(), holds the delegate, or is on its way out through stop()
or ~LocThread(); if start() returned false, it deletes the runnable itself, as LocThread.h asks of
it. Each step of either thread is one access to a shared member or one call of the runnable.
-/

namespace Msm8974.LocThread

/-- Where the creating thread is. -/
inductive Creator
  /-- Before the constructor of the delegate comes to create the thread. -/
  | constructing
  /-- Before the isRunning() check of create(). -/
  | checking
  /-- Before the destroy() of create(). -/
  | dropping
  /-- start() has returned false. -/
  | refused
  /-- start() has returned true. -/
  | holding
  /-- In the pthread_join() of stop(). -/
  | joining
  /-- Before the destroy() of stop() or bye(). -/
  | leaving
  | gone
  deriving DecidableEq, Repr

/-- Where the spawned thread is: what threadMain does next. -/
inductive Spawned
  | absent
  /-- Before it reads its runnable. -/
  | entry
  | prerunCheck
  | prerun
  | loopCheck
  | run
  | postrunCheck
  | postrun
  /-- Before it nulls mRunnable. -/
  | nulling
  /-- Before `delete runnable`. -/
  | deleting
  | destroying
  | returned
  deriving DecidableEq, Repr

/-- `touchedDeleted` notes a member that was read or written after the deletion. -/
structure Delegate where
  /-- mRunnable is not NULL. -/
  mRunnable : Bool
  mJoinable : Bool
  mRefCount : Int
  deleted : Nat
  touchedDeleted : Bool
  deriving DecidableEq, Repr

structure State where
  creator : Creator
  spawned : Spawned
  delegate : Delegate
  /-- How often the runnable was deleted. -/
  runnableDeleted : Nat
  /-- Whether the thread was created, once that is known. -/
  created : Option Bool
  /-- What create() returned: whether the delegate is not NULL. -/
  result : Option Bool
  deriving DecidableEq, Repr

namespace Delegate

def access (d : Delegate) : Delegate :=
  { d with touchedDeleted := d.touchedDeleted || d.deleted != 0 }

/-- The decrement of mRefCount and `delete this` on the last one. -/
def destroy (d : Delegate) : Delegate :=
  let d := d.access
  if 0 < d.mRefCount then
    { d with
      mRefCount := d.mRefCount - 1
      deleted := if d.mRefCount = 1 then d.deleted + 1 else d.deleted }
  else d

end Delegate

namespace State

def initial (joinable : Bool) : State where
  creator := .constructing
  spawned := .absent
  delegate := { mRunnable := true, mJoinable := joinable, mRefCount := 2, deleted := 0,
                touchedDeleted := false }
  runnableDeleted := 0
  created := none
  result := none

/-- The rest of the constructor: upon failure the members are set to indicate it. -/
def construct (created : Bool) (s : State) : State :=
  if created then { s with creator := .checking, spawned := .entry, created := some true }
  else
    { s with
      creator := .checking
      created := some false
      delegate := { s.delegate with mRunnable := false, mJoinable := false, mRefCount := 1 } }

/-- The isRunning() check of create(), with what create() then returns. -/
def create (s : State) : State :=
  let s := { s with delegate := s.delegate.access }
  if s.delegate.mRunnable then { s with creator := .holding, result := some true }
  else { s with creator := .dropping, result := some false }

/-- stop() up to its pthread_join(). -/
def stop (s : State) : State :=
  let delegate := { s.delegate.access with mRunnable := false }
  if delegate.mJoinable then
    { s with creator := .joining, delegate := { delegate with mJoinable := false } }
  else { s with creator := .leaving, delegate }

def bye (s : State) : State :=
  if s.delegate.mJoinable then s.stop
  else { s with creator := .leaving, delegate := s.delegate.access }

/-- isRunning() in the spawned thread. -/
def isRunning (yes no : Spawned) (s : State) : State :=
  { s with spawned := if s.delegate.mRunnable then yes else no, delegate := s.delegate.access }

/-- The next step of threadMain; `again` is what run() returns. -/
def threadMain (again : Bool) (s : State) : Option State :=
  match s.spawned with
  | .absent | .returned => none
  | .entry => some (s.isRunning .prerunCheck .destroying)
  | .prerunCheck => some (s.isRunning .prerun .loopCheck)
  | .prerun => some { s with spawned := .loopCheck }
  | .loopCheck => some (s.isRunning .run .postrunCheck)
  | .run => some { s with spawned := if again then .loopCheck else .postrunCheck }
  | .postrunCheck => some (s.isRunning .postrun .nulling)
  | .postrun => some { s with spawned := .nulling }
  | .nulling =>
      some { s with
        spawned := .deleting
        delegate := { s.delegate.access with mRunnable := false } }
  | .deleting =>
      some { s with spawned := .destroying, runnableDeleted := s.runnableDeleted + 1 }
  | .destroying => some { s with spawned := .returned, delegate := s.delegate.destroy }

end State

inductive Label
  /-- The constructor; the thread is created or not. -/
  | construct (created : Bool)
  /-- What start() does next. -/
  | create
  /-- The owner deletes the runnable that start() did not take. -/
  | deleteRunnable
  /-- LocThread::stop() -/
  | stop
  /-- LocThread::~LocThread() -/
  | bye
  /-- pthread_join() returns. -/
  | join
  /-- The destroy() at the end of stop() and bye(). -/
  | destroy
  | threadMain (again : Bool)
  deriving DecidableEq, Repr

def step (s : State) : Label → Option State
  | .construct created => if s.creator = .constructing then some (s.construct created) else none
  | .create =>
      match s.creator with
      | .checking => some s.create
      | .dropping => some { s with creator := .refused, delegate := s.delegate.destroy }
      | _ => none
  | .deleteRunnable =>
      if s.creator = .refused then
        some { s with creator := .gone, runnableDeleted := s.runnableDeleted + 1 }
      else none
  | .stop => if s.creator = .holding then some s.stop else none
  | .bye => if s.creator = .holding then some s.bye else none
  | .join =>
      if s.creator = .joining ∧ s.spawned = .returned then some { s with creator := .leaving }
      else none
  | .destroy =>
      if s.creator = .leaving then some { s with creator := .gone, delegate := s.delegate.destroy }
      else none
  | .threadMain again => s.threadMain again

end Msm8974.LocThread
