import Zrpc.Lib.RWLock
import Zrpc.ServerWrite

/-!
# Removing connections (`server.go`)

The calls of `removeConn` and the other users of `s.mu`, beside the goroutines that answer requests.
`removeConn` starts a goroutine, which starts a helper that takes `s.mu` for it and then waits for
the helper or for its timer. The timer may fire at any time. Each use of `s.mu` elsewhere in the
server is a party of its own, and any number of them may be under way.
-/

namespace Zrpc

open Zrpc.Lib

variable {V T : Type}

/-- What a goroutine takes `s.mu` for. -/
inductive MuUse
  /-- `serveListener` stores the listener. -/
  | serve
  /-- `serveListener` reports a failed `Accept`. -/
  | acceptError
  /-- `serveListener` adds the connection it has accepted. -/
  | accept (conn : Nat)
  /-- `initFunctionWorkerPool`, or one batch of `quickScaleUp`. -/
  | createWorkers
  /-- A worker looks at the length of `workerLoads`. -/
  | checkLoads
  /-- `stop` closes the listener. -/
  | closeListener
  /-- The goroutine of a graceful `stop` that waits until no connection is left. -/
  | awaitConns
  /-- `stop` sets `s.conns` to nil. -/
  | dropConns
  | register

/-- A worker takes `s.mu` with `RLock`, every other user with `Lock`. -/
def MuUse.reads : MuUse → Bool
  | .checkLoads => true
  | _ => false

inductive UserPc
  | ready
  | holding
  | asleep
  | finished
  deriving DecidableEq

structure MuUser where
  use : MuUse
  pc : UserPc

/-- `s.cv.Broadcast()`: a goroutine in `s.cv.Wait()` goes on to take the lock again. -/
def MuUser.wake : MuUser → MuUser
  | ⟨use, .asleep⟩ => ⟨use, .ready⟩
  | user => user

/-- The helper of a `removeConn`: it waits for `s.mu`, or it has taken `s.mu` and closed
`lockAcquired`, or the lock it took has been released. -/
inductive HelperPc
  | waiting
  | acquired
  | released
  deriving DecidableEq

/-- The goroutine of a `removeConn`. -/
inductive RemoverPc
  | selecting
  | removing
  | cleaning
  | closing
  | finished
  deriving DecidableEq

structure Remover where
  conn : Nat
  helper : HelperPc
  pc : RemoverPc

/-- Who has called `s.mu.Lock()` or `s.mu.RLock()`. -/
inductive MuOwner
  | helper (remover : Nat)
  | user (user : Nat)
  deriving DecidableEq

structure ConnState where
  writes : WriteState
  mu : RWLock MuOwner
  /-- The keys of `s.conns`; `none` once `stop` has set it to nil. -/
  conns : Option (List Nat)
  /-- How many connections `Accept` has returned. -/
  accepted : Nat
  /-- The connections whose `serveConn` has not called `removeConn` yet. -/
  serving : List Nat
  users : List MuUser
  removers : List Remover

def ConnState.init : ConnState := ⟨.init, .free, some [], 0, [], [], []⟩

inductive ConnAction
  | request (a : WriteAction)
  | start (use : MuUse)
  | lock (user : Nat)
  | unlock (user : Nat)
  | removeConn (conn : Nat)
  | helperLock (remover : Nat)
  | lockAcquired (remover : Nat)
  | timeout (remover : Nat)
  | remove (remover : Nat)
  | deleteMutex (remover : Nat)
  | close (remover : Nat)

/-- The steps of the goroutines that answer requests. -/
def WriteAction.isRequest : WriteAction → Bool
  | .dropMutex _ | .close _ => false
  | _ => true

def MuUse.lock (use : MuUse) (mu : RWLock MuOwner) (i : Nat) : Option (RWLock MuOwner) :=
  if use.reads then mu.rlock (.user i) else mu.lock (.user i)

def MuUse.unlock (use : MuUse) (mu : RWLock MuOwner) (i : Nat) : RWLock MuOwner :=
  if use.reads then mu.runlock (.user i) else mu.unlock

/-- Every connection that `Accept` returns is a new one. -/
def ConnState.start (s : ConnState) : MuUse → Option ConnState
  | .accept conn => if conn = s.accepted then some { s with accepted := s.accepted + 1 } else none
  | _ => some s

/-- What a use of `s.mu` does to the connections, and where its goroutine is after it has released
the lock. -/
def ConnState.run (s : ConnState) : MuUse → ConnState × UserPc
  | .accept conn =>
    match s.conns with
    | some conns =>
      ({ s with conns := some (conn :: conns), serving := conn :: s.serving }, .finished)
    | none => ({ s with writes := { s.writes with closed := conn :: s.writes.closed } }, .finished)
  | .awaitConns =>
    match s.conns with
    | some (_ :: _) => (s, .asleep)
    | _ => (s, .finished)
  | .dropConns => ({ s with conns := none }, .finished)
  | _ => (s, .finished)

/-- The rest of a use of `s.mu` by user `i`, which holds the lock. -/
def ConnState.leave (s : ConnState) (i : Nat) (use : MuUse) : ConnState :=
  let (t, pc) := s.run use
  { t with mu := use.unlock s.mu i, users := s.users.set i ⟨use, pc⟩ }

def ConnState.setRemover (s : ConnState) (r : Nat) (x : Remover) : ConnState :=
  { s with removers := s.removers.set r x }

def connStep (E : Env) (P : Proto V T) (S : Server V T) (c : ∀ md, EncodeChoice md)
    (s : ConnState) : ConnAction → Option ConnState
  | .request a =>
    if a.isRequest then
      (writeStep E P S c s.writes a).map fun writes => { s with writes := writes }
    else none
  | .start use => (s.start use).map fun s => { s with users := s.users ++ [⟨use, .ready⟩] }
  | .lock i =>
    match s.users[i]? with
    | some ⟨use, .ready⟩ =>
      (use.lock s.mu i).map fun mu => { s with mu := mu, users := s.users.set i ⟨use, .holding⟩ }
    | _ => none
  | .unlock i =>
    match s.users[i]? with
    | some ⟨use, .holding⟩ => some (s.leave i use)
    | _ => none
  | .removeConn conn =>
    if conn ∈ s.serving then
      some { s with
        serving := s.serving.erase conn
        removers := s.removers ++ [⟨conn, .waiting, .selecting⟩] }
    else none
  | .helperLock r =>
    match s.removers[r]? with
    | some ⟨conn, .waiting, pc⟩ =>
      (s.mu.lock (.helper r)).map fun mu => { s with mu := mu }.setRemover r ⟨conn, .acquired, pc⟩
    | _ => none
  | .lockAcquired r =>
    match s.removers[r]? with
    | some ⟨conn, .acquired, .selecting⟩ => some (s.setRemover r ⟨conn, .acquired, .removing⟩)
    | _ => none
  | .timeout r =>
    -- `select` may choose the timer also if `lockAcquired` is closed
    match s.removers[r]? with
    | some ⟨conn, helper, .selecting⟩ => some (s.setRemover r ⟨conn, helper, .cleaning⟩)
    | _ => none
  | .remove r =>
    match s.removers[r]? with
    | some ⟨conn, .acquired, .removing⟩ =>
      some { s with
        mu := s.mu.unlock
        conns := s.conns.map fun conns => conns.erase conn
        users := s.users.map MuUser.wake
        removers := s.removers.set r ⟨conn, .released, .cleaning⟩ }
    | _ => none
  | .deleteMutex r =>
    match s.removers[r]? with
    | some ⟨conn, helper, .cleaning⟩ =>
      (writeStep E P S c s.writes (.dropMutex conn)).map fun writes =>
        { s with writes := writes }.setRemover r ⟨conn, helper, .closing⟩
    | _ => none
  | .close r =>
    match s.removers[r]? with
    | some ⟨conn, helper, .closing⟩ =>
      (writeStep E P S c s.writes (.close conn)).map fun writes =>
        { s with writes := writes }.setRemover r ⟨conn, helper, .finished⟩
    | _ => none

end Zrpc
