import Zrpc.TcpClient

/-!
# A registered service (`registry/tcp_client.go`)

After `Register` a `TcpClient` runs its `heartbeat` loop until `Unregister` closes `done`. Each
request of either is a message that the registry processes at some later time, in any order; the
exchange that sent it may fail before or after that.
-/

namespace Zrpc

open Zrpc.Lib

/-- The fields that `Register` sets. -/
structure Registration where
  serviceName : GoString
  serviceAddr : GoString
  metadata : StringMap

namespace Registration

def heartbeatCmd (c : Registration) : Request :=
  { action := str "heartbeat", serviceName := c.serviceName, addr := c.serviceAddr }

def registerCmd (c : Registration) : Request :=
  { action := str "register", serviceName := c.serviceName, addr := c.serviceAddr,
    metadata := c.metadata }

def unregisterCmd (c : Registration) : Request :=
  { action := str "unregister", serviceName := c.serviceName, addr := c.serviceAddr }

/-- The test `c.serviceName == "" || c.serviceAddr == ""`. -/
def unset (c : Registration) : Bool := c.serviceName = [] || c.serviceAddr = []

end Registration

inductive LoopPc
  /-- In the `select`. -/
  | waiting
  /-- In the `sendRequest` of the given message. -/
  | heartbeat (id : Nat)
  | reregister (id : Nat)
  | returned
  deriving DecidableEq

inductive UnregisterPc
  | idle
  | sent (id : Nat)
  /-- Before `close(c.done)`. -/
  | closing
  /-- `Unregister` has returned nil. -/
  | returned
  deriving DecidableEq

structure ServiceState where
  registry : Registry
  now : Int
  /-- The messages that were sent and not processed. -/
  flight : List (Nat × Request)
  replies : List (Nat × Response)
  /-- The number of messages sent so far. -/
  sent : Nat
  loop : LoopPc
  unregister : UnregisterPc
  done : Bool

/-- `Register` has returned. -/
def ServiceState.init (r : Registry) (now : Int) : ServiceState :=
  ⟨r, now, [], [], 0, .waiting, .idle, false⟩

inductive ServiceAction
  | tick (d : Nat)
  /-- The `select` of the loop receives from the ticker, or from `done`. -/
  | loopTick
  | loopDone
  /-- The exchange of the loop, or of `Unregister`, ends: with the reply, or without one. -/
  | loopReply (failed : Bool)
  | callUnregister
  | unregisterReply (failed : Bool)
  | closeDone
  /-- The registry processes a message, or it is lost. -/
  | process (id : Nat) (o : Orders)
  | lose (id : Nat)
  /-- A request about another pair, a removal by a checker, a round of the sweeper. -/
  | other (cmd : Request) (o : Orders)
  | evict (serviceName addr : GoString)
  | sweep (o : Orders)

namespace ServiceState

def send (s : ServiceState) (cmd : Request) : ServiceState :=
  { s with flight := s.flight ++ [(s.sent, cmd)], sent := s.sent + 1 }

/-- The result of `sendRequest` for a message: `none` while there is no reply, else whether it
returned no error. -/
def replied (s : ServiceState) (id : Nat) (failed : Bool) : Option Bool :=
  if failed then some false
  else (s.replies.find? (·.1 = id)).map fun e => e.2.success

def reregister (c : Registration) (s : ServiceState) : ServiceState :=
  if c.unset then { s with loop := .waiting }
  else { s.send c.registerCmd with loop := .reregister s.sent }

def loopReply (c : Registration) (s : ServiceState) (failed : Bool) : Option ServiceState :=
  match s.loop with
  | .heartbeat id =>
    (s.replied id failed).map fun ok =>
      if ok then { s with loop := .waiting } else s.reregister c
  | .reregister id => (s.replied id failed).map fun _ => { s with loop := .waiting }
  | .waiting | .returned => none

def unregisterReply (s : ServiceState) (failed : Bool) : Option ServiceState :=
  match s.unregister with
  | .sent id =>
    (s.replied id failed).map fun ok =>
      { s with unregister := if ok then .closing else .idle }
  | .idle | .closing | .returned => none

def process (s : ServiceState) (id : Nat) (o : Orders) : Option ServiceState :=
  (s.flight.find? (·.1 = id)).map fun m =>
    let (r, resp) := s.registry.serve o s.now m.2
    { s with registry := r, flight := s.flight.erase m, replies := s.replies ++ [(id, resp)] }

def step (c : Registration) (s : ServiceState) : ServiceAction → Option ServiceState
  | .tick d => some { s with now := s.now + d }
  | .loopTick =>
    if s.loop = .waiting then
      some { s.send c.heartbeatCmd with loop := .heartbeat s.sent }
    else none
  | .loopDone =>
    if s.loop = .waiting ∧ s.done then some { s with loop := .returned } else none
  | .loopReply failed => s.loopReply c failed
  | .callUnregister =>
    if s.unregister ≠ .idle then none
    -- The call returns the error "register service yet".
    else if c.unset then some s
    else some { s.send c.unregisterCmd with unregister := .sent s.sent }
  | .unregisterReply failed => s.unregisterReply failed
  | .closeDone =>
    if s.unregister = .closing then some { s with unregister := .returned, done := true } else none
  | .process id o => s.process id o
  | .lose id => (s.flight.find? (·.1 = id)).map fun m => { s with flight := s.flight.erase m }
  | .other cmd o =>
    if (cmd.serviceName, cmd.addr) = (c.serviceName, c.serviceAddr) then none
    else some { s with registry := (s.registry.serve o s.now cmd).1 }
  | .evict serviceName addr =>
    some { s with registry := (s.registry.unregister serviceName addr).1 }
  | .sweep o =>
    some { s with registry := s.registry.cleanExpiredServers o.outer o.inner s.now }

end ServiceState

end Zrpc
