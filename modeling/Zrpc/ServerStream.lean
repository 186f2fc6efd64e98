import Zrpc.ServerWrite
import Zrpc.WorkerPool

/-!
# A server from the bytes it reads to the bytes it writes (`server.go`)

The read loops, the goroutines of `serveRequest`, the worker pool and the goroutines that write
responses, over the byte streams of any number of connections. A request is read by `readRequest`
from what its client sends, is rejected or dispatched by `serveRequest`, is processed by a worker or
by a goroutine of its own, and its answer is written on the connection that the closure was given.
Processing takes a request, and its context, as they read when it begins.
-/

namespace Zrpc

variable {V T : Type}

/-- What the client of a connection sends, and the reader of its read loop. -/
structure Inbound where
  whole : Bytes
  reader : Reader

structure StreamState where
  pool : PoolState
  write : WriteState
  inbound : List Inbound
  /-- For each goroutine of `serveRequest`, its connection and its request as it was read. -/
  received : List (Nat × Message)

def StreamState.init (minWorkerPoolSize : Nat) : StreamState := ⟨.init minWorkerPoolSize, .init, [], []⟩

inductive StreamAction
  | accept (input : Bytes)
  | read (conn : Nat)
  /-- A step of a read loop, of `serveRequest`, of a worker or of `stop`. -/
  | turn (a : PoolAction)
  /-- A step of a goroutine that writes a response, or of `removeConn`. -/
  | writer (a : WriteAction)

/-- The length of the data of the next frame: what `Decode` reads after the header and the length. -/
def Inbound.dataLen (E : Env) (maxLength : Int) (b : Inbound) : Nat :=
  b.reader.data.length - (decode E maxLength b.reader).2.data.length - 15

def PoolAction.isRead : PoolAction → Bool
  | .serve .accept => true
  | .serve (.read _ _ _) => true
  | _ => false

/-- The steps of a writer and of a `removeConn` for a connection whose read loop has ended. -/
def StreamState.mayWrite (s : StreamState) : WriteAction → Bool
  | .getConnMutex _ | .lock _ | .write _ _ | .unlock _ => true
  | .dropMutex conn | .close conn =>
    match s.pool.serve.conns[conn]? with
    | some .gone => true
    | _ => false
  | .process _ _ _ | .reject _ _ _ => false

/-- What `serveRequest` writes itself: the answer to a request that `auth` refuses. -/
def StreamState.reject (E : Env) (P : Proto V T) (S : Server V T) (c : ∀ md, EncodeChoice md)
    (s : StreamState) : PoolAction → WriteState
  | .serve (.authorize i) =>
    match s.received[i]?, s.pool.serve.requests[i]? with
    | some (conn, _), some r =>
      match S.authorize E P c r.req with
      | .ok (.inr sent) => s.write.spawn conn [sent]
      | _ => s.write
    | _, _ => s.write
  | _ => s.write

/-- The function of request `i` is run, with the context that `serveRequest` built for it. -/
def processAt (E : Env) (P : Proto V T) (S : Server V T) (c : ∀ md, EncodeChoice md)
    (received : List (Nat × Message)) (requests : List RequestThread) (w : WriteState) (i : Nat) :
    WriteState :=
  match received[i]?, requests[i]? with
  | some (conn, _), some ⟨req, _, .finished (some ctx)⟩ =>
    w.spawn conn (S.processOneRequest E P c ctx req)
  | _, _ => w

/-- The requests whose processing began between two states. -/
def startedBetween (s t : PoolState) : List Nat := t.serve.executed.drop s.serve.executed.length

def streamStep (E : Env) (P : Proto V T) (S : Server V T) (c : ∀ md, EncodeChoice md)
    (s : StreamState) : StreamAction → Option StreamState
  | .accept input =>
    match poolStep E P S c s.pool (.serve .accept) with
    | some t => some { s with pool := t, inbound := s.inbound ++ [⟨input, ⟨input, ioEOF⟩⟩] }
    | none => none
  | .read conn =>
    match s.inbound[conn]? with
    | some b =>
      match decode E S.opt.maxReceiveMessageSize b.reader with
      | (.ok req, r) =>
        match poolStep E P S c s.pool
          (.serve (.read conn req (b.dataLen E S.opt.maxReceiveMessageSize))) with
        | some t =>
          some { s with
            pool := t
            inbound := s.inbound.set conn ⟨b.whole, r⟩
            received := s.received ++ [(conn, req)] }
        | none => none
      | (.error _, _) => none
    | none => none
  | .turn a =>
    if a.isRead then none
    else match poolStep E P S c s.pool a with
      | some t =>
        some { s with
          pool := t
          write := (startedBetween s.pool t).foldl
            (processAt E P S c s.received t.serve.requests) (s.reject E P S c a) }
      | none => none
  | .writer a =>
    if s.mayWrite a && !s.pool.serve.crashed then
      match writeStep E P S c s.write a with
      | some w => some { s with write := w }
      | none => none
    else none

/-- The requests read from a connection, in the order of the reads. -/
def StreamState.requestsOn (s : StreamState) (conn : Nat) : List Message :=
  (s.received.filter (fun r => r.1 = conn)).map Prod.snd

/-- What `serveRequest` writes for a request, served alone. -/
def Server.serveRequest (E : Env) (P : Proto V T) (S : Server V T) (c : ∀ md, EncodeChoice md)
    (req : Message) : List Sent :=
  match S.authorize E P c req with
  | .ok (.inl ctx) => S.processOneRequest E P c ctx req
  | .ok (.inr sent) => [sent]
  | .error _ => []

end Zrpc
