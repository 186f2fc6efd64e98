import Zrpc.MessageHeap
import Zrpc.Server

/-!
# The goroutines of a server (`server.go`)

The connections' read loops, the goroutines of `serveRequest`, the workers and the calls of
`Stop` and `GracefulStop` run side by side; one action of `ServeAction` is one atomic step of one
of them. A function sent into `workerFuncChannel` is named by the index of its request.

The names and the metadata of a decoded message are views of the frame's memory. If that is a pooled
buffer, it has gone back to the pool by the time the request is served, and what the texts read as can
change whenever somebody else fills it.
-/

namespace Zrpc

variable {V T : Type}

/-- A `serveConn` loop is before its shutdown check, inside `readRequest`, or gone. -/
inductive ConnPc
  | checking
  | reading
  | gone

/-- Where `serveRequest` is; at its end it has dispatched the request with its context, or refused
it. -/
inductive RequestPc
  | started
  | dispatching (ctx : Ctx)
  | finished (ctx : Option Ctx)

structure RequestThread where
  req : Message
  /-- The length of the frame's data. -/
  dataLen : Nat
  pc : RequestPc

def RequestPc.overwrite (metadata : MD) : RequestPc → RequestPc
  | .started => .started
  | .dispatching ctx => .dispatching { ctx with incoming := metadata }
  | .finished ctx => .finished (ctx.map fun ctx => { ctx with incoming := metadata })

/-- What the texts of the request read as has changed; the context holds the same map. The header and
the payload are copies. -/
def RequestThread.overwrite (t : RequestThread) (serviceName serviceMethod : GoString)
    (metadata : MD) : RequestThread :=
  { t with
    req := { t.req with
      serviceName := serviceName, serviceMethod := serviceMethod, metadata := metadata }
    pc := t.pc.overwrite metadata }

/-- A call of `stop` has set the flag, drains the channel in a goroutine, or is past the close. -/
inductive StopPc
  | flagged
  | draining
  | closed
  deriving DecidableEq

structure ServeState where
  conns : List ConnPc
  requests : List RequestThread
  stops : List StopPc
  /-- `workerFuncChannel`. -/
  queue : List Nat
  chanClosed : Bool
  inShutdown : Bool
  /-- Requests whose `processOneRequest` has been started, by a worker or directly. -/
  executed : List Nat
  crashed : Bool

def ServeState.init : ServeState := ⟨[], [], [], [], false, false, [], false⟩

inductive ServeAction
  | accept
  | check (conn : Nat)
  | read (conn : Nat) (req : Message) (dataLen : Nat)
  /-- Somebody fills the pooled buffer that the texts of a request lie in. -/
  | overwrite (request : Nat) (serviceName serviceMethod : GoString) (metadata : MD)
  | hangUp (conn : Nat)
  | authorize (request : Nat)
  | dispatch (request : Nat)
  | work
  | stop
  | drain (stop : Nat) (timeout : Bool)

/-- A request goroutine outside every `recover` panics: the process dies. -/
def ServeState.crash (s : ServeState) : ServeState := { s with crashed := true }

def ServeState.setRequest (s : ServeState) (i : Nat) (t : RequestThread) : ServeState :=
  { s with requests := s.requests.set i t }

/-- The `select` of `serveRequest`: a send on a closed channel panics, a full channel means that
the request is processed by a goroutine of its own. -/
def ServeState.dispatch (opt : ServerOption) (s : ServeState) (i : Nat) : ServeState :=
  if opt.enableWorkerPool then
    if s.chanClosed then s.crash
    else if s.queue.length < opt.taskQueueSize then { s with queue := s.queue ++ [i] }
    else { s with executed := s.executed ++ [i] }
  else { s with executed := s.executed ++ [i] }

/-- One round of the goroutine by which `stop` empties and closes the channel. A closed channel
keeps delivering zero values. -/
def ServeState.drain (s : ServeState) (k : Nat) (timeout : Bool) : ServeState :=
  if timeout then { s with chanClosed := true, stops := s.stops.set k .closed }
  else match s.queue with
    | _ :: queue => { s with queue := queue }
    | [] => if s.chanClosed then s else { s with chanClosed := true, stops := s.stops.set k .closed }

def serveStep (E : Env) (P : Proto V T) (S : Server V T) (c : ∀ md, EncodeChoice md)
    (s : ServeState) (a : ServeAction) : Option ServeState :=
  if s.crashed then none
  else match a with
    | .accept => some { s with conns := s.conns ++ [.checking] }
    | .check i =>
      match s.conns[i]? with
      | some .checking =>
        some { s with conns := s.conns.set i (if s.inShutdown then .gone else .reading) }
      | _ => none
    | .read i req dataLen =>
      match s.conns[i]? with
      | some .reading =>
        some { s with
          conns := s.conns.set i .checking
          requests := s.requests ++ [⟨req, dataLen, .started⟩] }
      | _ => none
    | .overwrite i serviceName serviceMethod metadata =>
      match s.requests[i]? with
      | some t =>
        if ownFrame t.dataLen then none
        else some (s.setRequest i (t.overwrite serviceName serviceMethod metadata))
      | none => none
    | .hangUp i =>
      match s.conns[i]? with
      | some .reading => some { s with conns := s.conns.set i .gone }
      | _ => none
    | .authorize i =>
      match s.requests[i]? with
      | some ⟨req, dataLen, .started⟩ =>
        match S.authorize E P c req with
        | .ok (.inl ctx) => some (s.setRequest i ⟨req, dataLen, .dispatching ctx⟩)
        | .ok (.inr _) => some (s.setRequest i ⟨req, dataLen, .finished none⟩)
        | .error _ => some s.crash
      | _ => none
    | .dispatch i =>
      match s.requests[i]? with
      | some ⟨req, dataLen, .dispatching ctx⟩ =>
        some ((s.setRequest i ⟨req, dataLen, .finished (some ctx)⟩).dispatch S.opt i)
      | _ => none
    | .work =>
      match s.queue with
      | i :: queue => some { s with queue := queue, executed := s.executed ++ [i] }
      | [] => none
    | .stop => some { s with inShutdown := true, stops := s.stops ++ [.flagged] }
    | .drain k timeout =>
      match s.stops[k]? with
      | some .flagged =>
        some { s with stops := s.stops.set k (if S.opt.enableWorkerPool then .draining else .closed) }
      | some .draining => some (s.drain k timeout)
      | _ => none

end Zrpc
