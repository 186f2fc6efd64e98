import Zrpc.ClientRun
import Zrpc.ServerStream

/-!
# A client and its servers (`call.go`, `client.go`, `clientconn.go`, `server.go`)

The goroutines of one client, any number of servers with their read loops, workers and writers, and
the connections between them. A connection carries the bytes of each direction unchanged and in
order. A server may accept a connection at any time after the dial, and reads what has been written
to it by then; what it writes may reach the client at any later time. A response of which only a
part was written does not reach the client, and neither do those behind it.
-/

namespace Zrpc

variable {V T : Type}

structure SystemConfig (V T : Type) where
  client : ClientConfig V T
  server : Nat → Server V T
  /-- The orders in which the client and the servers range over metadata. -/
  clientChoice : ∀ md, EncodeChoice md
  serverChoice : ∀ md, EncodeChoice md

/-- A connection of the client, seen from the network. -/
structure Link where
  /-- The server that has accepted it, and its number there. -/
  peer : Option (Nat × Nat)
  /-- The requests that the client has written, and their bytes. -/
  requests : List Message
  written : Bytes

def Link.new : Link := ⟨none, [], []⟩

structure System (V T : Type) where
  client : ClientState T
  /-- The call that a goroutine of the client makes. -/
  calls : Nat → Option (Call V)
  links : List Link
  servers : List StreamState

/-- One server for each number of workers. -/
def System.init (workers : List Nat) : System V T := ⟨.init, fun _ => none, [], workers.map .init⟩

/-- The connection and the sequence number of the request that a goroutine is about to write. -/
def Thread.sending : Thread T → Option (Nat × UInt64)
  | .invoke t =>
    match t.pc, t.cells with
    | .write seq, cell :: _ => some (cell.conn, seq)
    | _, _ => none
  | .heartbeat (.write _ conn seq) => some (conn, seq)
  | _ => none

/-- The message that `sendMsg` makes of a call, and its bytes. -/
def SystemConfig.request (cfg : SystemConfig V T) (order : List MDEntry) (ctx : CallCtx)
    (call : Call V) (seq : UInt64) : Go (Message × Bytes) := do
  let req ← prepareMessage cfg.client.env cfg.client.proto order call ctx
  let req := stampRequest seq req
  let (frame, _) ← req.encode cfg.client.env (cfg.clientChoice req.metadata)
  return (req, frame)

/-- More bytes arrive on a connection. -/
def StreamState.receive (t : StreamState) (conn : Nat) (bytes : Bytes) : StreamState :=
  { t with inbound := t.inbound.modify conn fun b =>
      ⟨b.whole ++ bytes, ⟨b.reader.data ++ bytes, b.reader.failure⟩⟩ }

inductive SystemAction (V T : Type)
  | invoke (method : GoString) (args : V) (replyType : T)
  | heartbeat
  | close
  | updateServers (servers : List GoString)
  /-- A step of a goroutine of the client that writes no request. -/
  | run (thread : Nat) (inp : Input)
  /-- A request is written, made from the given context. -/
  | send (thread : Nat) (order : List MDEntry) (ctx : CallCtx)
  | accept (server conn : Nat)
  | server (server : Nat) (a : StreamAction)
  /-- The next response on a connection reaches the client. -/
  | deliver (conn request : Nat) (header : Header) (body : Bytes)

def StreamAction.isAccept : StreamAction → Bool
  | .accept _ => true
  | _ => false

namespace System

/-- A step of the client, after which there is a link for each connection it has dialled. -/
def clientTurn (cfg : SystemConfig V T) (s : System V T) (a : ClientAction T) :
    Option (System V T) :=
  match clientStep cfg.client s.client a with
  | some c =>
    some { s with
      client := c
      links := s.links ++ List.replicate (c.shared.conns.length - s.links.length) .new }
  | none => none

/-- A new goroutine that makes the given call. -/
def start (cfg : SystemConfig V T) (s : System V T) (a : ClientAction T) (call : Call V) :
    Option (System V T) :=
  match s.clientTurn cfg a with
  | some t =>
    some { t with calls := fun i => if i = s.client.threads.length then some call else s.calls i }
  | none => none

def sending (s : System V T) (i : Nat) : Option (Nat × UInt64) :=
  match s.client.threads[i]? with
  | some th => th.sending
  | none => none

/-- A request is on its way, and has reached the server if that has accepted the connection. -/
def transmit (s : System V T) (conn : Nat) (req : Message) (frame : Bytes) : System V T :=
  match s.links[conn]? with
  | some l =>
    { s with
      links := s.links.set conn ⟨l.peer, l.requests ++ [req], l.written ++ frame⟩
      servers := match l.peer with
        | some (j, p) => s.servers.modify j fun t => t.receive p frame
        | none => s.servers }
  | none => s

end System

def systemStep (cfg : SystemConfig V T) (s : System V T) :
    SystemAction V T → Option (System V T)
  | .invoke method args replyType =>
    match newCall method args with
    | .ok call => s.start cfg (.invoke true replyType) call
    | .error _ => s.clientTurn cfg (.invoke false replyType)
  | .heartbeat => s.start cfg .heartbeat ⟨[], [], none⟩
  | .close => s.clientTurn cfg .close
  | .updateServers servers => s.clientTurn cfg (.updateServers servers)
  | .run i inp =>
    match s.sending i, inp with
    | some _, .go => none
    | _, _ => s.clientTurn cfg (.run i inp)
  | .send i order ctx =>
    match s.sending i, s.calls i with
    | some (conn, seq), some call =>
      match cfg.request order ctx call seq, s.clientTurn cfg (.run i .go) with
      | .ok (req, frame), some t => some (t.transmit conn req frame)
      | _, _ => none
    | _, _ => none
  | .accept j conn =>
    match s.links[conn]?, s.servers[j]? with
    | some ⟨none, requests, written⟩, some t =>
      match streamStep cfg.client.env cfg.client.proto (cfg.server j) cfg.serverChoice t
        (.accept written) with
      | some t' =>
        some { s with
          links := s.links.set conn ⟨some (j, t.inbound.length), requests, written⟩
          servers := s.servers.set j t' }
      | none => none
    | _, _ => none
  | .server j a =>
    match s.servers[j]? with
    | some t =>
      if a.isAccept then none
      else match streamStep cfg.client.env cfg.client.proto (cfg.server j) cfg.serverChoice t a with
        | some t' => some { s with servers := s.servers.set j t' }
        | none => none
    | none => none
  | .deliver conn request header body =>
    match s.links[conn]?, s.client.shared.conns[conn]? with
    | some ⟨some (j, p), _, _⟩, some k =>
      match s.servers[j]? with
      | some t =>
        match (t.write.writesOn p)[k.answers.length]? with
        | some w =>
          if w.count = w.frame.length ∧
              w.frame = header.toBytes ++ (Lib.leBytes 4 body.length ++ body) then
            s.clientTurn cfg (.answer conn request header body)
          else none
        | none => none
      | none => none
    | _, _ => none

end Zrpc
