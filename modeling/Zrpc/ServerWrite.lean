import Zrpc.Lib.Exec
import Zrpc.Server

/-!
# Writing responses (`server.go`)

The goroutines that answer requests take the connection's mutex from `connMutexes`, lock it, call
`conn.Write` once and unlock it; `removeConn` drops the mutex and closes the connection. A
`conn.Write` is one step, since a `net.Conn` serialises its writes; how many bytes it puts on the
wire is up to the network, and the error it returns for a short write is only logged.
-/

namespace Zrpc

variable {V T : Type}

inductive WriterPc
  | encoded
  | waiting (mu : Nat)
  | locked (mu : Nat)
  | written (mu : Nat)
  | finished

/-- A goroutine in `sendResponse` or in the heartbeat branch, with its encoded message. -/
structure FrameWriter where
  conn : Nat
  frame : Bytes
  pc : WriterPc

/-- One `conn.Write(frame)` that put `count` bytes on the wire. -/
structure ConnWrite where
  conn : Nat
  frame : Bytes
  count : Nat

def ConnWrite.put (w : ConnWrite) : Bytes := w.frame.take w.count

structure WriteState where
  writers : List FrameWriter
  connMutexes : AList (fun _ : Nat => Nat)
  /-- The mutexes made so far, and whether each is locked. -/
  mutexes : List Bool
  closed : List Nat
  log : List ConnWrite

def WriteState.init : WriteState := ⟨[], ∅, [], [], []⟩

def WriteState.writesOn (s : WriteState) (conn : Nat) : List ConnWrite :=
  s.log.filter (fun w => w.conn = conn)

def WriteState.bytesOn (s : WriteState) (conn : Nat) : Bytes :=
  (s.writesOn conn).flatMap ConnWrite.put

inductive WriteAction
  | process (conn : Nat) (ctx : Ctx) (req : Message)
  | reject (conn : Nat) (req : Message) (err : GoString)
  | getConnMutex (writer : Nat)
  | lock (writer : Nat)
  | write (writer : Nat) (count : Nat)
  | unlock (writer : Nat)
  | dropMutex (conn : Nat)
  | close (conn : Nat)

def WriteState.spawn (s : WriteState) (conn : Nat) (sent : List Sent) : WriteState :=
  { s with writers := s.writers ++ sent.map (fun m => ⟨conn, m.frame, .encoded⟩) }

def WriteState.setPc (s : WriteState) (i : Nat) (w : FrameWriter) (pc : WriterPc) : WriteState :=
  { s with writers := s.writers.set i { w with pc := pc } }

def WriteState.getConnMutex (s : WriteState) (conn : Nat) : WriteState × Nat :=
  match s.connMutexes.lookup conn with
  | some mu => (s, mu)
  | none =>
    let mu := s.mutexes.length
    ({ s with
      connMutexes := s.connMutexes.insert conn mu
      mutexes := s.mutexes ++ [false] }, mu)

/-- A write on a closed connection fails before its first byte. -/
def WriteState.write (s : WriteState) (w : FrameWriter) (count : Nat) : Option WriteState :=
  if count ≤ w.frame.length ∧ (w.conn ∈ s.closed → count = 0) then
    some { s with log := s.log ++ [⟨w.conn, w.frame, count⟩] }
  else none

def writeStep (E : Env) (P : Proto V T) (S : Server V T) (c : ∀ md, EncodeChoice md)
    (s : WriteState) : WriteAction → Option WriteState
  | .process conn ctx req => some (s.spawn conn (S.processOneRequest E P c ctx req))
  | .reject conn req err =>
    match S.reject E P c req err with
    | .ok sent => some (s.spawn conn [sent])
    | .error _ => none
  | .getConnMutex i =>
    match s.writers[i]? with
    | some ⟨conn, frame, .encoded⟩ =>
      let (s, mu) := s.getConnMutex conn
      some (s.setPc i ⟨conn, frame, .encoded⟩ (.waiting mu))
    | _ => none
  | .lock i =>
    match s.writers[i]? with
    | some ⟨conn, frame, .waiting mu⟩ =>
      if s.mutexes[mu]? = some false then
        some ({ s with mutexes := s.mutexes.set mu true }.setPc i ⟨conn, frame, .waiting mu⟩
          (.locked mu))
      else none
    | _ => none
  | .write i count =>
    match s.writers[i]? with
    | some ⟨conn, frame, .locked mu⟩ =>
      (s.setPc i ⟨conn, frame, .locked mu⟩ (.written mu)).write ⟨conn, frame, .locked mu⟩ count
    | _ => none
  | .unlock i =>
    match s.writers[i]? with
    | some ⟨conn, frame, .written mu⟩ =>
      some ({ s with mutexes := s.mutexes.set mu false }.setPc i ⟨conn, frame, .written mu⟩
        .finished)
    | _ => none
  | .dropMutex conn => some { s with connMutexes := s.connMutexes.erase conn }
  | .close conn => some { s with closed := conn :: s.closed }

end Zrpc
