import Zrpc.TcpRegistry

/-!
# The client of the TCP registry (`registry/tcp_client.go`)

First one `sendRequest` against one connection of the registry, byte by byte: TCP may deliver what
one side wrote in pieces, and each side reads once. Then any number of `sendRequest` calls on one
`TcpClient`, which share its field `conn`.
-/

namespace Zrpc

open Zrpc.Lib

/-! ## One exchange -/

/-- The length of the buffers both sides read into. -/
def readBuffer : Nat := 4096

/-- The only `Read` of a side, when `available` bytes of what was written have arrived. -/
def readOnce (written : Bytes) (available : Nat) : Bytes := written.take (min available readBuffer)

/-- What a `sendRequest` meets: the errors of `net.Dial` and of `Write`, and the result of `Read`
after the given bytes were written. -/
structure Network where
  dial : Option GoString
  write : Option GoString
  read : Bytes → Except GoString Bytes

/-- `fmt.Errorf("<context>: %v", err)`. -/
def wrapError {α : Type} (context : String) : Except GoString α → Except GoString α :=
  Except.mapError (str context ++ ·)

/-- An error as the result of a call that returns nothing else. -/
def orError : Option GoString → Except GoString Unit
  | some err => .error err
  | none => .ok ()

/-- The end of `sendRequest`, with the decoded response. -/
def Response.outcome (resp : Response) : Except GoString Response :=
  if resp.success then .ok resp else .error (str "命令执行失败: " ++ resp.error)

namespace TcpClient

def sendRequest (J : RegistryCodec) (net : Network) (cmd : Request) : Except GoString Response := do
  wrapError "连接注册中心失败: " (orError net.dial)
  let data ← wrapError "序列化命令失败: " (J.marshalRequest cmd)
  wrapError "发送命令失败: " (orError net.write)
  let buf ← wrapError "接收响应失败: " (net.read data)
  let resp ← wrapError "解析响应失败: " (J.unmarshalResponse buf)
  resp.outcome

/-- The type assertions on the `data` field; an element that is no string is skipped. -/
def stringsOf : Data → Except GoString (List GoString)
  | .array elems => .ok (elems.filterMap id)
  | .null | .other => .error (str "unknown response type")

def getService (J : RegistryCodec) (net : Network) (serviceName : GoString) :
    Except GoString (List GoString) := do
  let resp ← sendRequest J net { action := str "get", serviceName := serviceName }
  stringsOf resp.data

def listServices (J : RegistryCodec) (net : Network) : Except GoString (List GoString) := do
  let resp ← sendRequest J net { action := str "list" }
  stringsOf resp.data

end TcpClient

/-- The field `heartbeatInterval` after the first lines of `RegisterWithKeepAlive`. -/
def TcpClient.keepAliveInterval (heartbeatInterval keepaliveSec : Int) : Int :=
  if 0 < keepaliveSec then
    let interval := seconds (keepaliveSec.tdiv 3)
    if interval < seconds 10 then seconds 10 else interval
  else heartbeatInterval

/-- How TCP cuts the two messages of an exchange: how much of each has arrived when it is read. -/
structure Cut where
  request : Nat
  response : Nat

/-- A connection to the registry `r`. A registry that writes nothing closes the connection. -/
def Registry.network (r : Registry) (J : RegistryCodec) (o : Orders) (now : Int) (cut : Cut) :
    Network where
  dial := none
  write := none
  read data :=
    match (r.handleConnection J o now (.ok (readOnce data cut.request))).2 with
    | some out => .ok (readOnce out cut.response)
    | none => .error ioEOF

/-! ## Concurrent calls -/

/-- What an exchange on a shared connection can end with. -/
inductive Ending
  /-- The registry's response to the request of the given call. -/
  | answer (call : Nat) (resp : Response)
  /-- The registry's response to requests it could not tell apart. -/
  | garbled (resp : Response)
  /-- `Dial`, `Write` or `Read` failed although the connection was open. -/
  | network (text : GoString)
  /-- The connection was closed by another call, or its response taken. -/
  | lost (text : GoString)
  deriving DecidableEq

/-- A connection with the requests written to it, by call, and the response not yet read. -/
structure RegistryConn where
  written : List (Nat × Request)
  served : Bool
  reply : Option Ending
  closed : Bool
  deriving DecidableEq

inductive SendPc
  | connect
  | write
  | read
  | close (ending : Ending)
  | returned (ending : Ending)
  deriving DecidableEq

/-- A `sendRequest` with the connection it opened and those it has written to, read or closed. -/
structure SendCall where
  cmd : Request
  pc : SendPc
  opened : Option Nat
  used : List Nat
  deriving DecidableEq

structure TcpClientState where
  /-- The field `conn`. -/
  conn : Option Nat
  conns : List RegistryConn
  calls : List SendCall
  registry : Registry
  /-- A call has dereferenced a nil `conn`. -/
  panicked : Bool

def TcpClientState.init (r : Registry) : TcpClientState := ⟨none, [], [], r, false⟩

inductive TcpClientAction
  | call (cmd : Request)
  /-- A call takes its next step; the network makes it fail, or not. -/
  | run (i : Nat) (failure : Option GoString)
  /-- The registry reads the first `n` of the requests written to a connection. -/
  | serve (k n : Nat) (o : Orders) (now : Int) (parseError : GoString)

namespace TcpClientState

def setCall (s : TcpClientState) (i : Nat) (c : SendCall) : TcpClientState :=
  { s with calls := s.calls.set i c }

def setConn (s : TcpClientState) (k : Nat) (conn : RegistryConn) : TcpClientState :=
  { s with conns := s.conns.set k conn }

def closedText : GoString := str "use of closed network connection"

/-- `c.conn.Write(data)`. -/
def writeStep (s : TcpClientState) (i : Nat) (c : SendCall) (k : Nat) (conn : RegistryConn)
    (failure : Option GoString) : TcpClientState :=
  let c := { c with used := c.used ++ [k] }
  if conn.closed then s.setCall i { c with pc := .close (.lost closedText) }
  else match failure with
    | some err => s.setCall i { c with pc := .close (.network err) }
    | none =>
      (s.setConn k { conn with written := conn.written ++ [(i, c.cmd)] }).setCall i
        { c with pc := .read }

/-- `c.conn.Read(buf)`; it waits for a response, and reads the end of the stream behind it. -/
def readStep (s : TcpClientState) (i : Nat) (c : SendCall) (k : Nat) (conn : RegistryConn)
    (failure : Option GoString) : Option TcpClientState :=
  let c := { c with used := c.used ++ [k] }
  if conn.closed then some (s.setCall i { c with pc := .close (.lost closedText) })
  else match failure with
    | some err => some (s.setCall i { c with pc := .close (.network err) })
    | none =>
      match conn.reply with
      | some ending =>
        some ((s.setConn k { conn with reply := none }).setCall i { c with pc := .close ending })
      | none =>
        if conn.served then some (s.setCall i { c with pc := .close (.lost ioEOF) }) else none

/-- The deferred `c.close()`. -/
def closeStep (s : TcpClientState) (i : Nat) (c : SendCall) (ending : Ending) : TcpClientState :=
  match s.conn with
  | none => s.setCall i { c with pc := .returned ending }
  | some k =>
    let conns := s.conns.modify k fun conn => { conn with closed := true }
    let c := { c with used := c.used ++ [k], pc := .returned ending }
    { s with conn := none, conns := conns, calls := s.calls.set i c }

def connectStep (s : TcpClientState) (i : Nat) (c : SendCall) (failure : Option GoString) :
    TcpClientState :=
  match failure with
  | some err => s.setCall i { c with pc := .returned (.network err) }
  | none =>
    let k := s.conns.length
    let c := { c with pc := .write, opened := some k }
    { s with conn := some k, conns := s.conns ++ [⟨[], false, none, false⟩],
             calls := s.calls.set i c }

def callStep (s : TcpClientState) (i : Nat) (c : SendCall) (failure : Option GoString) :
    Option TcpClientState :=
  match c.pc with
  | .connect => some (s.connectStep i c failure)
  | .write =>
    match s.conn with
    | none => some { s with panicked := true }
    | some k => s.conns[k]?.map fun conn => s.writeStep i c k conn failure
  | .read =>
    match s.conn with
    | none => some { s with panicked := true }
    | some k => s.conns[k]?.bind fun conn => s.readStep i c k conn failure
  | .close ending => some (s.closeStep i c ending)
  | .returned _ => none

/-- `handleConnection` on a connection; several requests in one `Read` are no JSON text. -/
def serveStep (s : TcpClientState) (k n : Nat) (conn : RegistryConn) (o : Orders) (now : Int)
    (parseError : GoString) : Option TcpClientState :=
  if conn.served then none
  else match conn.written.take n with
    | [] => none
    | [(i, cmd)] =>
      let (r, resp) := s.registry.serve o now cmd
      let s' := s.setConn k { conn with served := true, reply := some (.answer i resp) }
      some { s' with registry := r }
    | _ :: _ :: _ =>
      let resp := Response.failed (str "解析命令失败: " ++ parseError)
      some (s.setConn k { conn with served := true, reply := some (.garbled resp) })

def step (s : TcpClientState) (a : TcpClientAction) : Option TcpClientState :=
  if s.panicked then none
  else match a with
    | .call cmd => some { s with calls := s.calls ++ [⟨cmd, .connect, none, []⟩] }
    | .run i failure => s.calls[i]?.bind fun c => s.callStep i c failure
    | .serve k n o now parseError =>
      s.conns[k]?.bind fun conn => s.serveStep k n conn o now parseError

end TcpClientState

end Zrpc
