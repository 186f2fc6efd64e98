import Zrpc.Lib.Exec
import Zrpc.Registry

/-!
# The TCP registry (`registry/tcp_registry.go`)

A connection carries one request and one response. Beside the connections run one
`heartbeatChecker` for each accepted register request and the sweeper of the registry, each at
the granularity of its critical sections.
-/

namespace Zrpc

open Zrpc.Lib

structure Request where
  action : GoString
  serviceName : GoString := []
  addr : GoString := []
  metadata : StringMap := none
  deriving DecidableEq

/-- The value of a `data` field: nothing, an array with `none` for each element that is not a
string, or anything else. -/
inductive Data
  | null
  | array (elems : List (Option GoString))
  | other
  deriving DecidableEq

/-- A `[]string` in a `data` field. The slices the registry returns are nil when they are empty. -/
def Data.ofStrings (elems : List GoString) : Data :=
  if elems = [] then .null else .array (elems.map some)

structure Response where
  success : Bool
  error : GoString
  data : Data
  deriving DecidableEq

/-- `encoding/json` on the two message types. -/
structure RegistryCodec where
  marshalRequest : Request → Except GoString Bytes
  unmarshalRequest : Bytes → Except GoString Request
  marshalResponse : Response → Except GoString Bytes
  unmarshalResponse : Bytes → Except GoString Response

/-- The iteration orders of the two levels of a registry's map. -/
structure Orders where
  outer : RangeOrder GoString Services
  inner : RangeOrder GoString ServiceInfo

def Orders.stored : Orders := ⟨.stored, .stored⟩

def Response.failed (text : GoString) : Response := ⟨false, text, .null⟩

def Response.done (elems : List GoString) : Response := ⟨true, [], .ofStrings elems⟩

/-- The answer to a call that only reports an error. -/
def Response.ofError : Option GoString → Response
  | some text => .failed text
  | none => .done []

/-- The `switch` of `handleConnection`. -/
def Registry.serve (r : Registry) (o : Orders) (now : Int) (cmd : Request) : Registry × Response :=
  if cmd.action = str "register" then
    (r.register cmd.serviceName cmd.addr cmd.metadata now now, .done [])
  else if cmd.action = str "unregister" then
    let (r', err) := r.unregister cmd.serviceName cmd.addr
    (r', .ofError err)
  else if cmd.action = str "heartbeat" then
    let (r', err) := r.heartbeat cmd.serviceName cmd.addr now
    (r', .ofError err)
  else if cmd.action = str "get" then
    match r.getService o.inner cmd.serviceName with
    | .error text => (r, .failed text)
    | .ok addrs => (r, .done addrs)
  else if cmd.action = str "list" then (r, .done (r.getAllServices o.outer))
  else (r, .failed (str "未知命令"))

/-- `sendResponse`: the bytes it writes, if any. -/
def RegistryCodec.sendResponse (J : RegistryCodec) (resp : Response) : Option Bytes :=
  (J.marshalResponse resp).toOption

/-- `handleConnection` from what its one `Read` returned to what it writes. -/
def Registry.handleConnection (r : Registry) (J : RegistryCodec) (o : Orders) (now : Int)
    (read : Except GoString Bytes) : Registry × Option Bytes :=
  match read with
  | .error _ => (r, none)
  | .ok buf =>
    match J.unmarshalRequest buf with
    | .error err => (r, J.sendResponse (.failed (str "解析命令失败: " ++ err)))
    | .ok cmd =>
      let (r', resp) := r.serve o now cmd
      (r', J.sendResponse resp)

inductive CheckerPc
  | starting
  | waiting
  /-- `IsExpired` has returned true; `Unregister` has not run. -/
  | expired
  | returned
  deriving DecidableEq

/-- A `heartbeatChecker`. -/
structure Checker where
  serviceName : GoString
  addr : GoString
  pc : CheckerPc
  deriving DecidableEq

structure TcpRegistry where
  registry : Registry
  keepaliveSec : Int
  now : Int
  sweeping : Bool
  checkers : List Checker
  /-- The channel `done` is closed. -/
  done : Bool
  crashed : Bool

/-- `time.Duration(sec) * time.Second`. -/
def seconds (sec : Int) : Int := int64 (sec * 1000000000)

def newTcpRegistry (keepaliveSec now : Int) : TcpRegistry :=
  let keepaliveSec := if keepaliveSec ≤ 0 then 60 else keepaliveSec
  ⟨newRegistry (seconds keepaliveSec), keepaliveSec, now, false, [], false, false⟩

inductive TcpRegistryAction
  /-- The clock moves on. -/
  | tick (d : Nat)
  /-- A connection delivers a request. -/
  | request (o : Orders) (cmd : Request)
  /-- The goroutine of `cleanExpiredServers` makes its ticker. -/
  | startSweeper
  | sweep (o : Orders)
  /-- A checker makes its ticker, or a tick lets it go on. -/
  | check (i : Nat)
  /-- A checker finds `done` closed. -/
  | stop (i : Nat)
  | close

namespace TcpRegistry

def setChecker (s : TcpRegistry) (i : Nat) (c : Checker) (pc : CheckerPc) : TcpRegistry :=
  { s with checkers := s.checkers.set i { c with pc := pc } }

/-- A goroutine panics, and the process ends. -/
def crash (s : TcpRegistry) : TcpRegistry := { s with crashed := true }

/-- `time.NewTicker` panics unless its interval is positive. -/
def checkerStep (s : TcpRegistry) (i : Nat) (c : Checker) : Option TcpRegistry :=
  match c.pc with
  | .starting =>
    if seconds (s.keepaliveSec.tdiv 3) ≤ 0 then some s.crash else some (s.setChecker i c .waiting)
  | .waiting =>
    if s.registry.isExpired c.serviceName c.addr s.now then some (s.setChecker i c .expired)
    else some s
  | .expired =>
    let s' := s.setChecker i c .returned
    some { s' with registry := (s.registry.unregister c.serviceName c.addr).1 }
  | .returned => none

/-- The request of a connection; an accepted register request starts a checker. -/
def requestStep (s : TcpRegistry) (o : Orders) (cmd : Request) : TcpRegistry :=
  let s' := { s with registry := (s.registry.serve o s.now cmd).1 }
  if cmd.action = str "register" then
    { s' with checkers := s.checkers ++ [⟨cmd.serviceName, cmd.addr, .starting⟩] }
  else s'

def step (s : TcpRegistry) (a : TcpRegistryAction) : Option TcpRegistry :=
  if s.crashed then none
  else match a with
    | .tick d => some { s with now := s.now + d }
    | .request o cmd => some (s.requestStep o cmd)
    | .startSweeper =>
      if s.sweeping then none
      else if s.registry.timeout.tdiv 2 ≤ 0 then some s.crash
      else some { s with sweeping := true }
    | .sweep o =>
      if s.sweeping then
        some { s with registry := s.registry.cleanExpiredServers o.outer o.inner s.now }
      else none
    | .check i => s.checkers[i]?.bind (s.checkerStep i)
    | .stop i =>
      match s.checkers[i]? with
      | some c =>
        if s.done ∧ c.pc = .waiting then some (s.setChecker i c .returned) else none
      | none => none
    | .close => if s.done then some s.crash else some { s with done := true }

end TcpRegistry

end Zrpc
