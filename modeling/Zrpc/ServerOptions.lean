import Zrpc.Server

/-!
# Server options (`server_option.go`) and `NewServer`

`defaultServerOption` is a pointer. `NewServer` runs the options on the record behind it, and
every server keeps that pointer, so the process is modelled with its option records on a heap.
-/

namespace Zrpc

/-- A panic in a handler or a middleware is a panic of its caller. -/
abbrev Handler (C Q R : Type) := C → Q → Go R

abbrev ServerMiddleware (C Q I R : Type) := C → Q → I → Handler C Q R → Go R

variable {C Q I R TLS H : Type}

/-- A call of a middleware value, which may be nil. -/
def callMiddleware : Option (ServerMiddleware C Q I R) → ServerMiddleware C Q I R
  | some mw => mw
  | none => fun _ _ _ _ => .error .panic

def getChainHandler (mws : List (Option (ServerMiddleware C Q I R))) (pos : Nat) (info : I)
    (finalHandler : Handler C Q R) : Handler C Q R :=
  if _ : pos + 1 < mws.length then fun ctx req =>
    callMiddleware mws[pos + 1] ctx req info (getChainHandler mws (pos + 1) info finalHandler)
  else finalHandler
  termination_by mws.length - pos

def chainMiddlewares (mws : List (Option (ServerMiddleware C Q I R))) :
    ServerMiddleware C Q I R := fun ctx req info handler =>
  callMiddleware mws[0]?.join ctx req info (getChainHandler mws 0 info handler)

/-- The whole record `serverOption`. -/
structure FullServerOption (C Q I R TLS H : Type) extends ServerOption where
  srvMiddleware : Option (ServerMiddleware C Q I R)
  chainMiddlewares : List (Option (ServerMiddleware C Q I R))
  tlsConfig : Option TLS
  readTimeout : Int
  writeTimeout : Int
  maxSendMessageSize : Int
  workerPoolSize : Int
  minWorkerPoolSize : Int
  maxWorkerPoolSize : Int
  adjustInterval : Int
  enableDebug : Bool
  statsHandlers : List H

/-- The record `defaultServerOption` points to when the process starts. -/
def FullServerOption.initial : FullServerOption C Q I R TLS H where
  authFunc := none
  serverErrorFunc := none
  maxReceiveMessageSize := 1024 * 1024 * 5
  enableWorkerPool := false
  taskQueueSize := 10000
  srvMiddleware := none
  chainMiddlewares := []
  tlsConfig := none
  readTimeout := 120 * 10 ^ 9
  writeTimeout := 120 * 10 ^ 9
  maxSendMessageSize := 2 ^ 31 - 1
  workerPoolSize := 20
  minWorkerPoolSize := 5
  maxWorkerPoolSize := 100
  adjustInterval := 5 * 10 ^ 9
  enableDebug := false
  statsHandlers := []

/-- The values of type `ServerOption`, one constructor for each function that makes one. -/
inductive ServerOpt (C Q I R TLS H : Type)
  | withMiddleware (mw : Option (ServerMiddleware C Q I R))
  | withChainMiddleware (mws : List (Option (ServerMiddleware C Q I R)))
  | withReadTimeout (duration : Int)
  | withWriteTimeout (duration : Int)
  | withTLSConfig (tls : Option TLS)
  | withMaxReceiveMessageSize (max : Int)
  | withMaxSendMessageSize (max : Int)
  | withWorkerPool (size : Int)
  | withTaskQueueSize (size : Int)
  | withWorkerPoolAdjustInterval (interval : Int)
  | withWorkerPoolSize (min max : Int)
  | withStatsHandler (handler : H)

def ServerOpt.apply (o : ServerOpt C Q I R TLS H) (opt : FullServerOption C Q I R TLS H) :
    Go (FullServerOption C Q I R TLS H) :=
  match o with
  | .withMiddleware mw =>
    if opt.srvMiddleware.isSome then .error .panic else .ok { opt with srvMiddleware := mw }
  | .withChainMiddleware mws => .ok { opt with chainMiddlewares := opt.chainMiddlewares ++ mws }
  | .withReadTimeout duration => .ok { opt with readTimeout := duration }
  | .withWriteTimeout duration => .ok { opt with writeTimeout := duration }
  | .withTLSConfig tls => .ok { opt with tlsConfig := tls }
  | .withMaxReceiveMessageSize max => .ok { opt with maxReceiveMessageSize := max }
  | .withMaxSendMessageSize max => .ok { opt with maxSendMessageSize := max }
  | .withWorkerPool size =>
    .ok (if 0 < size then
      { opt with
        enableWorkerPool := true
        workerPoolSize := size
        minWorkerPoolSize := size / 4
        maxWorkerPoolSize := int64 (size * 2) }
    else { opt with enableWorkerPool := true })
  | .withTaskQueueSize size =>
    .ok (if 0 < size then { opt with taskQueueSize := size.toNat } else opt)
  | .withWorkerPoolAdjustInterval interval =>
    .ok (if 0 < interval then { opt with adjustInterval := interval } else opt)
  | .withWorkerPoolSize min max =>
    .ok (if 0 < min ∧ min ≤ max then
      { opt with
        enableWorkerPool := true
        minWorkerPoolSize := min
        maxWorkerPoolSize := max
        workerPoolSize := (int64 (min + max)).tdiv 2 }
    else { opt with enableWorkerPool := true })
  | .withStatsHandler handler => .ok { opt with statsHandlers := opt.statsHandlers ++ [handler] }

/-- The loop `for _, o := range opts { o(opt) }`. -/
def applyAll (opts : List (ServerOpt C Q I R TLS H)) (opt : FullServerOption C Q I R TLS H) :
    Go (FullServerOption C Q I R TLS H) :=
  opts.foldlM (fun opt o => o.apply opt) opt

def chainServerMiddlewares (opt : FullServerOption C Q I R TLS H) :
    FullServerOption C Q I R TLS H :=
  let middlewares :=
    if opt.srvMiddleware.isSome then opt.srvMiddleware :: opt.chainMiddlewares
    else opt.chainMiddlewares
  { opt with
    srvMiddleware :=
      match middlewares with
      | [] => none
      | [mw] => mw
      | mws => some (Zrpc.chainMiddlewares mws) }

/-- The option records of the process and, for each server made so far, its pointer `opt`. -/
structure Process (C Q I R TLS H : Type) where
  heap : Nat → FullServerOption C Q I R TLS H
  servers : List Nat

/-- The pointer in the variable `defaultServerOption`. -/
def defaultServerOption : Nat := 0

def Process.init : Process C Q I R TLS H where
  heap := fun _ => .initial
  servers := []

/-- `make([]int32, n)` panics on a negative length. -/
def makeInt32s (n : Int) : Go Unit := if n < 0 then .error .panic else .ok ()

def newServer (opts : List (ServerOpt C Q I R TLS H)) (p : Process C Q I R TLS H) :
    Go (Process C Q I R TLS H) := do
  let opt := defaultServerOption
  let record ← applyAll opts (p.heap opt)
  makeInt32s record.maxWorkerPoolSize
  return { heap := Function.update p.heap opt (chainServerMiddlewares record)
           servers := p.servers ++ [opt] }

/-- A sequence of `NewServer` calls in one process. -/
def newServers (calls : List (List (ServerOpt C Q I R TLS H))) (p : Process C Q I R TLS H) :
    Go (Process C Q I R TLS H) :=
  calls.foldlM (fun p opts => newServer opts p) p

/-- The options each server runs with now. -/
def Process.configs (p : Process C Q I R TLS H) : List (FullServerOption C Q I R TLS H) :=
  p.servers.map p.heap

end Zrpc
