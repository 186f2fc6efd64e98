import Zrpc.Codec
import Zrpc.Message
import Zrpc.Timeout

/-!
# One request on the server (`server.go`)

`serveRequest` and `processOneRequest` up to the bytes given to `conn.Write`. Stats handlers only
observe and are left out. A handler sees its context and the `dec` function it was given, and
closes over the service implementation and the middleware chain.
-/

namespace Zrpc

variable {V T : Type}

/-- What a handler can read off its context: the incoming metadata, and the deadline as the time that
the request gave it. A handler here is a function of these; what it makes of a cancellation that comes
while it runs is not part of the model. -/
structure Ctx where
  incoming : MD
  timeout : Option Int

/-- `serveRequest` defers the `cancel` of a context with a deadline. It therefore cancels the context
when it returns, right after it has dispatched the request and whether or not the handler has run. -/
def Ctx.cancelledOnReturn (ctx : Ctx) : Bool := ctx.timeout.isSome

/-- A handler returns, having called `SetMeta` with the listed maps, or panics. -/
inductive HandlerResult (V : Type)
  | returned (attached : List MD) (reply : Option V) (err : Option GoString)
  | panicked

structure MethodDesc (V T : Type) where
  handler : Ctx → (T → Except GoString V) → HandlerResult V

structure Service (V T : Type) where
  methods : GoString → Option (MethodDesc V T)

structure ServerOption where
  authFunc : Option (Ctx → Message → GoString → Option GoString)
  serverErrorFunc : Option (Message → GoString → GoString)
  maxReceiveMessageSize : Int
  enableWorkerPool : Bool
  taskQueueSize : Nat

structure Server (V T : Type) where
  opt : ServerOption
  serviceMap : GoString → Option (Service V T)

def serviceError : GoString := str "__zrpc_error__"
def authKey : GoString := str "zrpc_auth"

def setMeta (res : Message) (md : MD) : Message :=
  if md.len = 0 then res else { res with metadata := MD.join [res.metadata, md] }

/-- The text `handleError` puts into the response. -/
def ServerOption.errorText (opt : ServerOption) (res : Message) (err : GoString) : GoString :=
  match opt.serverErrorFunc with
  | some f => f res err
  | none => err

def handleError (E : Env) (opt : ServerOption) (res : Message) (err : GoString) : Go Message := do
  let res := { res with header := res.header.setMessageStatusType .error }
  let val := opt.errorText res err
  if res.metadata.len = 0 then return { res with metadata := MD.new E [(serviceError, val)] }
  let pair ← MD.pairs E [serviceError, val]
  return { res with metadata := MD.join [res.metadata, pair] }

/-- The part of `sendResponse` before `Encode`: the message it encodes. -/
def prepareResponse (E : Env) (P : Proto V T) (opt : ServerOption) (originalErr : Option GoString)
    (req res : Message) (reply : Option V) : Go Message := do
  let (res, d) ← match reply with
    | none => pure (res, [])
    | some v =>
      match P.codecMarshal (some v) with
      | .ok d => pure (res, d)
      | .error marshalErr =>
        match originalErr with
        | none => do
          let res ← handleError E opt res marshalErr
          pure (res, [])
        | some _ => pure (res, [])
  if d.length = 0 then return res
  let res := { res with payload := d }
  if 1024 < d.length ∧ req.header.getCompressType ≠ .none then
    return { res with header := res.header.setCompressType req.header.getCompressType }
  return res

/-- One `conn.Write`: the bytes, and the message `Encode` made them from. -/
structure Sent where
  message : Message
  frame : Bytes

def Message.send (E : Env) (c : ∀ md, EncodeChoice md) (res : Message) : Go Sent := do
  let (frame, _) ← res.encode E (c res.metadata)
  return ⟨res, frame⟩

def sendResponse (E : Env) (P : Proto V T) (opt : ServerOption) (c : ∀ md, EncodeChoice md)
    (originalErr : Option GoString) (req res : Message) (reply : Option V) : Go Sent := do
  let res ← prepareResponse E P opt originalErr req res reply
  res.send E c

/-- The clone of a request with message type Response. -/
def responseOf (req : Message) : Message :=
  let res := req.clone
  { res with header := res.header.setMessageType .response }

/-- The function `df` handed to the handler. -/
def decodeArgument (P : Proto V T) (req : Message) (t : T) : Except GoString V :=
  match P.codecUnmarshal t req.payload with
  | .ok v => .ok v
  | .error e => .error (str "zrpc: error unmarshalling request: " ++ e)

/-- The field access `srv.methods`, which panics on a nil service. -/
def Server.methodsOf (svc : Option (Service V T)) : Go (GoString → Option (MethodDesc V T)) :=
  match svc with
  | some srv => .ok srv.methods
  | none => .error .panic

/-- The body of `processOneRequest` for a request that is no heartbeat. -/
def Server.handleRequest (E : Env) (P : Proto V T) (S : Server V T) (c : ∀ md, EncodeChoice md)
    (ctx : Ctx) (req : Message) : Go Sent := do
  let svc := S.serviceMap req.serviceName
  let err := if svc.isNone then some (str "zrpc: can't find service " ++ req.serviceName) else none
  let methods ← Server.methodsOf svc
  match methods req.serviceMethod with
  | none => sendResponse E P S.opt c err req req.clone none
  | some md =>
    let res := responseOf req
    match md.handler ctx (decodeArgument P req) with
    | .panicked => .error .panic
    | .returned attached reply none =>
      sendResponse E P S.opt c none req (attached.foldl setMeta res) reply
    | .returned attached reply (some e) => do
      let res ← handleError E S.opt (attached.foldl setMeta res) e
      sendResponse E P S.opt c (some e) req res reply

def heartbeatReply (E : Env) (c : ∀ md, EncodeChoice md) (req : Message) : Go Sent :=
  (responseOf req).send E c

/-- `processOneRequest`: what it writes to the connection. Its deferred `recover` swallows every
panic. -/
def Server.processOneRequest (E : Env) (P : Proto V T) (S : Server V T)
    (c : ∀ md, EncodeChoice md) (ctx : Ctx) (req : Message) : List Sent :=
  let sent := if req.header.isHeartBeat then heartbeatReply E c req
    else S.handleRequest E P c ctx req
  match sent with
  | .ok sent => [sent]
  | .error _ => []

/-- `auth` looks the token up without checking that there is one. -/
def ServerOption.auth (opt : ServerOption) (ctx : Ctx) (req : Message) : Go Unit :=
  match opt.authFunc with
  | none => .ok ()
  | some authFunc => do
    let token ← index (req.metadata.values authKey) 0
    match authFunc ctx req token with
    | none => .ok ()
    | some e => fail e

/-- The context `serveRequest` builds from the request's metadata. -/
def requestCtx (E : Env) (req : Message) : Go Ctx :=
  match req.metadata.get E timeoutHeader with
  | [] => .ok ⟨req.metadata, none⟩
  | timeoutStr :: _ =>
    match decodeTimeout E timeoutStr with
    | .ok timeout => .ok ⟨req.metadata, if 0 < timeout then some timeout else none⟩
    | .error (.error _) => .ok ⟨req.metadata, none⟩
    | .error .panic => .error .panic

/-- The answer of `serveRequest` to a request that `auth` refused. -/
def Server.reject (E : Env) (P : Proto V T) (S : Server V T) (c : ∀ md, EncodeChoice md)
    (req : Message) (err : GoString) : Go Sent := do
  let res ← handleError E S.opt (responseOf req) err
  sendResponse E P S.opt c (some err) req res none

/-- `serveRequest` up to the dispatch: the context for `processOneRequest`, or the answer to a
request that was not let in. -/
def Server.authorize (E : Env) (P : Proto V T) (S : Server V T) (c : ∀ md, EncodeChoice md)
    (req : Message) : Go (Ctx ⊕ Sent) := do
  let ctx ← requestCtx E req
  let verdict := if req.header.isHeartBeat then .ok () else S.opt.auth ctx req
  match verdict with
  | .ok () => return .inl ctx
  | .error .panic => .error .panic
  | .error (.error err) => Sum.inr <$> S.reject E P c req err

end Zrpc
