import Zrpc.Call

/-!
# The payload events (`call.go`, `server.go`)

The sizes in the four payload events that stats handlers are given, each as its place in the code
computes it. The code makes an event only if a stats handler is registered, and gives the same event
to every one of them.
-/

namespace Zrpc

variable {V T : Type}

/-- `stats.InPayload` and `stats.OutPayload`, without the Go value and the time. -/
structure PayloadEvent where
  client : Bool
  data : Bytes
  length : Int
  compressedLength : Int
  wireLength : Int
  deriving DecidableEq, Repr

/-! ### Client -/

/-- The `OutPayload` of `sendMsg`, for the request as `Encode` left it and the bytes written. -/
def clientOutPayload (req : Message) (order : MDOrder req.metadata) (wireData : Bytes) :
    PayloadEvent :=
  let wireLength : Int := wireData.length
  let payloadLength : Int := req.payload.length
  let compressedLength : Int :=
    if req.header.getCompressType ≠ .none then
      let serviceNameSize : Int := 4 + req.serviceName.length
      let serviceMethodSize : Int := 4 + req.serviceMethod.length
      wireLength - 11 - 4 - serviceNameSize - serviceMethodSize - (4 + metaSize order.1) - 4
    else payloadLength
  ⟨true, req.payload, payloadLength, compressedLength, wireLength⟩

/-- `sendMsg` from `Encode` on: the bytes given to `conn.Write`, and the event of a write that
succeeds. -/
def Message.sendStats (table : CompressorTable) (req : Message) (c : EncodeChoice req.metadata)
    (order : MDOrder req.metadata) : Go (Bytes × PayloadEvent) := do
  let (wireData, header) ← req.encodeWith table c
  return (wireData, clientOutPayload { req with header } order wireData)

/-- `sendMsg` on a client that is not closing, with its event. -/
def Calls.sendMsgStats (E : Env) (P : Proto V T) (table : CompressorTable)
    (c : ∀ md, EncodeChoice md) (ranged : ∀ md, MDOrder md) (order : List MDEntry)
    (calls : Calls) (ctx : CallCtx) (call : Call V) : Go (Bytes × Calls × PayloadEvent) := do
  let req ← prepareMessage E P order call ctx
  let seq := calls.sequence + 1
  let req := stampRequest seq req
  let (frame, event) ← req.sendStats table (c req.metadata) (ranged req.metadata)
  return (frame, ⟨seq, calls.pending.insert seq seq⟩, event)

/-- The length of a payload that is compressed once more, or its own length where that fails. -/
def zippedLength (table : CompressorTable) (ct : CompressType) (payload : Bytes) : Nat :=
  match table ct with
  | none => payload.length
  | some compressor =>
    match compressor.zip payload with
    | .ok compressed => compressed.length
    | .error _ => payload.length

/-- The `InPayload` of a received message, which holds the decompressed payload. -/
def inPayload (client : Bool) (table : CompressorTable) (m : Message) : PayloadEvent :=
  let uncompressedLen := m.payload.length
  let compressedLen :=
    if m.header.getCompressType ≠ .none then zippedLength table m.header.getCompressType m.payload
    else uncompressedLen
  ⟨client, m.payload, uncompressedLen, compressedLen, compressedLen + 11⟩

def clientInPayload : CompressorTable → Message → PayloadEvent := inPayload true

/-- The event of `recvMsg`, which is made once the payload is unmarshalled. -/
def recvStats (P : Proto V T) (table : CompressorTable) (t : T) (res : Message) :
    Option PayloadEvent :=
  match readResponse P t res with
  | .ok _ => some (clientInPayload table res)
  | .error _ => none

/-! ### Server -/

def serverInPayload : CompressorTable → Message → PayloadEvent := inPayload false

/-- The event of the function `df` handed to the handler. -/
def argumentStats (P : Proto V T) (table : CompressorTable) (req : Message) (t : T) :
    Option PayloadEvent :=
  match P.codecUnmarshal t req.payload with
  | .ok _ => some (serverInPayload table req)
  | .error _ => none

/-- The `OutPayload` of `processOneRequest`, for the response as it is before `sendResponse`. -/
def serverOutPayload (table : CompressorTable) (res : Message) (payload : Bytes) : PayloadEvent :=
  let uncompressedLen := payload.length
  let compressedLen :=
    if res.header.getCompressType ≠ .none ∧ compressThreshold ≤ uncompressedLen then
      zippedLength table res.header.getCompressType payload
    else uncompressedLen
  ⟨false, payload, uncompressedLen, compressedLen, compressedLen + 11⟩

/-- No event for a nil reply, nor for one that cannot be marshalled. -/
def replyStats (P : Proto V T) (table : CompressorTable) (res : Message) (reply : Option V) :
    Option PayloadEvent :=
  match reply with
  | none => none
  | some v =>
    match P.codecMarshal (some v) with
    | .ok payload => some (serverOutPayload table res payload)
    | .error _ => none

def sendResponseWith (E : Env) (P : Proto V T) (opt : ServerOption) (table : CompressorTable)
    (c : ∀ md, EncodeChoice md) (originalErr : Option GoString) (req res : Message)
    (reply : Option V) : Go Sent := do
  let res ← prepareResponse E P opt originalErr req res reply
  let (frame, _) ← res.encodeWith table (c res.metadata)
  return ⟨res, frame⟩

/-- The response once the handler has returned. -/
def handledResponse (E : Env) (opt : ServerOption) (req : Message) (attached : List MD)
    (err : Option GoString) : Go Message :=
  let res := attached.foldl setMeta (responseOf req)
  match err with
  | none => .ok res
  | some e => handleError E opt res e

/-- `processOneRequest` from the return of the handler on. -/
def answerStats (E : Env) (P : Proto V T) (opt : ServerOption) (table : CompressorTable)
    (c : ∀ md, EncodeChoice md) (req : Message) (attached : List MD) (reply : Option V)
    (err : Option GoString) : Go (Option PayloadEvent × Sent) := do
  let res ← handledResponse E opt req attached err
  let event := replyStats P table res reply
  let sent ← sendResponseWith E P opt table c err req res reply
  return (event, sent)

/-- The body of `processOneRequest` for a request that is no heartbeat, with the event of its
reply. -/
def Server.handleRequestStats (E : Env) (P : Proto V T) (S : Server V T) (table : CompressorTable)
    (c : ∀ md, EncodeChoice md) (ctx : Ctx) (req : Message) : Go (Option PayloadEvent × Sent) := do
  let svc := S.serviceMap req.serviceName
  let err := if svc.isNone then some (str "zrpc: can't find service " ++ req.serviceName) else none
  let methods ← Server.methodsOf svc
  match methods req.serviceMethod with
  | none => do
    let sent ← sendResponseWith E P S.opt table c err req req.clone none
    return (none, sent)
  | some md =>
    match md.handler ctx (decodeArgument P req) with
    | .panicked => .error .panic
    | .returned attached reply err => answerStats E P S.opt table c req attached reply err

end Zrpc
