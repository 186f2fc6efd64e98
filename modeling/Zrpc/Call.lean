import Zrpc.Codec
import Zrpc.Message
import Zrpc.Server
import Zrpc.Timeout

/-!
# One call on the client (`call.go`)

`newCall`, `prepareMessage`, and the parts of `sendMsg` and `recvMsg` that make the request frame
and read the response. Stats handlers only observe and are left out.
-/

namespace Zrpc

variable {V T : Type}

structure Call (V : Type) where
  serviceName : GoString
  serviceMethod : GoString
  req : Option V

/-- `strings.LastIndex(s, "/")`. -/
def lastSlash (s : GoString) : Option Nat :=
  (s.reverse.findIdx? (fun c => c = 47)).map (fun k => s.length - 1 - k)

def newCall (method : GoString) (args : V) : Go (Call V) :=
  let method := if method.head? = some 47 then method.tail else method
  match lastSlash method with
  | none => fail (str "invalid method name syntax")
  | some pos => .ok ⟨method.take pos, method.drop (pos + 1), some args⟩

/-- What a call reads off its context: the outgoing metadata, and the time to the deadline. -/
structure CallCtx where
  outgoing : Option RawMD
  timeout : Option Int

def userAgentHeader : GoString := str "user-agent"
def userAgent : GoString := str "zrpc/1.2.9"

/-- The user agent behind the user's own metadata; `order` is the order in which the outgoing map is
ranged over. -/
def requestMetadata (E : Env) (order : List MDEntry) (ctx : CallCtx) : Go MD :=
  let md := MD.new E [(userAgentHeader, userAgent)]
  match ctx.outgoing with
  | none => .ok md
  | some raw => do
    let userMD ← fromOutgoingContext E order raw
    return MD.join [userMD, md]

/-- The timeout header of a context whose deadline has not passed. -/
def addTimeout (E : Env) (timeout : Option Int) (md : MD) : MD :=
  match timeout with
  | none => md
  | some timeout =>
    if 0 < timeout then md.set E timeoutHeader [encodeTimeout timeout] else md

def prepareMessage (E : Env) (P : Proto V T) (order : List MDEntry) (call : Call V)
    (ctx : CallCtx) : Go Message :=
  match P.codecMarshal call.req with
  | .error e => fail e
  | .ok payload => do
    let header := newMessage.header.setMessageType .request
    let header := if 1024 < payload.length then header.setCompressType .gzip else header
    let md ← requestMetadata E order ctx
    return ⟨header, call.serviceName, call.serviceMethod, addTimeout E ctx.timeout md, payload⟩

/-- The pending map: under each sequence number the `Seq` of the call that waits for it. -/
abbrev Pending := AList (fun _ : UInt64 => UInt64)

/-- The heartbeat bit and the sequence number `sendMsg` puts into a request. -/
def stampRequest (seq : UInt64) (req : Message) : Message :=
  let header := if req.serviceName = [] ∧ req.serviceMethod = [] then req.header.setHeartBeat true
    else req.header
  { req with header := header.setSeq seq }

/-- The sequence counter and the pending map of a client. -/
structure Calls where
  sequence : UInt64
  pending : Pending

/-- `sendMsg` on a client that is not closing, up to the bytes given to `conn.Write`. -/
def Calls.sendMsg (E : Env) (P : Proto V T) (c : ∀ md, EncodeChoice md) (order : List MDEntry)
    (calls : Calls) (ctx : CallCtx) (call : Call V) : Go (Bytes × Calls) := do
  let req ← prepareMessage E P order call ctx
  let seq := calls.sequence + 1
  let req := stampRequest seq req
  let (frame, _) ← req.encode E (c req.metadata)
  return (frame, ⟨seq, calls.pending.insert seq seq⟩)

/-- The lookup of `recvMsg`, which removes the entry it finds. -/
def takePending (pending : Pending) (seq : UInt64) : Except GoString Pending :=
  match pending.lookup seq with
  | none => .error (str "missing sequence " ++ str (toString seq.toNat) ++
      str " in client, response mismatch")
  | some callSeq =>
    if callSeq ≠ seq then .error (str "sequence mismatch: expected " ++
      str (toString callSeq.toNat) ++ str ", got " ++ str (toString seq.toNat))
    else .ok (pending.erase seq)

/-- The checks of `recvMsg` on a response that was waited for, and the unmarshalling of its
payload into a reply of type `t`. -/
def readResponse (P : Proto V T) (t : T) (res : Message) : Except GoString V :=
  if res.header.getMessageType ≠ .response ∨ res.header.checkMagicNumber = false then
    .error (str "invalid response message")
  else if res.header.getMessageStatusType = .error then
    match res.metadata.values serviceError with
    | text :: _ => .error text
    | [] => .error (str "server error")
  else P.codecUnmarshal t res.payload

/-- The text of an error. `Decode` raises no panic (`decode_ne_panic`). -/
def Fault.text : Fault → GoString
  | .error text => text
  | .panic => []

/-- `recvMsg` on the bytes its connection delivers: the outcome and the pending map it leaves. -/
def recvMsg (E : Env) (P : Proto V T) (maxReceiveMessageSize : Int) (pending : Pending) (t : T)
    (r : Reader) : Except GoString V × Pending :=
  match (decode E maxReceiveMessageSize r).1 with
  | .error fault => (.error (str "failed to decode response: " ++ fault.text), pending)
  | .ok res =>
    match takePending pending res.header.seq with
    | .error e => (.error e, pending)
    | .ok pending => (readResponse P t res, pending)

end Zrpc
