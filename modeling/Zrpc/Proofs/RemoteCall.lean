import Zrpc.Call
import Zrpc.Proofs.Answer

/-!
# A remote call equals a local call

One attempt is followed from `newCall` to the end of `recvMsg`: what the client reports is what
the handler returned.
-/

namespace Zrpc.Proofs
open Zrpc.Lib

variable {V T : Type}

/-! ### The request -/

/-- The method string of generated code: `/service/method`. -/
def fullMethod (svc mtd : GoString) : GoString := 47 :: (svc ++ 47 :: mtd)

lemma lastSlash_append (svc : GoString) {mtd : GoString} (h : 47 ∉ mtd) :
    lastSlash (svc ++ 47 :: mtd) = some svc.length := by
  have hfind : (svc ++ 47 :: mtd).reverse.findIdx? (fun c => c = 47) = some mtd.length := by
    have hnone : mtd.reverse.findIdx? (fun c => c = 47) = none := by
      rw [List.findIdx?_eq_none_iff]
      intro c hc
      have hmem : c ∈ mtd := List.mem_reverse.mp hc
      simp only [decide_eq_false_iff_not]
      exact fun he => h (he ▸ hmem)
    rw [List.reverse_append, List.reverse_cons, List.append_assoc, List.findIdx?_append, hnone]
    simp [List.findIdx?_cons]
  unfold lastSlash
  rw [hfind]
  simp

/-- A method string without its first slash. -/
def bareMethod (method : GoString) : GoString :=
  if method.head? = some 47 then method.tail else method

/-- `newCall` splits the bare string at its last slash. -/
lemma newCall_bare {method svc mtd : GoString} (hbare : bareMethod method = svc ++ 47 :: mtd)
    (h : 47 ∉ mtd) (args : V) : newCall method args = .ok ⟨svc, mtd, some args⟩ := by
  unfold bareMethod at hbare
  unfold newCall
  simp only [hbare, lastSlash_append svc h]
  simp

lemma newCall_fullMethod (svc : GoString) {mtd : GoString} (h : 47 ∉ mtd) (args : V) :
    newCall (fullMethod svc mtd) args = .ok ⟨svc, mtd, some args⟩ :=
  newCall_bare rfl h args

lemma values_insert (md : MD) (k k' : GoString) (vs : List GoString) :
    MD.values (md.insert k vs) k' = if k = k' then vs else md.values k' := by
  unfold MD.values
  by_cases h : k = k'
  · subst h
    simp
  · rw [AList.lookup_insert_ne (Ne.symm h), if_neg h]

lemma values_new (E : Env) (key val k : GoString) : (MD.new E [(key, val)]).values k =
    if E.toLower key = k then [val] else [] := by
  simp [MD.new, values_push]

/-- The outgoing metadata has an even number of appended strings and at most 254 values per key. -/
def OutgoingFits (E : Env) (order : List MDEntry) (ctx : CallCtx) : Prop :=
  ∀ raw, ctx.outgoing = some raw → ∃ user, fromOutgoingContext E order raw = .ok user ∧
    ∀ k, (user.values k).length ≤ 254

lemma requestMetadata_ok (E : Env) (order : List MDEntry) (ctx : CallCtx)
    (hout : OutgoingFits E order ctx) :
    ∃ md, requestMetadata E order ctx = .ok md ∧ ∀ k, (md.values k).length ≤ 255 := by
  have hagent : ∀ k, ((MD.new E [(userAgentHeader, userAgent)]).values k).length ≤ 1 := by
    intro k
    rw [values_new]
    split <;> simp
  unfold requestMetadata
  cases hctx : ctx.outgoing with
  | none => exact ⟨_, rfl, fun k => (hagent k).trans (by omega)⟩
  | some raw =>
    obtain ⟨user, huser, hcount⟩ := hout raw hctx
    refine ⟨MD.join [user, MD.new E [(userAgentHeader, userAgent)]], ?_, fun k => ?_⟩
    · simp only [huser, Bind.bind, Except.bind, Pure.pure, Except.pure]
    · have h1 := hcount k
      have h2 := hagent k
      rw [values_join_pair, List.length_append]
      omega

lemma length_addTimeout (E : Env) (timeout : Option Int) {md : MD}
    (h : ∀ k, (md.values k).length ≤ 255) (k : GoString) :
    ((addTimeout E timeout md).values k).length ≤ 255 := by
  unfold addTimeout
  split
  · exact h k
  · rename_i timeout
    split
    · have hset : md.set E timeoutHeader [encodeTimeout timeout] =
          md.insert (E.toLower timeoutHeader) [encodeTimeout timeout] := rfl
      rw [hset, values_insert]
      split
      · simp
      · exact h k
    · exact h k

lemma length_entry_le {md : MD} {n : Nat} (h : ∀ k, (md.values k).length ≤ n) :
    ∀ e ∈ md.entries, e.2.length ≤ n := by
  intro e he
  have hv : md.values e.1 = e.2 := by
    unfold MD.values
    rw [AList.mem_lookup_iff.mpr he]
    rfl
  exact hv ▸ h e.1

/-- What `prepareMessage` and the stamp of `sendMsg` make of a call. -/
structure RequestFor (svc mtd : GoString) (payload : Bytes) (seq : UInt64) (req : Message) :
    Prop where
  serviceName : req.serviceName = svc
  serviceMethod : req.serviceMethod = mtd
  payload : req.payload = payload
  magic : req.header.magic = magicNumber
  heartbeat : req.header.isHeartBeat = false
  status : req.header.getMessageStatusType = .normal
  seq : req.header.seq = seq

lemma prepareMessage_ok (E : Env) (P : Proto V T) (order : List MDEntry) (ctx : CallCtx)
    (svc mtd : GoString) (args : V) {payload : Bytes}
    (hpayload : P.codecMarshal (some args) = .ok payload) (hout : OutgoingFits E order ctx) :
    ∃ req, prepareMessage E P order ⟨svc, mtd, some args⟩ ctx = .ok req ∧
      RequestFor svc mtd payload 0 req ∧ ∀ e ∈ req.metadata.entries, e.2.length ≤ 255 := by
  obtain ⟨md, hmd, hcount⟩ := requestMetadata_ok E order ctx hout
  unfold prepareMessage
  simp only [hpayload, hmd, Bind.bind, Except.bind]
  refine ⟨_, rfl, ⟨rfl, rfl, rfl, ?_, ?_, ?_, ?_⟩,
    length_entry_le (length_addTimeout E ctx.timeout hcount)⟩
  all_goals
    dsimp only
    split <;> decide

lemma requestFor_stamp {svc mtd : GoString} {payload : Bytes} {req : Message}
    (seq : UInt64) (hnames : svc ≠ [] ∨ mtd ≠ []) (h : RequestFor svc mtd payload 0 req) :
    RequestFor svc mtd payload seq (stampRequest seq req) := by
  have hstamp : stampRequest seq req = { req with header := req.header.setSeq seq } := by
    unfold stampRequest
    rw [if_neg]
    rw [h.serviceName, h.serviceMethod]
    tauto
  rw [hstamp]
  exact ⟨h.serviceName, h.serviceMethod, h.payload, h.magic, h.heartbeat, h.status, rfl⟩

/-- The data length fits the length field and the receiver's limit. -/
def FitsFrame (E : Env) (maxLength : Int) (m : Message) : Prop :=
  dataLen E m < 2 ^ 32 ∧ (maxLength ≤ 0 ∨ (dataLen E m : Int) ≤ maxLength)

lemma choosePayload_flags (E : Env) (m : Message) : SameFlags m.header (m.choosePayload E).1 ∧
    (m.choosePayload E).1.isHeartBeat = m.header.isHeartBeat := by
  rcases choosePayload_header E m with h | h
  · rw [h]
    exact ⟨⟨by simp, by simp, rfl, rfl⟩, by simp⟩
  · rw [h]
    exact ⟨⟨rfl, rfl, rfl, rfl⟩, rfl⟩

/-- A request arrives as it was sent, apart from the compress bit and the order of its metadata. -/
lemma decode_request (E : Env) (hE : GzipLaw E) {svc mtd : GoString} {payload : Bytes} {seq : UInt64}
    {req : Message} (h : RequestFor svc mtd payload seq req)
    (hcount : ∀ e ∈ req.metadata.entries, e.2.length ≤ 255) {maxLength : Int}
    (hfits : FitsFrame E maxLength req) (c : EncodeChoice req.metadata) (failure : GoString) :
    ∃ frame header req', req.encode E c = .ok (frame, header) ∧
      (decode E maxLength ⟨frame, failure⟩).1 = .ok req' ∧ RequestFor svc mtd payload seq req' := by
  have hmagic : req.header.checkMagicNumber = true := by
    simp [Header.checkMagicNumber, h.magic]
  obtain ⟨frame, henc, hdec⟩ := decode_encode E hE req c hmagic hcount maxLength hfits.1 hfits.2 []
    failure
  rw [List.append_nil] at hdec
  obtain ⟨hflags, hheart⟩ := choosePayload_flags E req
  exact ⟨frame, _, _, henc, congrArg Prod.fst hdec, h.serviceName, h.serviceMethod, h.payload,
    hflags.magic.trans h.magic, hheart.trans h.heartbeat, hflags.status.trans h.status,
    hflags.seq.trans h.seq⟩

/-! ### The response -/

/-- The error entry of a response, or none. -/
def errorMetadata (E : Env) : Option GoString → MD
  | none => ∅
  | some e => MD.new E [(serviceError, e)]

/-- The message that answers a request with the given reply and error. -/
structure ResponseFor (E : Env) (P : Proto V T) (seq : UInt64) (reply : Option V)
    (err : Option GoString) (res : Message) : Prop where
  type : res.header.getMessageType = .response
  status : res.header.getMessageStatusType = if err.isSome then .error else .normal
  seq : res.header.seq = seq
  magic : res.header.magic = magicNumber
  metadata : res.metadata = errorMetadata E err
  payload : ∀ d, marshalReply P reply = .ok d → res.payload = d

section Handled

variable {E : Env} {P : Proto V T} {S : Server V T} {c : ∀ md, EncodeChoice md} {ctx : Ctx}
  {svc mtd : GoString} {payload : Bytes} {seq : UInt64} {req : Message} {srv : Service V T}
  {md : MethodDesc V T} {reply : Option V}

/-- A handler that returns without attaching metadata is answered with its reply and error. -/
lemma handleRequest_response (hreq : RequestFor svc mtd payload seq req)
    (hS : S.opt.serverErrorFunc = none) (hsrv : S.serviceMap svc = some srv)
    (hmd : srv.methods mtd = some md) {err : Option GoString}
    (hh : md.handler ctx (decodeArgument P req) = .returned [] reply err)
    (hk : err ≠ none ∨ ∃ d, marshalReply P reply = .ok d) :
    ∃ res, S.handleRequest E P c ctx req = res.send E c ∧ ResponseFor E P seq reply err res := by
  obtain ⟨htype, hstatus, hseq⟩ := responseOf_header req
  have hmagic : (responseOf req).header.magic = magicNumber := hreq.magic
  rw [hreq.status] at hstatus
  rw [hreq.seq] at hseq
  rw [← hreq.serviceName] at hsrv
  rw [← hreq.serviceMethod] at hmd
  cases err with
  | none =>
    obtain ⟨res, hpre, hmeta, hpay, hflags⟩ :=
      prepareResponse_kept E P S.opt none req (responseOf req) reply rfl hk
    refine ⟨res, ?_, hflags.type.trans htype, hflags.status.trans hstatus, hflags.seq.trans hseq,
      hflags.magic.trans hmagic, hmeta, hpay⟩
    rw [handleRequest_returned E P S c ctx req hsrv hmd hh]
    unfold sendResponse
    dsimp only [List.foldl_nil]
    rw [hpre]
    rfl
  | some e =>
    have herr : handleError E S.opt (responseOf req) e = .ok { responseOf req with
        header := (responseOf req).header.setMessageStatusType .error
        metadata := MD.new E [(serviceError, e)] } := by
      unfold handleError ServerOption.errorText
      rw [hS]
      rfl
    obtain ⟨res, hpre, hmeta, hpay, hflags⟩ := prepareResponse_kept E P S.opt (some e) req
      { responseOf req with
        header := (responseOf req).header.setMessageStatusType .error
        metadata := MD.new E [(serviceError, e)] } reply rfl hk
    refine ⟨res, ?_, hflags.type.trans (by simp [htype]), hflags.status.trans (by simp),
      hflags.seq.trans hseq, hflags.magic.trans hmagic, hmeta, hpay⟩
    unfold Server.handleRequest
    simp only [hsrv, Server.methodsOf, Bind.bind, Except.bind, hmd, hh, List.foldl_nil, herr]
    unfold sendResponse
    rw [hpre]
    rfl

end Handled

lemma values_errorMetadata (E : Env) (err : Option GoString)
    {order : List MDEntry} (h : order.Perm (errorMetadata E err).entries) :
    (appendAll E ∅ order).values serviceError = err.toList := by
  cases err with
  | none =>
    have hnil : order = [] := List.perm_nil.mp h
    rw [hnil]
    rfl
  | some e =>
    have hone : order = [⟨E.toLower serviceError, [e]⟩] := List.perm_singleton.mp h
    rw [hone, values_appendAll, toLower_serviceError]
    simp [toLower_serviceError]

/-- What the client makes of a response it waits for. -/
lemma recvMsg_response (E : Env) (hE : GzipLaw E) (P : Proto V T) {maxLength : Int}
    {pending : Pending} {seq : UInt64} (hpending : pending.lookup seq = some seq) (t : T)
    {reply : Option V} {err : Option GoString} {res : Message}
    (hres : ResponseFor E P seq reply err res) (hfits : FitsFrame E maxLength res)
    (c : ∀ md, EncodeChoice md) (failure : GoString) :
    ∃ frame, res.send E c = .ok ⟨res, frame⟩ ∧
      (recvMsg E P maxLength pending t ⟨frame, failure⟩).1 =
        match err with
        | some e => .error e
        | none => P.codecUnmarshal t res.payload := by
  have hmagic : res.header.checkMagicNumber = true := by
    simp [Header.checkMagicNumber, hres.magic]
  have hcount : ∀ e ∈ res.metadata.entries, e.2.length ≤ 255 := by
    apply length_entry_le
    intro k
    rw [hres.metadata]
    cases err with
    | none => simp [errorMetadata]
    | some e =>
      rw [errorMetadata, values_new]
      split <;> simp
  obtain ⟨frame, henc, hdec⟩ := decode_encode E hE res (c res.metadata) hmagic hcount maxLength
    hfits.1 hfits.2 [] failure
  rw [List.append_nil] at hdec
  refine ⟨frame, ?_, ?_⟩
  · unfold Message.send
    rw [henc]
    rfl
  · obtain ⟨hflags, -⟩ := choosePayload_flags E res
    have hseq : (res.choosePayload E).1.seq = seq := hflags.seq.trans hres.seq
    have htake : takePending pending seq = .ok (pending.erase seq) := by
      unfold takePending
      rw [hpending]
      simp
    unfold recvMsg
    rw [hdec]
    dsimp only
    rw [hseq, htake]
    dsimp only
    have htype := hflags.type.trans hres.type
    have hstatus := hflags.status.trans hres.status
    have hcheck : (res.choosePayload E).1.checkMagicNumber = true := by
      simp [Header.checkMagicNumber, hflags.magic.trans hres.magic]
    have htext : (appendAll E ∅ (c res.metadata).writeOrder).values serviceError = err.toList :=
      values_errorMetadata E err (hres.metadata ▸ (c res.metadata).write_perm)
    unfold readResponse
    simp only [htype, hcheck, hstatus, htext, ne_eq, not_true_eq_false, Bool.true_eq_false, or_self,
      if_false]
    cases err <;> simp

/-! ### End to end -/

/-- One attempt of a call over a fresh connection: the request as the server decodes it, the context
it is handled in, and what `recvMsg` returns. -/
def remoteAttempt (E : Env) (P : Proto V T) (S : Server V T) (cc cs : ∀ md, EncodeChoice md)
    (order : List MDEntry) (maxReceiveMessageSize : Int) (calls : Calls) (method : GoString)
    (args : V) (t : T) (ctx : CallCtx) : Go (Message × Ctx × Except GoString V) := do
  let call ← newCall method args
  let (frame, calls) ← calls.sendMsg E P cc order ctx call
  let req ← (decode E S.opt.maxReceiveMessageSize ⟨frame, ioEOF⟩).1
  let sctx ← requestCtx E req
  let sent := S.processOneRequest E P cs sctx req
  let r := recvMsg E P maxReceiveMessageSize calls.pending t ⟨sent.flatMap Sent.frame, ioEOF⟩
  return (req, sctx, r.1)

/-- What a local caller of the handler sees; a nil reply leaves the caller with an empty message. -/
def localOutcome (P : Proto V T) (t : T) (reply : Option V) (err : Option GoString) :
    Except GoString V :=
  match err, reply with
  | some e, _ => .error e
  | none, some v => .ok v
  | none, none => P.codecUnmarshal t []

/-- Unmarshalling undoes marshalling. -/
def ProtoLaw (P : Proto V T) : Prop :=
  ∀ v b, P.marshal v = .ok b → P.unmarshal (P.typeOf v) b = .ok v

lemma codecUnmarshal_marshal {P : Proto V T} (hP : ProtoLaw P) {v : V} {b : Bytes}
    (h : P.codecMarshal (some v) = .ok b) : P.codecUnmarshal (P.typeOf v) b = .ok v := by
  unfold Proto.codecMarshal at h
  dsimp only at h
  split at h
  · rename_i hm
    unfold Proto.codecUnmarshal
    rw [if_pos hm]
    exact hP v b h
  · cases h

lemma codecUnmarshal_marshalReply {P : Proto V T} (hP : ProtoLaw P) {t : T} {reply : Option V}
    (hreply : ∀ v, reply = some v → P.typeOf v = t) {d : Bytes} (hd : marshalReply P reply = .ok d) :
    P.codecUnmarshal t d = localOutcome P t reply none := by
  cases reply with
  | none =>
    cases hd
    rfl
  | some v =>
    rw [← hreply v rfl]
    exact codecUnmarshal_marshal hP hd

/-- For every registered method and every argument that marshals, an attempt runs to its end; the
handler is given the argument, and if it returns without attaching metadata, the client sees what
a local caller would see. -/
theorem remote_call_eq_local (E : Env) (hE : GzipLaw E) (P : Proto V T) (hP : ProtoLaw P)
    (S : Server V T) (hS : S.opt.serverErrorFunc = none) (cc cs : ∀ md, EncodeChoice md)
    (order : List MDEntry) (maxReceiveMessageSize : Int) (calls : Calls) (svc mtd : GoString)
    (hnames : svc ≠ [] ∨ mtd ≠ []) (hslash : 47 ∉ mtd) (srv : Service V T) (md : MethodDesc V T)
    (hsrv : S.serviceMap svc = some srv) (hmd : srv.methods mtd = some md) (args : V)
    (payload : Bytes) (hargs : P.codecMarshal (some args) = .ok payload) (t : T) (ctx : CallCtx)
    (hout : OutgoingFits E order ctx)
    (hfits : ∀ req, prepareMessage E P order ⟨svc, mtd, some args⟩ ctx = .ok req →
      FitsFrame E S.opt.maxReceiveMessageSize (stampRequest (calls.sequence + 1) req)) :
    ∃ req sctx result,
      remoteAttempt E P S cc cs order maxReceiveMessageSize calls (fullMethod svc mtd) args t ctx =
        .ok (req, sctx, result) ∧
      decodeArgument P req (P.typeOf args) = .ok args ∧
      ∀ reply err, md.handler sctx (decodeArgument P req) = .returned [] reply err →
        (err = none → ∀ v, reply = some v →
          P.typeOf v = t ∧ ∃ b, P.codecMarshal (some v) = .ok b) →
        (∀ sent ∈ S.processOneRequest E P cs sctx req,
          FitsFrame E maxReceiveMessageSize sent.message) →
        result = localOutcome P t reply err := by
  obtain ⟨req₀, hprep, hreq₀, hcount⟩ := prepareMessage_ok E P order ctx svc mtd args hargs hout
  have hstamp := requestFor_stamp (calls.sequence + 1) hnames hreq₀
  have hmeta : (stampRequest (calls.sequence + 1) req₀).metadata = req₀.metadata := rfl
  obtain ⟨frame, header, req, henc, hdec, hreq⟩ := decode_request E hE hstamp (hmeta ▸ hcount)
    (hfits req₀ hprep) (cc _) ioEOF
  obtain ⟨sctx, hctx⟩ := requestCtx_ok E req
  let pending := calls.pending.insert (calls.sequence + 1) (calls.sequence + 1)
  refine ⟨req, sctx, (recvMsg E P maxReceiveMessageSize pending t
    ⟨(S.processOneRequest E P cs sctx req).flatMap Sent.frame, ioEOF⟩).1, ?_, ?_, ?_⟩
  · unfold remoteAttempt Calls.sendMsg
    simp only [newCall_fullMethod svc hslash, hprep, henc, hdec, hctx, Bind.bind, Except.bind,
      Pure.pure, Except.pure, pending]
  · unfold decodeArgument
    rw [hreq.payload, codecUnmarshal_marshal hP hargs]
  · intro reply err hh hreply hres
    have hk : err ≠ none ∨ ∃ d, marshalReply P reply = .ok d := by
      by_cases he : err = none
      · right
        cases reply with
        | none => exact ⟨[], rfl⟩
        | some v => exact (hreply he v rfl).2
      · exact .inl he
    obtain ⟨res, hhandle, hresponse⟩ := handleRequest_response (E := E) (c := cs) hreq hS hsrv hmd hh hk
    obtain ⟨frame', hsend, -⟩ := send_eq E cs res
    have hone := processOneRequest_ok hreq.heartbeat (hhandle.trans hsend)
    rw [hone] at hres ⊢
    have hlookup : pending.lookup (calls.sequence + 1) = some (calls.sequence + 1) :=
      AList.lookup_insert _
    obtain ⟨frame'', hsend', hrecv⟩ := recvMsg_response E hE P hlookup t hresponse
      (hres ⟨res, frame'⟩ (List.mem_singleton_self _)) cs ioEOF
    cases hsend.symm.trans hsend'
    rw [List.flatMap_singleton, hrecv]
    cases err with
    | some e => rfl
    | none =>
      obtain ⟨d, hd⟩ := hk.resolve_left (by simp)
      dsimp only
      rw [hresponse.payload d hd]
      exact codecUnmarshal_marshalReply hP (fun v hv => (hreply rfl v hv).1) hd

lemma bytesProto_law : ProtoLaw bytesProto := by
  intro v b h
  cases h
  rfl

/-- The request that the client prepares for a call of the echo service. -/
def echoRequest : Message :=
  ⟨newMessage.header.setMessageType .request, str "Greeter", str "SayHello",
    MD.new storedEnv [(userAgentHeader, userAgent)], [10, 1, 65]⟩

def echoAttempt : Go (Message × Ctx × Except GoString Bytes) :=
  remoteAttempt storedEnv bytesProto (echoServer plainOption) .plain .plain [] 0 ⟨0, ∅⟩
    (fullMethod (str "Greeter") (str "SayHello")) [10, 1, 65] () ⟨none, none⟩

lemma echoAttempt_size : (match echoAttempt with
    | .ok (req, sctx, _) =>
      ((echoServer plainOption).processOneRequest storedEnv bytesProto .plain sctx req).all
        (fun sent => dataLen storedEnv sent.message < 2 ^ 32)
    | .error _ => false) = true := by
  decide +kernel

/-- The echo server's handler is called with the argument, and its reply comes back. -/
theorem remote_call_sample : ∃ req sctx, echoAttempt = .ok (req, sctx, .ok [10, 1, 65]) := by
  obtain ⟨req, sctx, result, hrun, harg, hcall⟩ := remote_call_eq_local storedEnv storedEnv_law
    bytesProto bytesProto_law (echoServer plainOption) rfl .plain .plain [] 0 ⟨0, ∅⟩
    (str "Greeter") (str "SayHello") (.inl (by decide)) (by decide) echoService echoHandler
    (by simp [echoServer]) (by simp [echoService]) [10, 1, 65] [10, 1, 65] rfl () ⟨none, none⟩
    (by simp [OutgoingFits]) (by
      intro req hreq
      have hecho : echoRequest = req := Except.ok.inj hreq
      rw [← hecho]
      exact ⟨by decide +kernel, .inl (le_refl _)⟩)
  have hsize := echoAttempt_size
  unfold echoAttempt at hsize
  rw [hrun] at hsize
  have hresult := hcall (some [10, 1, 65]) none
    (by
      have hdec : decodeArgument bytesProto req () = .ok [10, 1, 65] := harg
      simp [echoHandler, hdec])
    (fun _ v hv => ⟨rfl, v, rfl⟩)
    (fun sent hsent => ⟨by simpa using List.all_eq_true.mp hsize sent hsent, .inl (le_refl _)⟩)
  exact ⟨req, sctx, hrun.trans (by rw [hresult]; rfl)⟩
end Zrpc.Proofs
