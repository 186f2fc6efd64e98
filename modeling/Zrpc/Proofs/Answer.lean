import Zrpc.Proofs.DecodeSafe
import Zrpc.Proofs.RoundTrip
import Zrpc.Server

/-!
# When a request is answered

`processOneRequest` should write one response frame for every request. It does so exactly for
the requests whose method is registered and whose handler returns; and a plain reply is marked
Normal only if the request itself was.
-/

namespace Zrpc.Proofs
open Zrpc.Lib

variable {V T : Type}

lemma requestCtx_ok (E : Env) (req : Message) : ∃ ctx, requestCtx E req = .ok ctx := by
  unfold requestCtx
  cases req.metadata.get E timeoutHeader with
  | nil => exact ⟨_, rfl⟩
  | cons timeoutStr rest =>
    cases ht : decodeTimeout E timeoutStr with
    | ok timeout => exact ⟨⟨req.metadata, if 0 < timeout then some timeout else none⟩, by simp only [ht]⟩
    | error e =>
      cases e with
      | error text => exact ⟨⟨req.metadata, none⟩, by simp only [ht]⟩
      | panic =>
        have hsafe := safe_decodeTimeout E timeoutStr
        rw [ht] at hsafe
        exact absurd rfl hsafe

/-! ### Metadata of an error response -/

lemma values_foldl_push (es : List MDEntry) (out : MD) (k : GoString) :
    (es.foldl (fun out e => out.push e.1 e.2) out).values k =
      out.values k ++ (es.filter (fun e => e.1 = k)).flatMap (fun e => e.2) := by
  induction es generalizing out with
  | nil => simp
  | cons e es ih =>
    rw [List.foldl_cons, ih, values_push]
    by_cases h : e.1 = k
    · simp [h]
    · simp [h]

lemma values_join_pair (a b : MD) (k : GoString) :
    (MD.join [a, b]).values k = a.values k ++ b.values k := by
  have hinto : ∀ out md : MD, (MD.joinInto out md).values k = out.values k ++ md.values k := by
    intro out md
    rw [MD.joinInto, values_foldl_push, values_of_order (.refl md.entries)]
  change (MD.joinInto (MD.joinInto ∅ a) b).values k = _
  rw [hinto, hinto, values_empty, List.nil_append]

lemma toLower_serviceError (E : Env) : E.toLower serviceError = serviceError := by
  unfold Env.toLower
  rw [if_pos (by decide)]
  decide

/-- `handleError` marks the response as an error and adds the text under the error key. -/
lemma handleError_eq (E : Env) (opt : ServerOption) (res : Message) (err : GoString) :
    ∃ res', handleError E opt res err = .ok res' ∧
      res'.header = res.header.setMessageStatusType .error ∧ res'.payload = res.payload ∧
      ∃ r, opt.errorText r err ∈ res'.metadata.values serviceError := by
  unfold handleError
  dsimp only
  let marked : Message := { res with header := res.header.setMessageStatusType .error }
  have hpair : MD.pairs E [serviceError, opt.errorText marked err] =
      .ok (MD.push ∅ serviceError [opt.errorText marked err]) := by
    simp [MD.pairs, MD.pairsLoop, toLower_serviceError]
  by_cases hlen : res.metadata.len = 0
  · refine ⟨_, if_pos hlen, rfl, rfl, marked, ?_⟩
    simp [MD.new, toLower_serviceError, values_push, marked]
  · refine ⟨{ marked with
      metadata := MD.join [res.metadata, MD.push ∅ serviceError [opt.errorText marked err]] },
      ?_, rfl, rfl, marked, ?_⟩
    · rw [if_neg hlen]
      change Except.bind (MD.pairs E [serviceError, opt.errorText marked err]) _ = _
      rw [hpair]
      rfl
    · rw [values_join_pair, values_push]
      simp

/-! ### The frame of a message -/

/-- The header a receiver finds at the front of a frame. -/
def wireHeader (frame : Bytes) : Header := Header.ofBytes (frame.take 11)

lemma wireHeader_frameBytes (h : Header) (body : Bytes) : wireHeader (frameBytes h body) = h := by
  have ht : (frameBytes h body).take 11 = h.toBytes := List.take_left' (length_toBytes h)
  rw [wireHeader, ht, ofBytes_toBytes]

/-- Writing a message puts its header on the wire, apart from the compress bit. -/
lemma send_eq (E : Env) (c : ∀ md, EncodeChoice md) (res : Message) :
    ∃ frame, res.send E c = .ok ⟨res, frame⟩ ∧
      (wireHeader frame).getMessageType = res.header.getMessageType ∧
      (wireHeader frame).getMessageStatusType = res.header.getMessageStatusType ∧
      (wireHeader frame).seq = res.header.seq := by
  let frame := frameBytes (res.choosePayload E).1
    (encodedBody res (c res.metadata).writeOrder (res.choosePayload E).2)
  have hsend : res.send E c = .ok ⟨res, frame⟩ := by
    unfold Message.send
    rw [encode_eq]
    rfl
  refine ⟨frame, hsend, ?_⟩
  have hwire : wireHeader frame = (res.choosePayload E).1 := wireHeader_frameBytes _ _
  rw [hwire]
  rcases choosePayload_header E res with h | h
  · rw [h]
    exact ⟨by simp, by simp, rfl⟩
  · rw [h]
    exact ⟨rfl, rfl, rfl⟩

/-! ### The message sendResponse encodes -/

lemma foldl_setMeta (attached : List MD) (res : Message) :
    (attached.foldl setMeta res).header = res.header ∧
      (attached.foldl setMeta res).payload = res.payload := by
  induction attached generalizing res with
  | nil => exact ⟨rfl, rfl⟩
  | cons a attached ih =>
    rw [List.foldl_cons, (ih _).1, (ih _).2]
    unfold setMeta
    by_cases h : a.len = 0
    · rw [if_pos h]
      exact ⟨rfl, rfl⟩
    · rw [if_neg h]
      exact ⟨rfl, rfl⟩

/-- The reply of a handler as a payload; no reply is an empty payload. -/
def marshalReply (P : Proto V T) : Option V → Except GoString Bytes
  | none => .ok []
  | some v => P.codecMarshal (some v)

/-- What `sendResponse` encodes for a reply that can be marshalled. -/
lemma prepareResponse_marshalled (E : Env) (P : Proto V T) (opt : ServerOption)
    (originalErr : Option GoString) (req res : Message) {reply : Option V} {d : Bytes}
    (hd : marshalReply P reply = .ok d) :
    prepareResponse E P opt originalErr req res reply =
      if d.length = 0 then .ok res
      else if 1024 < d.length ∧ req.header.getCompressType ≠ .none then
        .ok { res with header := res.header.setCompressType req.header.getCompressType, payload := d }
      else .ok { res with payload := d } := by
  cases reply with
  | none =>
    have hnil : [] = d := Except.ok.inj hd
    subst hnil
    rfl
  | some v =>
    have hv : P.codecMarshal (some v) = .ok d := hd
    simp only [prepareResponse, hv, Bind.bind, Except.bind, Pure.pure, Except.pure]

/-- A reply that can be marshalled becomes the payload. -/
lemma prepareResponse_ok (E : Env) (P : Proto V T) (opt : ServerOption)
    (originalErr : Option GoString) (req res : Message) (reply : Option V) (d : Bytes)
    (hres : res.payload = []) (hd : marshalReply P reply = .ok d) :
    ∃ h, prepareResponse E P opt originalErr req res reply =
        .ok { res with header := h, payload := d } ∧
      h.getMessageType = res.header.getMessageType ∧
      h.getMessageStatusType = res.header.getMessageStatusType ∧ h.seq = res.header.seq ∧
      h.magic = res.header.magic := by
  rw [prepareResponse_marshalled E P opt originalErr req res hd]
  by_cases h0 : d.length = 0
  · have hnil : d = [] := List.length_eq_zero_iff.mp h0
    refine ⟨res.header, ?_, rfl, rfl, rfl, rfl⟩
    rw [if_pos h0, hnil, ← hres]
  · rw [if_neg h0]
    by_cases hz : 1024 < d.length ∧ req.header.getCompressType ≠ .none
    · exact ⟨_, if_pos hz, by simp, by simp, rfl, rfl⟩
    · exact ⟨_, if_neg hz, rfl, rfl, rfl, rfl⟩

/-- A reply that cannot be marshalled is left out, and is the error if there was none. -/
lemma prepareResponse_error (E : Env) (P : Proto V T) (opt : ServerOption)
    (originalErr : Option GoString) (req res : Message) (reply : Option V) (e : GoString)
    (he : marshalReply P reply = .error e) :
    prepareResponse E P opt originalErr req res reply =
      match originalErr with
      | none => handleError E opt res e
      | some _ => .ok res := by
  cases reply with
  | none => cases he
  | some v =>
    have hv : P.codecMarshal (some v) = .error e := he
    cases originalErr with
    | some e' => simp [prepareResponse, hv, Bind.bind, Except.bind, Pure.pure, Except.pure]
    | none =>
      obtain ⟨res', hh, -⟩ := handleError_eq E opt res e
      simp [prepareResponse, hv, Bind.bind, Except.bind, Pure.pure, Except.pure, hh]

/-- The frame shows the given type, status and sequence number. -/
structure FrameShows (frame : Bytes) (type : MessageType) (status : MessageStatusType)
    (seq : UInt64) : Prop where
  type : (wireHeader frame).getMessageType = type
  status : (wireHeader frame).getMessageStatusType = status
  seq : (wireHeader frame).seq = seq

/-- The message has the type, status, sequence number and magic byte of `h`, whatever its compress
bit. -/
structure SameFlags (h h' : Header) : Prop where
  type : h'.getMessageType = h.getMessageType
  status : h'.getMessageStatusType = h.getMessageStatusType
  seq : h'.seq = h.seq
  magic : h'.magic = h.magic

/-- If the reply can be marshalled, or there is an error already, the response keeps its flags and
metadata. -/
lemma prepareResponse_kept (E : Env) (P : Proto V T) (opt : ServerOption)
    (originalErr : Option GoString) (req res : Message) (reply : Option V) (hres : res.payload = [])
    (hk : originalErr ≠ none ∨ ∃ d, marshalReply P reply = .ok d) :
    ∃ res', prepareResponse E P opt originalErr req res reply = .ok res' ∧
      res'.metadata = res.metadata ∧ (∀ d, marshalReply P reply = .ok d → res'.payload = d) ∧
      SameFlags res.header res'.header := by
  cases hm : marshalReply P reply with
  | ok d =>
    obtain ⟨h, hpre, ht, hst, hsq, hmg⟩ :=
      prepareResponse_ok E P opt originalErr req res reply d hres hm
    exact ⟨_, hpre, rfl, fun d' hd' => Except.ok.inj hd', ht, hst, hsq, hmg⟩
  | error e =>
    have hpre := prepareResponse_error E P opt originalErr req res reply e hm
    cases originalErr with
    | none =>
      rcases hk with hk | ⟨d, hd⟩
      · exact absurd rfl hk
      · exact absurd (hm.symm.trans hd) (by simp)
    | some e₀ => exact ⟨res, hpre, rfl, by simp, rfl, rfl, rfl, rfl⟩

/-- If the reply can be marshalled, or there is an error already, `sendResponse` writes the
response with its header and metadata. -/
lemma sendResponse_kept (E : Env) (P : Proto V T) (opt : ServerOption) (c : ∀ md, EncodeChoice md)
    (originalErr : Option GoString) (req res : Message) (reply : Option V) (hres : res.payload = [])
    (hk : originalErr ≠ none ∨ ∃ d, marshalReply P reply = .ok d) :
    ∃ res' frame, sendResponse E P opt c originalErr req res reply = .ok ⟨res', frame⟩ ∧
      res'.metadata = res.metadata ∧ (∀ d, marshalReply P reply = .ok d → res'.payload = d) ∧
      FrameShows frame res.header.getMessageType res.header.getMessageStatusType res.header.seq := by
  obtain ⟨res', hpre, hmeta, hpay, hflags⟩ :=
    prepareResponse_kept E P opt originalErr req res reply hres hk
  obtain ⟨frame, hsend, ht, hs, hq⟩ := send_eq E c res'
  refine ⟨res', frame, ?_, hmeta, hpay, ht.trans hflags.type, hs.trans hflags.status,
    hq.trans hflags.seq⟩
  unfold sendResponse
  rw [hpre]
  exact hsend

/-- A reply that cannot be marshalled turns a response without error into an error. -/
lemma sendResponse_marshalError (E : Env) (P : Proto V T) (opt : ServerOption)
    (c : ∀ md, EncodeChoice md) (req res : Message) (reply : Option V) (e : GoString)
    (he : marshalReply P reply = .error e) :
    ∃ res' frame, sendResponse E P opt c none req res reply = .ok ⟨res', frame⟩ ∧
      (∃ r, opt.errorText r e ∈ res'.metadata.values serviceError) ∧
      FrameShows frame res.header.getMessageType .error res.header.seq := by
  have hpre := prepareResponse_error E P opt none req res reply e he
  obtain ⟨res', herr, hheader, -, htext⟩ := handleError_eq E opt res e
  obtain ⟨frame, hsend, hft, hfs, hfq⟩ := send_eq E c res'
  rw [hheader] at hft hfs hfq
  refine ⟨res', frame, ?_, htext, ?_⟩
  · unfold sendResponse
    rw [hpre]
    change Except.bind (handleError E opt res e) _ = _
    rw [herr]
    exact hsend
  · exact ⟨hft.trans (by simp), hfs.trans (by simp), hfq⟩

/-! ### Exactly one answer -/

/-- What a request calls for: an error of some text, the error of a known text, or a reply. -/
inductive Outcome
  | missing
  | failed (err : GoString)
  | replied (payload : Bytes)

/-- The outcome of a handler that returned: its error, or what became of its reply. -/
def Outcome.ofReturned : Option GoString → Except GoString Bytes → Outcome
  | some e, _ => .failed e
  | none, .ok d => .replied d
  | none, .error e => .failed e

/-- The outcome of a request: no such service or method, a panic, an error of the handler or of
marshalling its reply, or the marshalled reply. -/
def outcome (P : Proto V T) (S : Server V T) (ctx : Ctx) (req : Message) : Outcome :=
  match (S.serviceMap req.serviceName).bind (fun srv => srv.methods req.serviceMethod) with
  | none => .missing
  | some md =>
    match md.handler ctx (decodeArgument P req) with
    | .panicked => .missing
    | .returned _ reply err => .ofReturned err (marshalReply P reply)

/-- How an outcome shows in the status on the wire and in the message. -/
def Outcome.Shown (opt : ServerOption) (status : MessageStatusType) (res : Message) :
    Outcome → Prop
  | .missing => status = .error ∧ res.metadata.values serviceError ≠ []
  | .failed err => status = .error ∧ ∃ r, opt.errorText r err ∈ res.metadata.values serviceError
  | .replied payload => status = .normal ∧ res.payload = payload

/-- The request is answered with exactly one frame: a response with its sequence number that
shows its outcome. -/
def AnsweredOnce (E : Env) (P : Proto V T) (S : Server V T) (c : ∀ md, EncodeChoice md)
    (ctx : Ctx) (req : Message) : Prop :=
  ∃ res frame, S.processOneRequest E P c ctx req = [⟨res, frame⟩] ∧
    (wireHeader frame).getMessageType = .response ∧ (wireHeader frame).seq = req.header.seq ∧
    (outcome P S ctx req).Shown S.opt (wireHeader frame).getMessageStatusType res

/-- The service and the method are registered, the handler returns, and the request's own status
bit is Normal unless the handler or the marshalling of its reply fails. -/
def Answerable (P : Proto V T) (S : Server V T) (ctx : Ctx) (req : Message) : Prop :=
  ∃ srv md attached reply err, S.serviceMap req.serviceName = some srv ∧
    srv.methods req.serviceMethod = some md ∧
    md.handler ctx (decodeArgument P req) = .returned attached reply err ∧
    (req.header.getMessageStatusType = .normal ∨ err ≠ none ∨ ∃ e, marshalReply P reply = .error e)

lemma processOneRequest_ok {E : Env} {P : Proto V T} {S : Server V T} {c : ∀ md, EncodeChoice md}
    {ctx : Ctx} {req : Message} (hb : req.header.isHeartBeat = false) {sent : Sent}
    (h : S.handleRequest E P c ctx req = .ok sent) :
    S.processOneRequest E P c ctx req = [sent] := by
  unfold Server.processOneRequest
  simp only [hb, Bool.false_eq_true, if_false, h]

lemma processOneRequest_panic {E : Env} {P : Proto V T} {S : Server V T}
    {c : ∀ md, EncodeChoice md} {ctx : Ctx} {req : Message} (hb : req.header.isHeartBeat = false)
    {e : Fault} (h : S.handleRequest E P c ctx req = .error e) :
    S.processOneRequest E P c ctx req = [] := by
  unfold Server.processOneRequest
  simp only [hb, Bool.false_eq_true, if_false, h]

lemma responseOf_header (req : Message) :
    (responseOf req).header.getMessageType = .response ∧
    (responseOf req).header.getMessageStatusType = req.header.getMessageStatusType ∧
    (responseOf req).header.seq = req.header.seq := by
  simp only [responseOf, Message.clone]
  exact ⟨by simp, by simp, rfl⟩

section Handled

variable (E : Env) (P : Proto V T) (S : Server V T) (c : ∀ md, EncodeChoice md) (ctx : Ctx)
  (req : Message) {srv : Service V T} {md : MethodDesc V T} {attached : List MD} {reply : Option V}
  (hsrv : S.serviceMap req.serviceName = some srv)
  (hmd : srv.methods req.serviceMethod = some md)

include hsrv hmd

/-- A handler that fails is answered with an error frame. -/
lemma handleRequest_failed {e : GoString}
    (hh : md.handler ctx (decodeArgument P req) = .returned attached reply (some e)) :
    ∃ res frame, S.handleRequest E P c ctx req = .ok ⟨res, frame⟩ ∧
      (∃ r, S.opt.errorText r e ∈ res.metadata.values serviceError) ∧
      FrameShows frame .response .error req.header.seq := by
  obtain ⟨hset, hpay⟩ := foldl_setMeta attached (responseOf req)
  obtain ⟨res₁, herr, hheader, hpay₁, htext⟩ :=
    handleError_eq E S.opt (attached.foldl setMeta (responseOf req)) e
  obtain ⟨htype, -, hseq⟩ := responseOf_header req
  obtain ⟨res, frame, hsent, hmeta, -, hshow⟩ := sendResponse_kept E P S.opt c (some e) req
    res₁ reply (hpay₁.trans hpay) (.inl (by simp))
  rw [hheader, hset] at hshow
  refine ⟨res, frame, ?_, hmeta ▸ htext, ?_⟩
  · unfold Server.handleRequest
    simp only [hsrv, Server.methodsOf, Bind.bind, Except.bind, hmd, hh]
    change Except.bind (handleError E S.opt (attached.foldl setMeta (responseOf req)) e) _ = _
    rw [herr]
    exact hsent
  · exact ⟨hshow.type.trans (by simp [htype]), hshow.status.trans (by simp), hshow.seq.trans hseq⟩

/-- A handler that returns without error is answered by `sendResponse` on the clone. -/
lemma handleRequest_returned
    (hh : md.handler ctx (decodeArgument P req) = .returned attached reply none) :
    S.handleRequest E P c ctx req =
      sendResponse E P S.opt c none req (attached.foldl setMeta (responseOf req)) reply := by
  unfold Server.handleRequest
  simp only [hsrv, Server.methodsOf, Bind.bind, Except.bind, hmd, hh]

lemma answerable_iff_of_returned {err : Option GoString}
    (hh : md.handler ctx (decodeArgument P req) = .returned attached reply err) :
    Answerable P S ctx req ↔ req.header.getMessageStatusType = .normal ∨ err ≠ none ∨
      ∃ e, marshalReply P reply = .error e := by
  constructor
  · rintro ⟨srv', md', attached', reply', err', hsrv', hmd', hh', hcond⟩
    cases hsrv.symm.trans hsrv'
    cases hmd.symm.trans hmd'
    cases hh.symm.trans hh'
    exact hcond
  · intro hcond
    exact ⟨srv, md, attached, reply, err, hsrv, hmd, hh, hcond⟩

lemma outcome_returned {err : Option GoString}
    (hh : md.handler ctx (decodeArgument P req) = .returned attached reply err) :
    outcome P S ctx req = .ofReturned err (marshalReply P reply) := by
  unfold outcome
  simp only [hsrv, Option.bind_some, hmd, hh]

/-- A handler that panics is not answered. -/
lemma answeredOnce_iff_of_panicked (hb : req.header.isHeartBeat = false)
    (hh : md.handler ctx (decodeArgument P req) = .panicked) :
    AnsweredOnce E P S c ctx req ↔ Answerable P S ctx req := by
  constructor
  · rintro ⟨res, frame, hsent, -⟩
    have hpanic : S.handleRequest E P c ctx req = .error .panic := by
      unfold Server.handleRequest
      simp only [hsrv, Server.methodsOf, Bind.bind, Except.bind, hmd, hh]
    rw [processOneRequest_panic hb hpanic] at hsent
    cases hsent
  · rintro ⟨srv', md', attached', reply', err', hsrv', hmd', hh', -⟩
    cases hsrv.symm.trans hsrv'
    cases hmd.symm.trans hmd'
    cases hh.symm.trans hh'

/-- A handler that returns no error and a reply that marshals is answered with a Normal frame if
the request's status bit is Normal, and wrongly otherwise. -/
lemma answeredOnce_iff_of_replied (hb : req.header.isHeartBeat = false) {d : Bytes}
    (hh : md.handler ctx (decodeArgument P req) = .returned attached reply none)
    (hm : marshalReply P reply = .ok d) :
    AnsweredOnce E P S c ctx req ↔ req.header.getMessageStatusType = .normal := by
  have hout := outcome_returned P S ctx req hsrv hmd hh
  rw [hm] at hout
  obtain ⟨htype, hstatus, hseq⟩ := responseOf_header req
  obtain ⟨hset, hpay₀⟩ := foldl_setMeta attached (responseOf req)
  rw [← hset] at htype hstatus hseq
  obtain ⟨res, frame, hsend, -, hpay, hshow⟩ := sendResponse_kept E P S.opt c none req
    (attached.foldl setMeta (responseOf req)) reply hpay₀ (.inr ⟨d, hm⟩)
  have hone := processOneRequest_ok hb
    ((handleRequest_returned E P S c ctx req hsrv hmd hh).trans hsend)
  constructor
  · rintro ⟨res', frame', hsent, -, -, hshown⟩
    rw [hout] at hshown
    have hframe : frame = frame' := congrArg Sent.frame (List.cons.inj (hone.symm.trans hsent)).1
    rw [← hstatus, ← hshow.status, hframe]
    exact hshown.1
  · intro hnormal
    refine ⟨res, frame, hone, hshow.type.trans htype, hshow.seq.trans hseq, ?_⟩
    rw [hout]
    exact ⟨hshow.status.trans (hstatus.trans hnormal), hpay d hm⟩

end Handled

/-- A request without a registered method is not answered as it should be: an unknown service is
a nil dereference, and an unknown method is answered without an error. -/
lemma not_answered_of_missing (E : Env) (P : Proto V T) (S : Server V T)
    (c : ∀ md, EncodeChoice md) (ctx : Ctx) (req : Message) (hb : req.header.isHeartBeat = false)
    (hmiss : (S.serviceMap req.serviceName).bind (fun srv => srv.methods req.serviceMethod) = none) :
    ¬AnsweredOnce E P S c ctx req := by
  rintro ⟨res, frame, hsent, -, -, hshown⟩
  have hout : outcome P S ctx req = .missing := by
    unfold outcome
    rw [hmiss]
  rw [hout] at hshown
  cases hsrv : S.serviceMap req.serviceName with
  | none =>
    have hpanic : S.handleRequest E P c ctx req = .error .panic := by
      unfold Server.handleRequest
      simp only [hsrv, Server.methodsOf, Bind.bind, Except.bind]
    rw [processOneRequest_panic hb hpanic] at hsent
    cases hsent
  | some srv =>
    have hmd : srv.methods req.serviceMethod = none := by simpa [hsrv] using hmiss
    obtain ⟨res', frame', hsend, hmeta, -, -⟩ := sendResponse_kept E P S.opt c none req req.clone
      none rfl (.inr ⟨[], rfl⟩)
    have hok : S.handleRequest E P c ctx req = .ok ⟨res', frame'⟩ := by
      unfold Server.handleRequest
      simp only [hsrv, Server.methodsOf, Bind.bind, Except.bind, hmd]
      exact hsend
    rw [processOneRequest_ok hb hok] at hsent
    have hres : res' = res := congrArg Sent.message (List.cons.inj hsent).1
    apply hshown.2
    rw [← hres, hmeta]
    exact values_empty serviceError

/-- A protobuf library whose messages are their own encodings. -/
def bytesProto : Proto Bytes Unit := ⟨fun _ => (), fun _ => true, .ok, fun _ b => .ok b⟩

/-- A handler that returns its argument. -/
def echoHandler : MethodDesc Bytes Unit :=
  ⟨fun _ dec => match dec () with
    | .ok v => .returned [] (some v) none
    | .error e => .returned [] none (some e)⟩

def echoService : Service Bytes Unit :=
  ⟨fun method => if method = str "SayHello" then some echoHandler else none⟩

def echoServer (opt : ServerOption) : Server Bytes Unit :=
  ⟨opt, fun name => if name = str "Greeter" then some echoService else none⟩

def plainOption : ServerOption := ⟨none, none, 0, false, 0⟩

end Zrpc.Proofs
