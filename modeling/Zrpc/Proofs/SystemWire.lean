import Zrpc.Proofs.ClientWire
import Zrpc.Proofs.ServerStream
import Zrpc.System

/-!
# What the two ends of a connection exchange

A server whose input grows reads the same requests; they are the requests that the client wrote, in
their order; and every response on a connection is made by serving one of them.
-/

namespace Zrpc.Proofs

open Zrpc.Lib

variable {V T : Type}

/-! ### Reading while bytes arrive -/

section Arrival

variable {E : Env} {maxLength : Int} {failure : GoString} {d : Bytes} {m : Message} {r : Reader}

lemma readFull_reader {r r' : Reader} {n : Nat} {b : Bytes} (h : r.readFull n = (.ok b, r')) :
    r' = { r with data := r.data.drop n } := by
  unfold Reader.readFull at h
  split at h
  · cases h
    rfl
  · split at h <;> cases h

/-- Where `Decode` leaves the reader. -/
lemma decode_reader (h : decode E maxLength ⟨d, failure⟩ = (.ok m, r)) :
    15 ≤ d.length ∧ 15 + frameLength d ≤ d.length ∧ r = ⟨d.drop (15 + frameLength d), failure⟩ := by
  have hdata := decodeWith_ok h
  have hfailure : r.failure = failure := by
    unfold decode decodeWith at h
    split at h
    · cases h
    · next r₁ h₁ =>
      dsimp only at h
      split at h
      · cases h
      · split at h
        · cases h
        · next r₂ h₂ =>
          split at h
          · cases h
          · split at h
            · cases h
            · next r₃ h₃ =>
              rw [← (Prod.mk.inj h).2, readFull_reader h₃, readFull_reader h₂, readFull_reader h₁]
  obtain ⟨data, failure'⟩ := r
  obtain ⟨hlen, -, -, -, hrest⟩ := hdata
  dsimp only at hlen hrest hfailure
  exact ⟨by omega, hlen, by rw [hrest, hfailure]⟩

lemma frameLength_append (h : 15 ≤ d.length) (e : Bytes) : frameLength (d ++ e) = frameLength d := by
  unfold frameLength
  rw [List.drop_append_of_le_length (by omega), List.take_append_of_le_length]
  rw [List.length_drop]
  omega

/-- Bytes that arrive behind a frame are left for the next read. -/
lemma decode_append (h : decode E maxLength ⟨d, failure⟩ = (.ok m, r)) (e : Bytes) :
    decode E maxLength ⟨d ++ e, failure⟩ = (.ok m, ⟨r.data ++ e, r.failure⟩) := by
  obtain ⟨hheader, hlen, rfl⟩ := decode_reader h
  have hok := decode_more (congrArg Prod.fst h) e failure
  obtain ⟨-, -, hr⟩ := decode_reader (Prod.ext hok rfl : decode E maxLength ⟨d ++ e, failure⟩ = (.ok m, _))
  refine Prod.ext hok (hr.trans ?_)
  rw [frameLength_append hheader, List.drop_append_of_le_length hlen]

lemma decodeMany_append {n : Nat} {ms : List Message}
    (h : decodeMany E maxLength n ⟨d, failure⟩ = (.ok ms, r)) (e : Bytes) :
    decodeMany E maxLength n ⟨d ++ e, failure⟩ = (.ok ms, ⟨r.data ++ e, r.failure⟩) := by
  induction n generalizing d ms failure with
  | zero =>
    cases h
    rfl
  | succ n ih =>
    rw [decodeMany] at h
    split at h
    · cases h
    · next m₁ r₁ h₁ =>
      split at h
      · cases h
      · next ms₁ r₂ h₂ =>
        cases h
        have hrest := ih h₂
        rw [decodeMany, decode_append h₁]
        dsimp only
        rw [hrest]

end Arrival

section Receiving

variable {E : Env} {P : Proto V T} {S : Server V T} {c : ∀ md, EncodeChoice md} {s t : StreamState}

lemma streamInv_receive (hs : StreamInv E P S c s) (conn : Nat) (bytes : Bytes) :
    StreamInv E P S c (s.receive conn bytes) := by
  refine ⟨hs.pool, hs.tracked, hs.answers, hs.logged, fun r hr => ?_, fun p b hb => ?_⟩
  · have hlt := hs.consumed.conns r hr
    unfold StreamState.receive
    rw [List.length_modify]
    exact hlt
  · unfold StreamState.receive at hb
    dsimp only at hb
    rw [List.getElem?_modify] at hb
    obtain ⟨b₀, hb₀, rfl⟩ := Option.map_eq_some_iff.mp hb
    have hold := hs.consumed.decoded p b₀ hb₀
    split
    · exact decodeMany_append hold bytes
    · exact hold

lemma log_foldl (received : List (Nat × Message)) (requests : List RequestThread) (is : List Nat)
    (w : WriteState) : (is.foldl (processAt E P S c received requests) w).log = w.log := by
  induction is generalizing w with
  | nil => rfl
  | cons i is ih =>
    rw [List.foldl_cons, ih]
    unfold processAt
    split <;> rfl

lemma log_reject (s : StreamState) (a : PoolAction) : (s.reject E P S c a).log = s.write.log := by
  unfold StreamState.reject
  split
  · split
    · split <;> rfl
    · rfl
  · rfl

lemma log_writeStep {w w' : WriteState} {a : WriteAction} (h : writeStep E P S c w a = some w') :
    w.log <+: w'.log := by
  rcases writeStep_log h with ⟨i, count, w', -, -, hlog⟩ | hlog
  · exact hlog ▸ List.prefix_append _ _
  · exact hlog ▸ List.prefix_rfl

/-- A server's step leaves what was sent to it alone, and only adds to what it has written. -/
lemma streamStep_wire {a : StreamAction} (h : streamStep E P S c s a = some t)
    (ha : a.isAccept = false) :
    (∀ (p : Nat) (b : Inbound), s.inbound[p]? = some b →
      ∃ b', t.inbound[p]? = some b' ∧ b'.whole = b.whole) ∧ s.write.log <+: t.write.log := by
  have hsame : ∀ {u : StreamState}, u.inbound = s.inbound → ∀ (p : Nat) (b : Inbound),
      s.inbound[p]? = some b → ∃ b', u.inbound[p]? = some b' ∧ b'.whole = b.whole :=
    fun hu p b hb => ⟨b, hu ▸ hb, rfl⟩
  cases streamStep_move h with
  | accept => cases ha
  | @read conn b _ _ _ hb =>
    refine ⟨fun p b' hb' => ?_, List.prefix_rfl⟩
    have hlt := (List.getElem?_eq_some_iff.mp hb).1
    by_cases hp : conn = p
    · subst hp
      cases hb.symm.trans hb'
      exact ⟨_, List.getElem?_set_self hlt, rfl⟩
    · exact ⟨b', (List.getElem?_set_ne hp).trans hb', rfl⟩
  | turn =>
    refine ⟨hsame rfl, ?_⟩
    dsimp only
    rw [log_foldl, log_reject]
  | writer _ hw => exact ⟨hsame rfl, log_writeStep hw⟩

/-- Every frame on a connection is made by serving a request of that connection. -/
lemma StreamInv.source (hs : StreamInv E P S c s) {conn : Nat} {w : ConnWrite}
    (hw : w ∈ s.write.writesOn conn) :
    ∃ i req, s.received[i]? = some (conn, req) ∧
      (i ∈ s.pool.serve.executed ∨ Refused s.pool i) ∧
      ∃ sent ∈ S.serveRequest E P c req, sent.frame = w.frame := by
  obtain ⟨order, hanswers⟩ := hs.answers
  obtain ⟨hlog, hconn⟩ := List.mem_filter.mp hw
  have hkey : ConnWrite.key w ∈ s.write.writers.map FrameWriter.key :=
    (output_sublist _).subset (hs.logged.subset (List.mem_map_of_mem hlog))
  rw [hanswers.keys] at hkey
  obtain ⟨i, hi, hout⟩ := List.mem_flatMap.mp hkey
  unfold handOut at hout
  split at hout
  · next r hr =>
    obtain ⟨sent, hsent, heq⟩ := List.mem_map.mp hout
    obtain ⟨hr₁, hframe⟩ := Prod.mk.inj heq
    have hr₂ : r = (conn, r.2) := Prod.ext (hr₁.trans (of_decide_eq_true hconn)) rfl
    exact ⟨i, r.2, hr₂ ▸ hr, (hanswers.mem i).mp hi, sent, hsent, hframe⟩
  · cases hout

end Receiving

/-! ### The requests of a client -/

lemma forall₂_getElem? {α β : Type} {R : α → β → Prop} {xs : List α} {ys : List β}
    (h : List.Forall₂ R xs ys) {i : Nat} {y : β} (hy : ys[i]? = some y) :
    ∃ x, xs[i]? = some x ∧ R x y := by
  obtain ⟨hlt, rfl⟩ := List.getElem?_eq_some_iff.mp hy
  have hx : i < xs.length := h.length_eq ▸ hlt
  exact ⟨xs[i], List.getElem?_eq_getElem hx, h.get hx hlt⟩

/-- The bytes of a message. -/
def frameOf (E : Env) (c : ∀ md, EncodeChoice md) (m : Message) : Bytes :=
  frameBytes (m.choosePayload E).1
    (encodedBody m (c m.metadata).writeOrder (m.choosePayload E).2)

/-- The message that its receiver makes of them. -/
def arrived (E : Env) (c : ∀ md, EncodeChoice md) (m : Message) : Message :=
  ⟨(m.choosePayload E).1, m.serviceName, m.serviceMethod,
    appendAll E ∅ (c m.metadata).writeOrder, m.payload⟩

/-- The message has the magic byte, its counts fit the count byte and its length the length field. -/
structure Carried (E : Env) (m : Message) : Prop where
  magic : m.header.checkMagicNumber = true
  counts : ∀ e ∈ m.metadata.entries, e.2.length ≤ 255
  length : dataLen E m < 2 ^ 32

section Requests

variable {E : Env} {c : ∀ md, EncodeChoice md} {maxLength : Int} {failure : GoString} {m : Message}

/-- Whatever the limit of the receiver, if it accepts the frame it gets the message. -/
lemma decode_carried (hE : GzipLaw E) (hm : Carried E m) {tail : Bytes} {got : Message} {r : Reader}
    (h : decode E maxLength ⟨frameOf E c m ++ tail, failure⟩ = (.ok got, r)) :
    got = arrived E c m ∧ r = ⟨tail, failure⟩ := by
  obtain ⟨frame, henc, hdec⟩ := decode_encode E hE m (c m.metadata) hm.magic hm.counts 0 hm.length
    (.inl (le_refl _)) tail failure
  rw [encode_eq] at henc
  cases henc
  have hmagic : (m.choosePayload E).1.checkMagicNumber = true := by
    rcases choosePayload_header E m with hc | hc <;> rw [hc] <;> exact hm.magic
  have hbody := length_encodedBody (E := E) (c m.metadata).write_perm
  have hlen : (encodedBody m (c m.metadata).writeOrder (m.choosePayload E).2).length < 2 ^ 32 := by
    rw [hbody]
    exact hm.length
  unfold frameOf at h
  rw [decode_frame_cases E _ _ _ _ _ hmagic hlen] at h hdec
  rw [if_neg (by simp)] at hdec
  split at h
  · cases h
  · cases h.symm.trans hdec
    exact ⟨rfl, rfl⟩

lemma arrived_of_decode (hE : GzipLaw E) (hm : Carried E m) {got : Message}
    (h : (decode E maxLength ⟨frameOf E c m, failure⟩).1 = .ok got) : got = arrived E c m := by
  rw [← List.append_nil (frameOf E c m)] at h
  exact (decode_carried hE hm (Prod.ext h rfl)).1

lemma decode_nil (E : Env) (maxLength : Int) (failure : GoString) :
    ∃ e r, decode E maxLength ⟨[], failure⟩ = (.error e, r) := by
  simp [decode, decodeWith, Reader.readFull, fail]

/-- What is read from the frames of some messages are the first of them. -/
lemma decodeMany_carried (hE : GzipLaw E) {n : Nat} {ms got : List Message} {r : Reader}
    (hms : ∀ m ∈ ms, Carried E m)
    (h : decodeMany E maxLength n ⟨ms.flatMap (frameOf E c), failure⟩ = (.ok got, r)) :
    got = (ms.take n).map (arrived E c) := by
  induction n generalizing ms got with
  | zero =>
    cases h
    rfl
  | succ n ih =>
    rw [decodeMany] at h
    split at h
    · cases h
    · next m₁ r₁ h₁ =>
      split at h
      · cases h
      · next ms₁ r₂ h₂ =>
        cases h
        cases ms with
        | nil =>
          obtain ⟨e, r₀, hnil⟩ := decode_nil E maxLength failure
          cases hnil.symm.trans h₁
        | cons m ms =>
          rw [List.flatMap_cons] at h₁
          obtain ⟨rfl, rfl⟩ := decode_carried hE (hms m List.mem_cons_self) h₁
          rw [List.take_succ_cons, List.map_cons,
            ih (fun m' hm' => hms m' (List.mem_cons_of_mem _ hm')) h₂]

end Requests

/-! ### The responses of a server -/

section Responses

variable {E : Env} {P : Proto V T} {S : Server V T} {c : ∀ md, EncodeChoice md} {req : Message}
  {sent : Sent}

lemma header_of_decode {maxLength : Int} {frame : Bytes} {failure : GoString} {m : Message}
    (h : (decode E maxLength ⟨frame, failure⟩).1 = .ok m) : m.header = wireHeader frame := by
  obtain ⟨-, -, -, hdata⟩ := decode_ok_iff.mp h
  obtain ⟨layout, -, hrest⟩ := bind_eq_ok hdata
  obtain ⟨payload, -, hmsg⟩ := bind_eq_ok hrest
  cases hmsg
  rfl

lemma readResponse_ok {t : T} {m : Message} {v : V} (h : readResponse P t m = .ok v) :
    m.header.getMessageType = .response ∧ m.header.getMessageStatusType ≠ .error ∧
      P.codecUnmarshal t m.payload = .ok v := by
  unfold readResponse at h
  split at h
  · cases h
  · next hvalid =>
    split at h
    · split at h <;> cases h
    · next hstatus => exact ⟨by_contra fun htype => hvalid (.inl htype), hstatus, h⟩

/-- A request that `auth` refuses is answered with an error. -/
lemma reject_status {e : GoString} (h : S.reject E P c req e = .ok sent) :
    (wireHeader sent.frame).getMessageStatusType = .error := by
  obtain ⟨res, herr, hsend⟩ := bind_eq_ok h
  obtain ⟨res₁, heq, hheader, hpay, -⟩ := handleError_eq E S.opt (responseOf req) e
  cases herr.symm.trans heq
  obtain ⟨res', frame, hsent, -, -, hshow⟩ := sendResponse_kept E P S.opt c (some e) req res none
    (hpay.trans rfl) (.inl (by simp))
  cases hsend.symm.trans hsent
  rw [hshow.status, hheader]
  simp

lemma frameOf_send {res : Message} (h : res.send E c = .ok sent) :
    sent.frame = frameOf E c sent.message := by
  unfold Message.send at h
  rw [encode_eq] at h
  cases h
  rfl

/-- A response that shows no error comes from a handler that returned none. -/
lemma handleRequest_replied {ctx : Ctx} (hsent : S.handleRequest E P c ctx req = .ok sent)
    (htype : req.header.getMessageType = .request)
    (hwire : (wireHeader sent.frame).getMessageType = .response)
    (hstatus : (wireHeader sent.frame).getMessageStatusType ≠ .error) :
    ∃ srv md attached reply, S.serviceMap req.serviceName = some srv ∧
      srv.methods req.serviceMethod = some md ∧
      md.handler ctx (decodeArgument P req) = .returned attached reply none ∧
      marshalReply P reply = .ok sent.message.payload ∧
      sent.message.metadata = (attached.foldl setMeta (responseOf req)).metadata ∧
      sent.frame = frameOf E c sent.message := by
  obtain ⟨methods, hmethods, hrest⟩ := bind_eq_ok hsent
  obtain ⟨srv, hsrv, rfl⟩ : ∃ srv, S.serviceMap req.serviceName = some srv ∧ srv.methods = methods := by
    unfold Server.methodsOf at hmethods
    split at hmethods
    · next srv hsrv => exact ⟨srv, hsrv, Except.ok.inj hmethods⟩
    · cases hmethods
  split at hrest
  · -- an unknown method is answered with a message that is no response
    obtain ⟨res', frame, hres, -, -, hshow⟩ := sendResponse_kept E P S.opt c
      (if (S.serviceMap req.serviceName).isNone then
        some (str "zrpc: can't find service " ++ req.serviceName) else none)
      req req.clone none rfl (.inr ⟨[], rfl⟩)
    cases hrest.symm.trans hres
    have hclone : req.clone.header.getMessageType = req.header.getMessageType := by
      simp [Message.clone]
    rw [hshow.type, hclone, htype] at hwire
    cases hwire
  · next md hmd =>
    split at hrest
    · cases hrest
    · next attached reply hh =>
      obtain ⟨-, hpay⟩ := foldl_setMeta attached (responseOf req)
      obtain ⟨res, hpre, hsend⟩ := bind_eq_ok hrest
      have hmessage : sent.message = res := by
        obtain ⟨frame, hframe, -⟩ := send_eq E c res
        cases hsend.symm.trans hframe
        rfl
      cases hm : marshalReply P reply with
      | ok d =>
        obtain ⟨res₁, hres₁, hmeta, hpayload, -⟩ :=
          prepareResponse_kept E P S.opt none req _ reply (hpay.trans rfl) (.inr ⟨d, hm⟩)
        cases hpre.symm.trans hres₁
        refine ⟨srv, md, attached, reply, hsrv, hmd, hh, ?_, ?_, frameOf_send hsend⟩
        · rw [hm, hmessage, hpayload d hm]
        · rw [hmessage, hmeta]
      | error e =>
        obtain ⟨res₁, frame, hres, -, hshow⟩ := sendResponse_marshalError E P S.opt c req
          (attached.foldl setMeta (responseOf req)) reply e hm
        cases hrest.symm.trans hres
        exact absurd hshow.status hstatus
    · next attached reply e hh =>
      obtain ⟨res, frame, hres, -, hshow⟩ := handleRequest_failed E P S c ctx req hsrv hmd hh
      cases hsent.symm.trans hres
      exact absurd hshow.status hstatus

/-- A response that shows no error is not the answer to a request that was refused. -/
lemma serveRequest_replied (hsent : sent ∈ S.serveRequest E P c req)
    (hheart : req.header.isHeartBeat = false)
    (hstatus : (wireHeader sent.frame).getMessageStatusType ≠ .error) :
    ∃ ctx, S.authorize E P c req = .ok (.inl ctx) ∧ S.handleRequest E P c ctx req = .ok sent := by
  unfold Server.serveRequest at hsent
  split at hsent
  · next ctx hauth =>
    refine ⟨ctx, hauth, ?_⟩
    unfold Server.processOneRequest at hsent
    dsimp only at hsent
    rw [hheart, if_neg (by simp)] at hsent
    split at hsent
    · next sent' hok =>
      rw [List.mem_singleton.mp hsent]
      exact hok
    · cases hsent
  · next sent' hauth =>
    rw [List.mem_singleton.mp hsent] at hstatus
    obtain ⟨err, hrej⟩ := authorize_refused hauth
    exact absurd (reject_status hrej) hstatus
  · cases hsent

end Responses

end Zrpc.Proofs
