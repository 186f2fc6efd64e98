import Zrpc.PayloadStats
import Zrpc.Proofs.Answer
import Zrpc.Proofs.Grammar
import Zrpc.Proofs.Receive

/-!
# Sizes in the payload events

An event should name the length of the payload and the length that stands in its frame. The events
of a sent request and of a received message do, unless a length is cut to 32 bits or the compressor
leaves nothing of a payload. The event of a reply is made before the response takes over the compress
bit of the request, so it is wrong for every reply that is compressed.
-/

namespace Zrpc.Proofs
open Zrpc.Lib

variable {V T : Type}

/-! ### The payload length field -/

/-- Where the payload length stands in the frame of a message. -/
def payloadOffset (m : Message) : Nat :=
  11 + 4 + (4 + m.serviceName.length) + (4 + m.serviceMethod.length) +
    (4 + metaSize m.metadata.entries)

def payloadLengthField (m : Message) (frame : Bytes) : Nat :=
  leNat ((frame.drop (payloadOffset m)).take 4)

/-- The event of the message `m` names the sizes that its frame has. -/
structure SizesOnWire (m : Message) (frame : Bytes) (e : PayloadEvent) : Prop where
  length : e.length = m.payload.length
  compressedLength : e.compressedLength = payloadLengthField m frame

lemma payloadLengthField_frame {m : Message} {order : List MDEntry}
    (h : order.Perm m.metadata.entries) (header : Header) (payload : Bytes) :
    payloadLengthField m (frameBytes header (encodedBody m order payload)) =
      payload.length % 2 ^ 32 := by
  have hsize := metaSize_perm h
  rw [metaSize_eq] at hsize
  let front := header.toBytes ++ (leBytes 4 (encodedBody m order payload).length ++
    (lp m.serviceName ++ (lp m.serviceMethod ++ lp (metaBytes order))))
  have hfront : front.length = payloadOffset m := by
    simp only [front, List.length_append, length_toBytes, length_leBytes, length_lp, hsize,
      payloadOffset]
    omega
  have hframe : frameBytes header (encodedBody m order payload) =
      front ++ (leBytes 4 payload.length ++ payload) := by
    simp only [front, frameBytes, encodedBody, bodyBytes, lp, List.append_assoc]
  have hword : (leBytes 4 payload.length ++ payload).take 4 = leBytes 4 payload.length :=
    List.take_left' (length_leBytes 4 _)
  rw [payloadLengthField, hframe, List.drop_left' hfront, hword, leNat_leBytes_mod]
  rfl

/-- An event with the right length is right if the compressed length it names, cut to 32 bits or
not, is the length of what was written. -/
lemma sizesOnWire_iff {m : Message} {order : List MDEntry} (h : order.Perm m.metadata.entries)
    (header : Header) (written : Bytes) {e : PayloadEvent} {n : Nat}
    (hlength : e.length = m.payload.length) (hcompressed : e.compressedLength = n) :
    SizesOnWire m (frameBytes header (encodedBody m order written)) e ↔
      n = written.length % 2 ^ 32 := by
  have hfield := payloadLengthField_frame h header written
  constructor
  · intro hs
    have hc := hs.compressedLength
    rw [hcompressed, hfield] at hc
    exact_mod_cast hc
  · intro hn
    refine ⟨hlength, ?_⟩
    rw [hcompressed, hfield, hn]

/-! ### The compression decision -/

/-- The compressor registered for gzip gives back what it has made shorter. -/
def CompressorLaw (table : CompressorTable) : Prop :=
  ∀ compressor x z, table .gzip = some compressor → compressor.zip x = .ok z →
    z.length < x.length → compressor.unzip z = .ok x

lemma compressorLaw_compressors {E : Env} (hE : GzipLaw E) : CompressorLaw (compressors E) := by
  intro compressor x z hc hz hlt
  cases hc
  exact hE x z hz hlt

/-- What Encode writes is the payload with the bit off, or a shorter text with the bit on. -/
lemma choosePayloadWith_plain (table : CompressorTable) (m : Message) :
    (∃ h, h.getCompressType = .none ∧ m.choosePayloadWith table = (h, m.payload)) ∨
    ∃ compressor z, m.header.getCompressType = .gzip ∧ compressThreshold ≤ m.payload.length ∧
      table .gzip = some compressor ∧ compressor.zip m.payload = .ok z ∧
      z.length < m.payload.length ∧ m.choosePayloadWith table = (m.header, z) := by
  rcases choosePayloadWith_cases table m with (h | ⟨hct, h⟩) | h
  · exact .inl ⟨_, by simp, h⟩
  · exact .inl ⟨_, hct, h⟩
  · exact .inr h

/-- Compressing once more gives a shorter text only if the compressor does. -/
lemma zippedLength_lt_iff {table : CompressorTable} {ct : CompressType} {payload : Bytes} :
    zippedLength table ct payload < payload.length ↔ ∃ compressor z,
      table ct = some compressor ∧ compressor.zip payload = .ok z ∧ z.length < payload.length := by
  unfold zippedLength
  cases hcomp : table ct with
  | none => simp
  | some compressor =>
    cases hz : compressor.zip payload with
    | error e => simp [hz]
    | ok z => simp [hz]

/-- Encode makes a payload shorter when the compressor does, above the threshold. -/
lemma choosePayloadWith_shorter_iff (table : CompressorTable) (m : Message) :
    (m.choosePayloadWith table).2.length < m.payload.length ↔
      m.header.getCompressType ≠ .none ∧ compressThreshold ≤ m.payload.length ∧
        zippedLength table m.header.getCompressType m.payload < m.payload.length := by
  constructor
  · intro hlt
    rcases choosePayloadWith_plain table m with
      ⟨h, -, hc⟩ | ⟨compressor, z, hct, hsize, hcomp, hz, hshort, -⟩
    · rw [hc] at hlt
      exact absurd hlt (lt_irrefl _)
    · rw [hct]
      exact ⟨by simp, hsize, zippedLength_lt_iff.mpr ⟨compressor, z, hcomp, hz, hshort⟩⟩
  · rintro ⟨hne, hsize, hlt⟩
    have hct := (compressType_cases m.header).resolve_left hne
    obtain ⟨compressor, z, hcomp, hz, hshort⟩ := zippedLength_lt_iff.mp hlt
    rw [hct] at hcomp
    rw [choosePayloadWith_zip hct hsize hcomp hz hshort]
    exact hshort

lemma choosePayloadWith_eq_of_not_shorter {table : CompressorTable} {m : Message}
    (h : ¬(m.choosePayloadWith table).2.length < m.payload.length) :
    (m.choosePayloadWith table).2 = m.payload := by
  rcases choosePayloadWith_plain table m with ⟨h', -, hc⟩ | ⟨compressor, z, -, -, -, -, hlt, hc⟩
  · rw [hc]
  · rw [hc] at h
    exact absurd hlt h

/-! ### The event of a sent request -/

/-- The subtraction in `sendMsg` leaves the length of what `Encode` wrote. -/
lemma clientOutPayload_compressedLength (table : CompressorTable) (req : Message)
    (c : EncodeChoice req.metadata) (order : MDOrder req.metadata) :
    (clientOutPayload { req with header := (req.choosePayloadWith table).1 } order
      (frameBytes (req.choosePayloadWith table).1
        (encodedBody req c.writeOrder (req.choosePayloadWith table).2))).compressedLength =
      ((req.choosePayloadWith table).2.length : Int) := by
  rcases choosePayloadWith_plain table req with ⟨h, hct, hc⟩ | ⟨compressor, z, hct, -, -, -, -, hc⟩
  · rw [hc]
    simp [clientOutPayload, hct]
  · rw [hc]
    have hlen := length_bodyFrame req c req.header z
    have hmeta : metaSize order.1 = metaSize c.sizeOrder :=
      metaSize_perm (order.2.trans c.size_perm.symm)
    unfold bodyLength at hlen
    simp only [clientOutPayload, hct]
    rw [if_pos (by decide), hlen, hmeta]
    omega

lemma sendStats_eq (table : CompressorTable) (req : Message) (c : EncodeChoice req.metadata)
    (order : MDOrder req.metadata) :
    ∃ e, req.sendStats table c order = .ok (frameBytes (req.choosePayloadWith table).1
        (encodedBody req c.writeOrder (req.choosePayloadWith table).2), e) ∧
      e.length = req.payload.length ∧
      e.compressedLength = ((req.choosePayloadWith table).2.length : Int) := by
  refine ⟨clientOutPayload { req with header := (req.choosePayloadWith table).1 } order _, ?_, rfl,
    clientOutPayload_compressedLength table req c order⟩
  unfold Message.sendStats
  rw [encodeWith_eq]
  rfl

/-- The event of a sent request is right if the written length fits its field. -/
lemma sendStats_sizes_iff {table : CompressorTable} {req : Message} {c : EncodeChoice req.metadata}
    {order : MDOrder req.metadata} {frame : Bytes} {e : PayloadEvent}
    (h : req.sendStats table c order = .ok (frame, e)) :
    SizesOnWire req frame e ↔ (req.choosePayloadWith table).2.length < 2 ^ 32 := by
  obtain ⟨e', he, hlength, hcompressed⟩ := sendStats_eq table req c order
  rw [h] at he
  obtain ⟨rfl, rfl⟩ := Prod.mk.inj (Except.ok.inj he)
  rw [sizesOnWire_iff c.write_perm _ _ hlength hcompressed]
  omega

/-! ### The events of a received message -/

/-- A frame that `Decode` has read to its end and no further was read as it was written. -/
lemma decodeWith_frame {E : Env} {table : CompressorTable} {maxLength : Int} {m : Message}
    {order : List MDEntry} {header : Header} {written tail : Bytes} {failure : GoString}
    {got : Message}
    (h : decodeWith E table maxLength
      ⟨frameBytes header (encodedBody m order written) ++ tail, failure⟩ =
        (.ok got, ⟨tail, failure⟩)) :
    written.length < 2 ^ 32 ∧ got.header = header ∧
      decodePayloadWith table header written = .ok got.payload := by
  let body := encodedBody m order written
  have hstream : frameBytes header body ++ tail =
      header.toBytes ++ (leBytes 4 body.length ++ (body ++ tail)) := by
    simp only [frameBytes, lp, List.append_assoc]
  obtain ⟨-, -, -, hdata, hrest⟩ := decodeWith_ok h
  dsimp only at hdata hrest
  rw [hstream] at hdata hrest
  have hhead : (header.toBytes ++ (leBytes 4 body.length ++ (body ++ tail))).take 11 =
      header.toBytes := List.take_left' (length_toBytes header)
  have hdrop : (header.toBytes ++ (leBytes 4 body.length ++ (body ++ tail))).drop 11 =
      leBytes 4 body.length ++ (body ++ tail) := List.drop_left' (length_toBytes header)
  have hlength : frameLength (header.toBytes ++ (leBytes 4 body.length ++ (body ++ tail))) =
      body.length % 2 ^ 32 := by
    rw [frameLength, hdrop, List.take_left' (length_leBytes 4 _), leNat_leBytes_mod]
    rfl
  -- the reader stands behind the whole body, so its length was not cut
  have hbody : body.length < 2 ^ 32 := by
    have hlen := congrArg List.length hrest
    rw [hlength] at hlen
    simp only [List.length_drop, List.length_append, length_toBytes, length_leBytes] at hlen
    have hmod := Nat.mod_le body.length (2 ^ 32)
    have hlt := Nat.mod_lt body.length (by omega : 2 ^ 32 > 0)
    omega
  have hframe : frameData (header.toBytes ++ (leBytes 4 body.length ++ (body ++ tail))) = body := by
    rw [frameData, hlength, Nat.mod_eq_of_lt hbody, ← List.drop_drop (i := 4) (j := 11), hdrop,
      List.drop_left' (length_leBytes 4 _), List.take_left]
  rw [hhead, ofBytes_toBytes, hframe] at hdata
  obtain ⟨layout, hlayout, hdata⟩ := bind_eq_ok hdata
  obtain ⟨payload, hpayload, hgot⟩ := bind_eq_ok hdata
  cases hgot
  obtain ⟨name, method, es, written', rest, hparts, -, -, -, -, htext⟩ := parseData_exact hlayout
  have hsame : written = written' := bodyBytes_payload_inj hbody hparts
  rw [htext, ← hsame] at hpayload
  refine ⟨?_, rfl, hpayload⟩
  simp only [body, encodedBody, bodyBytes, List.length_append, length_lp] at hbody
  omega

/-- The event of a received message is right unless the compressor left nothing of the payload. -/
lemma inPayload_sizes_iff {E : Env} {table : CompressorTable} (hlaw : CompressorLaw table)
    {sent got : Message} {c : EncodeChoice sent.metadata} {frame : Bytes} {header : Header}
    {maxLength : Int} {tail : Bytes} {failure : GoString}
    (henc : sent.encodeWith table c = .ok (frame, header))
    (hdec : decodeWith E table maxLength ⟨frame ++ tail, failure⟩ = (.ok got, ⟨tail, failure⟩))
    (client : Bool) :
    SizesOnWire sent frame (inPayload client table got) ↔
      sent.payload = [] ∨ (sent.choosePayloadWith table).2 ≠ [] := by
  rw [encodeWith_eq] at henc
  obtain ⟨rfl, rfl⟩ := Prod.mk.inj (Except.ok.inj henc)
  obtain ⟨hlt, hheader, hpayload⟩ := decodeWith_frame hdec
  rcases choosePayloadWith_plain table sent with
    ⟨h, hct, hc⟩ | ⟨compressor, z, hct, -, hcomp, hzip, hshort, hc⟩
  · rw [hc] at hlt hheader hpayload ⊢
    dsimp only at hlt hheader hpayload ⊢
    have hsame : got.payload = sent.payload := by
      rw [decodePayloadWith_plain table sent.payload hct] at hpayload
      exact (Except.ok.inj hpayload).symm
    have hevent : inPayload client table got = ⟨client, sent.payload, sent.payload.length,
        sent.payload.length, sent.payload.length + 11⟩ := by
      simp [inPayload, hheader, hct, hsame]
    rw [hevent, sizesOnWire_iff c.write_perm h sent.payload rfl rfl, Nat.mod_eq_of_lt hlt]
    exact iff_of_true rfl (em _)
  · rw [hc] at hlt hheader hpayload ⊢
    dsimp only at hlt hheader hpayload ⊢
    by_cases hnil : z = []
    · -- an empty text is not handed to the compressor: the payload is lost
      have hlost : got.payload = [] := by
        rw [hnil] at hpayload
        exact (Except.ok.inj hpayload).symm
      have hpos : 0 < sent.payload.length := by omega
      refine iff_of_false (fun hs => ?_) ?_
      · have hl := hs.length
        simp only [inPayload, hlost, List.length_nil] at hl
        omega
      · rintro (h | h)
        · simp [h] at hpos
        · exact h hnil
    · have hpos : 0 < z.length := List.length_pos_iff.mpr hnil
      have hunzip := hlaw compressor sent.payload z hcomp hzip hshort
      have hsame : got.payload = sent.payload := by
        simp only [decodePayloadWith, hpos, hct, hcomp, hunzip] at hpayload
        exact (Except.ok.inj hpayload).symm
      have hevent : inPayload client table got = ⟨client, sent.payload, sent.payload.length,
          z.length, z.length + 11⟩ := by
        simp [inPayload, hheader, hct, hsame, zippedLength, hcomp, hzip]
      rw [hevent, sizesOnWire_iff c.write_perm sent.header z rfl rfl, Nat.mod_eq_of_lt hlt]
      exact iff_of_true rfl (.inr hnil)

lemma argumentStats_eq_some {P : Proto V T} {table : CompressorTable} {req : Message} {t : T}
    {e : PayloadEvent} (h : argumentStats P table req t = some e) : e = inPayload false table req := by
  unfold argumentStats at h
  split at h
  · exact (Option.some.inj h).symm
  · cases h

lemma recvStats_eq_some {P : Proto V T} {table : CompressorTable} {t : T} {res : Message}
    {e : PayloadEvent} (h : recvStats P table t res = some e) : e = inPayload true table res := by
  unfold recvStats at h
  split at h
  · exact (Option.some.inj h).symm
  · cases h

/-! ### The event of a reply -/

/-- The reply `d` to `req` is one that `Encode` makes shorter. -/
def ReplyShrinks (table : CompressorTable) (req : Message) (d : Bytes) : Prop :=
  1024 < d.length ∧ req.header.getCompressType ≠ .none ∧
    zippedLength table req.header.getCompressType d < d.length

/-- The response that a handler leaves has no payload yet, and its compress bit is off. -/
lemma handledResponse_eq (E : Env) (opt : ServerOption) (req : Message) (attached : List MD)
    (err : Option GoString) :
    ∃ res, handledResponse E opt req attached err = .ok res ∧ res.payload = [] ∧
      res.header.getCompressType = .none := by
  obtain ⟨hset, hpay⟩ := foldl_setMeta attached (responseOf req)
  have hnone : (responseOf req).header.getCompressType = .none := by
    simp [responseOf, Message.clone]
  cases err with
  | none => exact ⟨_, rfl, hpay, by rw [hset, hnone]⟩
  | some e =>
    obtain ⟨res, herr, hheader, hpay', -⟩ :=
      handleError_eq E opt (attached.foldl setMeta (responseOf req)) e
    refine ⟨res, herr, hpay'.trans hpay, ?_⟩
    rw [hheader, hset]
    simp [hnone]

/-- The response of a reply that can be marshalled: its payload is the reply, and it takes over the
compress bit of the request if the reply is long. -/
lemma prepareResponse_handled (E : Env) (P : Proto V T) (opt : ServerOption)
    (err : Option GoString) (req : Message) {res : Message} {v : V} {d : Bytes}
    (hres : res.payload = []) (hct : res.header.getCompressType = .none)
    (hd : P.codecMarshal (some v) = .ok d) :
    ∃ res', prepareResponse E P opt err req res (some v) = .ok res' ∧ res'.payload = d ∧
      res'.header.getCompressType =
        if 1024 < d.length then req.header.getCompressType else .none := by
  have hd' : marshalReply P (some v) = .ok d := hd
  rw [prepareResponse_marshalled E P opt err req res hd']
  by_cases h0 : d.length = 0
  · refine ⟨res, if_pos h0, ?_, ?_⟩
    · rw [hres, List.length_eq_zero_iff.mp h0]
    · rw [hct, if_neg (by omega)]
  rw [if_neg h0]
  by_cases hz : 1024 < d.length ∧ req.header.getCompressType ≠ .none
  · refine ⟨_, if_pos hz, rfl, ?_⟩
    simp [hz.1]
  · refine ⟨_, if_neg hz, rfl, ?_⟩
    dsimp only
    rw [hct]
    by_cases hlong : 1024 < d.length
    · have hnone : req.header.getCompressType = .none := by
        by_contra hne
        exact hz ⟨hlong, hne⟩
      rw [if_pos hlong, hnone]
    · rw [if_neg hlong]

/-- What `processOneRequest` writes for a reply, and the event it makes of it before. -/
lemma answerStats_eq (E : Env) (P : Proto V T) (opt : ServerOption) (table : CompressorTable)
    (c : ∀ md, EncodeChoice md) (req : Message) (attached : List MD) {v : V}
    (err : Option GoString) {d : Bytes} (hd : P.codecMarshal (some v) = .ok d) :
    ∃ res, answerStats E P opt table c req attached (some v) err =
        .ok (some ⟨false, d, d.length, d.length, d.length + 11⟩,
          ⟨res, frameBytes (res.choosePayloadWith table).1
            (encodedBody res (c res.metadata).writeOrder (res.choosePayloadWith table).2)⟩) ∧
      res.payload = d ∧
      res.header.getCompressType =
        if 1024 < d.length then req.header.getCompressType else .none := by
  obtain ⟨res₀, hhandled, hpay, hnone⟩ := handledResponse_eq E opt req attached err
  obtain ⟨res, hprep, hpayload, hct⟩ := prepareResponse_handled E P opt err req hpay hnone hd
  refine ⟨res, ?_, hpayload, hct⟩
  have hevent : replyStats P table res₀ (some v) =
      some ⟨false, d, d.length, d.length, d.length + 11⟩ := by
    simp [replyStats, hd, serverOutPayload, hnone]
  simp only [answerStats, hhandled, hevent, sendResponseWith, hprep, encodeWith_eq, Bind.bind,
    Except.bind, Pure.pure, Except.pure]

/-- The event of a reply is right if the reply fits its length field and is not compressed. -/
lemma answerStats_sizes_iff {E : Env} {P : Proto V T} {opt : ServerOption}
    {table : CompressorTable} {c : ∀ md, EncodeChoice md} {req : Message} {attached : List MD}
    {v : V} {err : Option GoString} {d : Bytes} (hd : P.codecMarshal (some v) = .ok d)
    {e : PayloadEvent} {sent : Sent}
    (h : answerStats E P opt table c req attached (some v) err = .ok (some e, sent)) :
    SizesOnWire sent.message sent.frame e ↔ d.length < 2 ^ 32 ∧ ¬ReplyShrinks table req d := by
  obtain ⟨res, hanswer, hpayload, hct⟩ := answerStats_eq E P opt table c req attached err hd
  rw [h] at hanswer
  obtain ⟨hevent, rfl⟩ := Prod.mk.inj (Except.ok.inj hanswer)
  cases hevent
  have hshrinks : (res.choosePayloadWith table).2.length < d.length ↔ ReplyShrinks table req d := by
    have hiff := choosePayloadWith_shorter_iff table res
    rw [hpayload, hct] at hiff
    rw [hiff]
    unfold ReplyShrinks compressThreshold
    by_cases hlong : 1024 < d.length
    · have hle : 1024 ≤ d.length := by omega
      simp [hlong, hle]
    · simp [hlong]
  rw [sizesOnWire_iff (c res.metadata).write_perm _ _ (by rw [hpayload]) rfl]
  by_cases hr : ReplyShrinks table req d
  · have hlt := hshrinks.mpr hr
    have hmod := Nat.mod_le (res.choosePayloadWith table).2.length (2 ^ 32)
    exact iff_of_false (by omega) (fun hc => hc.2 hr)
  · have hsame : (res.choosePayloadWith table).2 = res.payload :=
      choosePayloadWith_eq_of_not_shorter (by rw [hpayload, hshrinks]; exact hr)
    rw [hsame, hpayload]
    constructor
    · intro hmod
      exact ⟨by omega, hr⟩
    · rintro ⟨hlt, -⟩
      rw [Nat.mod_eq_of_lt hlt]

/-- An event of a reply comes from a handler that has returned one, which could be marshalled. -/
lemma handleRequestStats_event {E : Env} {P : Proto V T} {S : Server V T} {table : CompressorTable}
    {c : ∀ md, EncodeChoice md} {ctx : Ctx} {req : Message} {e : PayloadEvent} {sent : Sent}
    (h : S.handleRequestStats E P table c ctx req = .ok (some e, sent)) :
    ∃ srv md attached v err d, S.serviceMap req.serviceName = some srv ∧
      srv.methods req.serviceMethod = some md ∧
      md.handler ctx (decodeArgument P req) = .returned attached (some v) err ∧
      P.codecMarshal (some v) = .ok d ∧
      answerStats E P S.opt table c req attached (some v) err = .ok (some e, sent) := by
  unfold Server.handleRequestStats at h
  obtain ⟨methods, hmethods, h⟩ := bind_eq_ok h
  cases hsvc : S.serviceMap req.serviceName with
  | none =>
    rw [hsvc] at hmethods
    cases hmethods
  | some srv =>
    rw [hsvc] at hmethods
    cases hmethods
    cases hmd : srv.methods req.serviceMethod with
    | none =>
      simp only [hmd] at h
      obtain ⟨sent', -, h⟩ := bind_eq_ok h
      cases h
    | some md =>
      simp only [hmd] at h
      cases hret : md.handler ctx (decodeArgument P req) with
      | panicked =>
        simp only [hret] at h
        cases h
      | returned attached reply err =>
        simp only [hret] at h
        have hevent := h
        unfold answerStats at hevent
        obtain ⟨res, -, hevent⟩ := bind_eq_ok hevent
        obtain ⟨sent', -, hevent⟩ := bind_eq_ok hevent
        have hstats : replyStats P table res reply = some e :=
          (Prod.mk.inj (Except.ok.inj hevent)).1
        cases reply with
        | none => cases hstats
        | some v =>
          cases hd : P.codecMarshal (some v) with
          | error e' =>
            simp only [replyStats, hd] at hstats
            cases hstats
          | ok d => exact ⟨srv, md, attached, v, err, d, rfl, hmd, hret, hd, h⟩

/-! ### The events leave the messages as they are -/

/-- Without its event, `sendMsg` is the one of the calls model. -/
theorem sendMsgStats_forget (E : Env) (P : Proto V T) (c : ∀ md, EncodeChoice md)
    (ranged : ∀ md, MDOrder md) (order : List MDEntry) (calls : Calls) (ctx : CallCtx)
    (call : Call V) :
    (fun r => (r.1, r.2.1)) <$> calls.sendMsgStats E P (compressors E) c ranged order ctx call =
      calls.sendMsg E P c order ctx call := by
  unfold Calls.sendMsgStats Calls.sendMsg
  cases hreq : prepareMessage E P order call ctx with
  | error e => rfl
  | ok req =>
    simp only [Message.sendStats, Message.encode, encodeWith_eq, Bind.bind, Except.bind,
      Pure.pure, Except.pure, Functor.map, Except.map]

lemma sendResponseWith_compressors (E : Env) (P : Proto V T) (opt : ServerOption)
    (c : ∀ md, EncodeChoice md) (err : Option GoString) (req res : Message) (reply : Option V) :
    sendResponseWith E P opt (compressors E) c err req res reply =
      sendResponse E P opt c err req res reply := rfl

lemma answerStats_forget (E : Env) (P : Proto V T) (opt : ServerOption) (c : ∀ md, EncodeChoice md)
    (req : Message) (attached : List MD) (reply : Option V) (err : Option GoString) :
    Prod.snd <$> answerStats E P opt (compressors E) c req attached reply err =
      (handledResponse E opt req attached err >>= fun res =>
        sendResponse E P opt c err req res reply) := by
  unfold answerStats
  cases handledResponse E opt req attached err with
  | error f => rfl
  | ok res =>
    simp only [sendResponseWith_compressors, Bind.bind, Except.bind]
    cases sendResponse E P opt c err req res reply <;> rfl

/-- Without its event, a handled request is the one of the server model. -/
theorem handleRequestStats_forget (E : Env) (P : Proto V T) (S : Server V T)
    (c : ∀ md, EncodeChoice md) (ctx : Ctx) (req : Message) :
    Prod.snd <$> S.handleRequestStats E P (compressors E) c ctx req =
      S.handleRequest E P c ctx req := by
  unfold Server.handleRequestStats Server.handleRequest
  cases hsvc : S.serviceMap req.serviceName with
  | none => rfl
  | some srv =>
    simp only [Server.methodsOf, Bind.bind, Except.bind]
    cases hmd : srv.methods req.serviceMethod with
    | none =>
      simp only [sendResponseWith_compressors]
      cases sendResponse E P S.opt c _ req req.clone none <;> rfl
    | some md =>
      dsimp only
      cases hret : md.handler ctx (decodeArgument P req) with
      | panicked => rfl
      | returned attached reply err =>
        dsimp only
        rw [answerStats_forget]
        cases err with
        | none => rfl
        | some e => rfl

/-! ### The four events -/

/-- When the sizes in a payload event are the sizes on the wire, for every message, every metadata
map and every registered compressor: for a sent request if the written length fits its field, for a
received message if the compressor left something of its payload, and for a reply if it fits its
field and is not compressed. -/
theorem payloadEvents_iff (E : Env) (P : Proto V T) (table : CompressorTable) :
    (∀ (req : Message) (c : EncodeChoice req.metadata) (order : MDOrder req.metadata)
      (frame : Bytes) (e : PayloadEvent), req.sendStats table c order = .ok (frame, e) →
      (SizesOnWire req frame e ↔ (req.choosePayloadWith table).2.length < 2 ^ 32)) ∧
    (CompressorLaw table → ∀ (sent got : Message) (c : EncodeChoice sent.metadata) (frame : Bytes)
      (header : Header) (maxLength : Int) (tail : Bytes) (failure : GoString),
      sent.encodeWith table c = .ok (frame, header) →
      decodeWith E table maxLength ⟨frame ++ tail, failure⟩ = (.ok got, ⟨tail, failure⟩) →
      (∀ t e, argumentStats P table got t = some e →
        (SizesOnWire sent frame e ↔
          sent.payload = [] ∨ (sent.choosePayloadWith table).2 ≠ [])) ∧
      ∀ t e, recvStats P table t got = some e →
        (SizesOnWire sent frame e ↔
          sent.payload = [] ∨ (sent.choosePayloadWith table).2 ≠ [])) ∧
    ∀ (S : Server V T) (c : ∀ md, EncodeChoice md) (ctx : Ctx) (req : Message) (e : PayloadEvent)
      (sent : Sent), S.handleRequestStats E P table c ctx req = .ok (some e, sent) →
      ∃ srv md attached v err d, S.serviceMap req.serviceName = some srv ∧
        srv.methods req.serviceMethod = some md ∧
        md.handler ctx (decodeArgument P req) = .returned attached (some v) err ∧
        P.codecMarshal (some v) = .ok d ∧
        (SizesOnWire sent.message sent.frame e ↔
          d.length < 2 ^ 32 ∧ ¬ReplyShrinks table req d) := by
  refine ⟨?_, ?_, ?_⟩
  · intro req c order frame e h
    exact sendStats_sizes_iff h
  · intro hlaw sent got c frame header maxLength tail failure henc hdec
    have hsizes := inPayload_sizes_iff hlaw henc hdec
    constructor
    · intro t e he
      rw [argumentStats_eq_some he]
      exact hsizes false
    · intro t e he
      rw [recvStats_eq_some he]
      exact hsizes true
  · intro S c ctx req e sent h
    obtain ⟨srv, md, attached, v, err, d, hsrv, hmd, hret, hd, hanswer⟩ :=
      handleRequestStats_event h
    exact ⟨srv, md, attached, v, err, d, hsrv, hmd, hret, hd, answerStats_sizes_iff hd hanswer⟩

/-- The echo server replies with the payload of the request. -/
lemma echo_handleRequestStats (E : Env) (opt : ServerOption) (table : CompressorTable)
    (c : ∀ md, EncodeChoice md) (ctx : Ctx) (req : Message)
    (hname : req.serviceName = str "Greeter") (hmethod : req.serviceMethod = str "SayHello") :
    (echoServer opt).handleRequestStats E bytesProto table c ctx req =
      answerStats E bytesProto opt table c req [] (some req.payload) none := by
  simp only [Server.handleRequestStats, echoServer, hname, hmethod, echoService, if_true,
    Server.methodsOf, Bind.bind, Except.bind]
  rfl

theorem sampleRequest_payloadEvents :
    (∃ frame e, sampleRequest.sendStats (compressors storedEnv) (.plain _)
        ⟨sampleRequest.metadata.entries, .refl _⟩ = .ok (frame, e) ∧
      SizesOnWire sampleRequest frame e) ∧
    (∃ frame header got, sampleRequest.encodeWith (compressors storedEnv) (.plain _) =
        .ok (frame, header) ∧
      decodeWith storedEnv (compressors storedEnv) 1024 ⟨frame ++ [], ioEOF⟩ =
        (.ok got, ⟨[], ioEOF⟩) ∧
      SizesOnWire sampleRequest frame (serverInPayload (compressors storedEnv) got)) ∧
    ∃ e sent, (echoServer plainOption).handleRequestStats storedEnv bytesProto
        (compressors storedEnv) .plain ⟨∅, none⟩ sampleRequest = .ok (some e, sent) ∧
      SizesOnWire sent.message sent.frame e := by
  obtain ⟨hout, hin, hreply⟩ := payloadEvents_iff storedEnv bytesProto (compressors storedEnv)
  have hlaw := compressorLaw_compressors storedEnv_law
  refine ⟨?_, ?_, ?_⟩
  · obtain ⟨e, he, -⟩ := sendStats_eq (compressors storedEnv) sampleRequest (.plain _)
      ⟨sampleRequest.metadata.entries, .refl _⟩
    exact ⟨_, e, he, (hout _ _ _ _ _ he).mpr (by decide)⟩
  · obtain ⟨frame, henc, hdec⟩ := decode_encode storedEnv storedEnv_law sampleRequest (.plain _)
      (by decide) (by decide) 1024 (by decide) (.inr (by decide)) [] ioEOF
    refine ⟨frame, _, _, henc, hdec, ?_⟩
    exact ((hin hlaw sampleRequest _ _ frame _ 1024 [] ioEOF henc hdec).1 () _ rfl).mpr
      (.inr (by decide))
  · have hecho := echo_handleRequestStats storedEnv plainOption (compressors storedEnv) .plain
      ⟨∅, none⟩ sampleRequest rfl rfl
    obtain ⟨res, hanswer, -⟩ := answerStats_eq storedEnv bytesProto plainOption
      (compressors storedEnv) .plain sampleRequest [] (v := sampleRequest.payload) none rfl
    rw [hanswer] at hecho
    obtain ⟨srv, md, attached, v, err, d, hsrv, hmd, hret, hd, hiff⟩ := hreply _ _ _ _ _ _ hecho
    have hsrv' : echoService = srv := Option.some.inj hsrv
    subst hsrv'
    have hmd' : echoHandler = md := Option.some.inj hmd
    subst hmd'
    cases hret
    cases hd
    refine ⟨_, _, hecho, hiff.mpr ⟨by decide, ?_⟩⟩
    rintro ⟨hlong, -⟩
    exact absurd hlong (by decide)

/-- The reply to a compressed request is two kilobytes long and one byte on the wire, and its event
names two kilobytes for both. -/
theorem compressedReply_sizes : CompressorLaw (compressors zerosEnv) ∧
    ∃ e sent, (echoServer plainOption).handleRequestStats zerosEnv bytesProto
        (compressors zerosEnv) .plain ⟨∅, none⟩ zerosRequest = .ok (some e, sent) ∧
      e.compressedLength = 2048 ∧ payloadLengthField sent.message sent.frame = 1 ∧
      ¬SizesOnWire sent.message sent.frame e := by
  refine ⟨compressorLaw_compressors zerosEnv_law, ?_⟩
  have hecho := echo_handleRequestStats zerosEnv plainOption (compressors zerosEnv) .plain
    ⟨∅, none⟩ zerosRequest rfl rfl
  obtain ⟨res, hanswer, hpayload, hct⟩ := answerStats_eq zerosEnv bytesProto plainOption
    (compressors zerosEnv) .plain zerosRequest [] (v := zerosRequest.payload) none rfl
  have hlen : zerosRequest.payload.length = 2048 := List.length_replicate
  have hgzip : res.header.getCompressType = .gzip := by
    rw [hct, hlen]
    rfl
  have hsize : res.payload.length = 2048 := by rw [hpayload, hlen]
  have hchoose : res.choosePayloadWith (compressors zerosEnv) = (res.header, [0]) :=
    choosePayloadWith_zip hgzip (by rw [hsize]; decide) rfl (zerosEnv_zip hpayload)
      (by rw [hsize]; decide)
  have hfield := payloadLengthField_frame (EncodeChoice.plain res.metadata).write_perm
    (res.choosePayloadWith (compressors zerosEnv)).1 (res.choosePayloadWith (compressors zerosEnv)).2
  have hwritten : (res.choosePayloadWith (compressors zerosEnv)).2.length % 2 ^ 32 = 1 := by
    rw [hchoose]
    rfl
  rw [hwritten] at hfield
  refine ⟨_, _, hecho.trans hanswer, by rw [hlen]; rfl, hfield, fun hs => ?_⟩
  have hc := hs.compressedLength
  rw [hfield, hlen] at hc
  exact absurd hc (by decide)

end Zrpc.Proofs
