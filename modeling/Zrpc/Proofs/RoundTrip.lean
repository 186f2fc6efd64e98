import Zrpc.Proofs.Decode
import Zrpc.Proofs.HeaderBits
import Zrpc.Proofs.Metadata

/-!
# Stream round trip of the wire format

A list of messages written with `Encode` and read back with as many calls of `Decode` comes back
unchanged, apart from the compress bit, and the reader stands right behind the last frame.
-/

namespace Zrpc.Proofs
open Zrpc.Lib

/-! ### Decode on a frame -/

lemma readFull_append (a b : Bytes) (failure : GoString) :
    (Reader.mk (a ++ b) failure).readFull a.length = (.ok a, ⟨b, failure⟩) := by
  simp [Reader.readFull]

lemma readFull_ok {r r' : Reader} {n : Nat} {b : Bytes} (h : r.readFull n = (.ok b, r')) :
    n ≤ r.data.length ∧ b = r.data.take n ∧ r'.data = r.data.drop n := by
  unfold Reader.readFull at h
  split at h
  · next hn =>
    cases h
    exact ⟨hn, rfl, rfl⟩
  · split at h <;> cases h

/-- The data length and the data of the frame a stream begins with. -/
def frameLength (stream : Bytes) : Nat := leNat ((stream.drop 11).take 4)

def frameData (stream : Bytes) : Bytes := (stream.drop 15).take (frameLength stream)

/-- What a message that `Decode` returned was read from, and what is left to read. -/
lemma decodeWith_ok {E : Env} {table : CompressorTable} {maxLength : Int} {r r' : Reader}
    {got : Message} (h : decodeWith E table maxLength r = (.ok got, r')) :
    15 + frameLength r.data ≤ r.data.length ∧
      (Header.ofBytes (r.data.take 11)).checkMagicNumber = true ∧
      ¬(0 < maxLength ∧ maxLength < (frameLength r.data : Int)) ∧
      decodeMessageDataWith E table (Header.ofBytes (r.data.take 11)) (frameData r.data) = .ok got ∧
      r'.data = r.data.drop (15 + frameLength r.data) := by
  unfold decodeWith at h
  split at h
  · cases h
  next b r₁ hread =>
  obtain ⟨hn₁, rfl, hr₁⟩ := readFull_ok hread
  dsimp only at h
  split at h
  · cases h
  next hmagic =>
  split at h
  · cases h
  next b r₂ hread₂ =>
  obtain ⟨hn₂, rfl, hr₂⟩ := readFull_ok hread₂
  rw [hr₁] at hn₂ hr₂ h
  rw [List.drop_drop] at hr₂
  split at h
  · cases h
  next hmax =>
  split at h
  · cases h
  next b r₃ hread₃ =>
  obtain ⟨hn₃, rfl, hr₃⟩ := readFull_ok hread₃
  obtain ⟨hdata, rfl⟩ := Prod.mk.inj h
  rw [hr₂] at hn₃ hdata hr₃
  rw [List.drop_drop] at hr₃
  rw [List.length_drop] at hn₂ hn₃
  unfold frameLength frameData
  exact ⟨by omega, by simpa using hmagic, hmax, hdata, hr₃⟩

/-- When `Decode` returns a message, and which one. -/
theorem decode_ok_iff {E : Env} {maxLength : Int} {r : Reader} {got : Message} :
    (decode E maxLength r).1 = .ok got ↔ 15 + frameLength r.data ≤ r.data.length ∧
      (Header.ofBytes (r.data.take 11)).checkMagicNumber = true ∧
      ¬(0 < maxLength ∧ maxLength < (frameLength r.data : Int)) ∧
      decodeMessageData E (Header.ofBytes (r.data.take 11)) (frameData r.data) = .ok got := by
  constructor
  · intro h
    have hok : decodeWith E (compressors E) maxLength r =
        (.ok got, (decodeWith E (compressors E) maxLength r).2) := Prod.ext h rfl
    obtain ⟨hlen, hmagic, hmax, hdata, -⟩ := decodeWith_ok hok
    exact ⟨hlen, hmagic, hmax, hdata⟩
  · rintro ⟨hlen, hmagic, hmax, hdata⟩
    have h1 : r.readFull 11 = (.ok (r.data.take 11), ⟨r.data.drop 11, r.failure⟩) :=
      if_pos (by omega)
    have h2 : (Reader.mk (r.data.drop 11) r.failure).readFull 4 =
        (.ok ((r.data.drop 11).take 4), ⟨(r.data.drop 11).drop 4, r.failure⟩) :=
      if_pos (by rw [List.length_drop]; omega)
    have h3 : (Reader.mk (r.data.drop 15) r.failure).readFull (frameLength r.data) =
        (.ok (frameData r.data), ⟨(r.data.drop 15).drop (frameLength r.data), r.failure⟩) :=
      if_pos (by rw [List.length_drop]; omega)
    rw [List.drop_drop] at h2
    unfold frameLength at hmax h3
    unfold decodeMessageData at hdata
    simp only [decode, decodeWith, h1, hmagic, Bool.true_eq_false, if_false, h2, hmax, h3, hdata]

/-- Decode on a frame: it stops behind the length if that is over the limit, and behind the frame
otherwise. -/
lemma decode_frame_cases (E : Env) (maxLength : Int) (h : Header) (body tail : Bytes)
    (failure : GoString) (hm : h.checkMagicNumber = true) (hlen : body.length < 2 ^ 32) :
    decode E maxLength ⟨frameBytes h body ++ tail, failure⟩ =
      if 0 < maxLength ∧ maxLength < (body.length : Int) then
        (fail (str "the max receive message length is " ++ str (toString maxLength) ++
          str ", but receive " ++ str (toString body.length)), ⟨body ++ tail, failure⟩)
      else (decodeMessageData E h body, ⟨tail, failure⟩) := by
  have h1 := readFull_append h.toBytes (leBytes 4 body.length ++ (body ++ tail)) failure
  have h2 := readFull_append (leBytes 4 body.length) (body ++ tail) failure
  have h3 := readFull_append body tail failure
  have hnat : leNat (leBytes 4 body.length) = body.length := leNat_leBytes (by simpa using hlen)
  rw [length_toBytes] at h1
  rw [length_leBytes] at h2
  have hdata : frameBytes h body ++ tail =
      h.toBytes ++ (leBytes 4 body.length ++ (body ++ tail)) := by
    simp only [frameBytes, lp, List.append_assoc]
  rw [hdata]
  simp only [decode, decodeWith, decodeMessageData, h1, ofBytes_toBytes, hm, Bool.true_eq_false,
    if_false, h2, hnat, h3]

/-- On a frame within the limit, Decode reads the frame and nothing else. -/
theorem decode_frame (E : Env) (maxLength : Int) (h : Header) (body tail : Bytes)
    (failure : GoString) (hm : h.checkMagicNumber = true) (hlen : body.length < 2 ^ 32)
    (hmax : maxLength ≤ 0 ∨ (body.length : Int) ≤ maxLength) :
    decode E maxLength ⟨frameBytes h body ++ tail, failure⟩ =
      (decodeMessageData E h body, ⟨tail, failure⟩) := by
  rw [decode_frame_cases E maxLength h body tail failure hm hlen, if_neg (by omega)]

lemma layoutMetadata_eq (E : Env) (data : Bytes) (entries : List (Span × List Span)) :
    Layout.metadata E data entries = appendAll E ∅ (entries.map (entryText data)) := by
  simp only [Layout.metadata, appendAll, List.foldl_map, entryText]

/-- The data of a frame decodes into its parts, with the payload decompressed. -/
theorem decodeMessageData_eq (E : Env) (h : Header) (name method payload p : Bytes)
    (es : List MDEntry) (hes : ∀ e ∈ es, EntryFits e)
    (hlen : (bodyBytes name method (metaBytes es) payload).length < 2 ^ 32)
    (hp : decodePayload E h payload = .ok p) :
    decodeMessageData E h (bodyBytes name method (metaBytes es) payload) =
      .ok ⟨h, name, method, appendAll E ∅ es, p⟩ := by
  obtain ⟨L, hL, hname, hmethod, hentries, hpayload⟩ :=
    parseData_eq name method payload [] es hes hlen
  rw [List.append_nil] at hL hname hmethod hentries hpayload
  unfold decodePayload at hp
  simp only [decodeMessageData, decodeMessageDataWith, hL, Bind.bind, Except.bind, hpayload, hp,
    Pure.pure, Except.pure, hname, hmethod, layoutMetadata_eq, hentries]

/-! ### The compression decision -/

/-- What the code relies on in the registered compressor. -/
def GzipLaw (E : Env) : Prop :=
  ∀ x z, (gzipCompressor E).zip x = .ok z → z.length < x.length →
    (gzipCompressor E).unzip z = .ok x

/-- The compressor keeps its law if the gzip library reads back what it has made shorter. -/
lemma gzipLaw_of_library {E : Env} (hE : ∀ x z, E.gzipWrite x = .ok z → z.length < x.length →
    z ≠ [] ∧ E.gzipRead z = .ok x) : GzipLaw E := by
  intro x z hz hlt
  have hpos : x.length ≠ 0 := by omega
  -- what is handed back unchanged is not shorter
  have hwrite : E.gzipWrite x = .ok z := by
    simp only [gzipCompressor, zip, if_neg hpos] at hz
    split at hz
    · cases hz
      exact absurd hlt (lt_irrefl _)
    · split at hz
      · cases hz
        exact absurd hlt (lt_irrefl _)
      · next compressed hcompressed =>
        split at hz
        · cases hz
          exact absurd hlt (lt_irrefl _)
        · cases hz
          exact hcompressed
  obtain ⟨hne, hread⟩ := hE x z hwrite hlt
  have hlen : z.length ≠ 0 := fun h0 => hne (List.length_eq_zero_iff.mp h0)
  simp only [gzipCompressor, unzip, if_neg hlen, hread]

lemma compressType_cases (h : Header) : h.getCompressType = .none ∨ h.getCompressType = .gzip := by
  cases h.getCompressType with
  | none => exact .inl rfl
  | gzip => exact .inr rfl

lemma choosePayloadWith_zip {table : CompressorTable} {m : Message} {compressor : Compressor}
    {z : Bytes} (hct : m.header.getCompressType = .gzip)
    (hsize : compressThreshold ≤ m.payload.length) (hcomp : table .gzip = some compressor)
    (hz : compressor.zip m.payload = .ok z) (hshort : z.length < m.payload.length) :
    m.choosePayloadWith table = (m.header, z) := by
  simp [Message.choosePayloadWith, hct, hsize, hcomp, hz, not_le.mpr hshort]

/-- Encode either sends the payload as it is with the compress bit off, or a shorter image of it
that the compressor made, with the bit on. -/
lemma choosePayloadWith_cases (table : CompressorTable) (m : Message) :
    (m.choosePayloadWith table = (m.header.setCompressType .none, m.payload) ∨
      (m.header.getCompressType = .none ∧ m.choosePayloadWith table = (m.header, m.payload))) ∨
    ∃ compressor z, m.header.getCompressType = .gzip ∧ compressThreshold ≤ m.payload.length ∧
      table .gzip = some compressor ∧ compressor.zip m.payload = .ok z ∧
      z.length < m.payload.length ∧ m.choosePayloadWith table = (m.header, z) := by
  rcases compressType_cases m.header with hct | hct
  · refine .inl (.inr ⟨hct, ?_⟩)
    simp [Message.choosePayloadWith, hct]
  by_cases hsize : compressThreshold ≤ m.payload.length
  · cases hcomp : table .gzip with
    | none =>
      refine .inl (.inl ?_)
      simp [Message.choosePayloadWith, hct, hsize, hcomp]
    | some compressor =>
      cases hz : compressor.zip m.payload with
      | error e =>
        refine .inl (.inl ?_)
        simp [Message.choosePayloadWith, hct, hsize, hcomp, hz]
      | ok z =>
        by_cases hshort : z.length < m.payload.length
        · exact .inr ⟨compressor, z, hct, hsize, rfl, hz, hshort,
            choosePayloadWith_zip hct hsize hcomp hz hshort⟩
        · refine .inl (.inl ?_)
          simp [Message.choosePayloadWith, hct, hsize, hcomp, hz, not_lt.mp hshort]
  · refine .inl (.inl ?_)
    have hlt : m.payload.length < compressThreshold := by omega
    simp [Message.choosePayloadWith, hct, hsize, hlt]

lemma choosePayload_cases (E : Env) (m : Message) :
    (m.choosePayload E = (m.header.setCompressType .none, m.payload) ∨
      (m.header.getCompressType = .none ∧ m.choosePayload E = (m.header, m.payload))) ∨
    ∃ z, m.header.getCompressType = .gzip ∧ (gzipCompressor E).zip m.payload = .ok z ∧
      z.length < m.payload.length ∧ m.choosePayload E = (m.header, z) := by
  rcases choosePayloadWith_cases (compressors E) m with h | ⟨compressor, z, hct, -, hcomp, h⟩
  · exact .inl h
  · cases hcomp
    exact .inr ⟨z, hct, h⟩

lemma choosePayload_header (E : Env) (m : Message) :
    (m.choosePayload E).1 = m.header.setCompressType .none ∨ (m.choosePayload E).1 = m.header := by
  rcases choosePayload_cases E m with (h | ⟨-, h⟩) | ⟨z, -, -, -, h⟩
  · exact .inl (congrArg Prod.fst h)
  · exact .inr (congrArg Prod.fst h)
  · exact .inr (congrArg Prod.fst h)

lemma decodePayloadWith_plain (table : CompressorTable) {h : Header} (payload : Bytes)
    (hct : h.getCompressType = .none) : decodePayloadWith table h payload = .ok payload := by
  by_cases hpos : 0 < payload.length
  · simp [decodePayloadWith, hpos, hct]
  · have hnil : payload = [] := List.length_eq_zero_iff.mp (by omega)
    simp [decodePayloadWith, hnil]

/-- The receiver undoes the compression decision of the sender. -/
theorem decodePayload_choosePayload (E : Env) (hE : GzipLaw E) (m : Message) :
    decodePayload E (m.choosePayload E).1 (m.choosePayload E).2 = .ok m.payload := by
  rcases choosePayload_cases E m with (h | ⟨hct, h⟩) | ⟨z, hct, hzip, hshort, h⟩
  · rw [h]
    exact decodePayloadWith_plain (compressors E) _ (by simp)
  · rw [h]
    exact decodePayloadWith_plain (compressors E) _ hct
  · rw [h]
    have hunzip := hE m.payload z hzip hshort
    have hpos : 0 < z.length := by
      by_contra hz
      have hnil : z = [] := List.length_eq_zero_iff.mp (by omega)
      subst hnil
      have hself : (gzipCompressor E).unzip [] = .ok [] := rfl
      rw [hself] at hunzip
      have hpay : [] = m.payload := Except.ok.inj hunzip
      rw [← hpay] at hshort
      exact absurd hshort (lt_irrefl _)
    simp [decodePayload, decodePayloadWith, hpos, hct, compressors, hunzip]

/-! ### One message -/

/-- What a message must satisfy to survive the wire: the magic byte, keys in lower case, and a
number of values per key that the count byte can hold. -/
structure Sendable (E : Env) (m : Message) : Prop where
  magic : m.header.checkMagicNumber = true
  keys : ∀ e ∈ m.metadata.entries, E.toLower e.1 = e.1
  counts : ∀ e ∈ m.metadata.entries, 1 ≤ e.2.length ∧ e.2.length ≤ 255

/-- The data length `Encode` writes, before it is cut to 32 bits. -/
def dataLen (E : Env) (m : Message) : Nat :=
  encodedLength E m m.metadata.entries

lemma length_encodedBody {E : Env} {m : Message} {order : List MDEntry}
    (h : order.Perm m.metadata.entries) :
    (encodedBody m order (m.choosePayload E).2).length = dataLen E m :=
  (bodyLength_of_perm m h.symm (m.choosePayload E).2).symm

lemma length_le_flatMap {α : Type} {f : α → Bytes} {xs : List α} {x : α} (h : x ∈ xs) :
    (f x).length ≤ (xs.flatMap f).length := by
  induction xs with
  | nil => simp at h
  | cons y xs ih =>
    rw [List.flatMap_cons, List.length_append]
    rcases List.mem_cons.mp h with rfl | h'
    · omega
    · have hi := ih h'
      omega

/-- Entries of a frame whose data length fits 32 bits fit their own fields. -/
lemma entryFits_of_length {order : List MDEntry} {e : MDEntry} (he : e ∈ order)
    (hlen : (metaBytes order).length < 2 ^ 32) (hcount : e.2.length ≤ 255) : EntryFits e := by
  have hentry : (entryBytes e).length ≤ (metaBytes order).length := length_le_flatMap he
  rw [length_entryBytes] at hentry
  refine ⟨by omega, hcount, ?_⟩
  intro v hv
  have hval : (lp v).length ≤ (e.2.flatMap lp).length := length_le_flatMap hv
  rw [length_lp] at hval
  omega

/-- What `Encode` wrote for a message whose counts fit the count byte, `Decode` reads back as
the header Encode left, the names, the appended metadata and the payload. -/
theorem decode_encode (E : Env) (hE : GzipLaw E) (m : Message) (c : EncodeChoice m.metadata)
    (hm : m.header.checkMagicNumber = true)
    (hcount : ∀ e ∈ m.metadata.entries, e.2.length ≤ 255) (maxLength : Int)
    (hlen : dataLen E m < 2 ^ 32) (hmax : maxLength ≤ 0 ∨ (dataLen E m : Int) ≤ maxLength)
    (tail : Bytes) (failure : GoString) :
    ∃ frame, m.encode E c = .ok (frame, (m.choosePayload E).1) ∧
      decode E maxLength ⟨frame ++ tail, failure⟩ =
        (.ok ⟨(m.choosePayload E).1, m.serviceName, m.serviceMethod,
          appendAll E ∅ c.writeOrder, m.payload⟩, ⟨tail, failure⟩) := by
  refine ⟨_, encode_eq E m c, ?_⟩
  have hbody := length_encodedBody (E := E) c.write_perm
  have hmagic : (m.choosePayload E).1.checkMagicNumber = true := by
    rcases choosePayload_header E m with h | h <;> rw [h] <;> exact hm
  have hmeta : (metaBytes c.writeOrder).length < 2 ^ 32 := by
    simp only [encodedBody, bodyBytes, List.length_append, length_lp] at hbody
    omega
  have hfits : ∀ e ∈ c.writeOrder, EntryFits e := fun e he =>
    entryFits_of_length he hmeta (hcount e (c.write_perm.subset he))
  rw [decode_frame E maxLength _ _ tail failure hmagic (by omega) (by rw [hbody]; exact hmax)]
  rw [encodedBody, decodeMessageData_eq E _ _ _ _ m.payload c.writeOrder hfits
    (by rw [← encodedBody, hbody]; exact hlen) (decodePayload_choosePayload E hE m)]

lemma proper_of_counts {md : MD} (h : ∀ e ∈ md.entries, 1 ≤ e.2.length) : Proper md := by
  intro k hk
  have hmem := AList.mem_lookup_iff.mp hk
  have hlen := h _ hmem
  simp at hlen

lemma same_appendAll {E : Env} {md : MD} {order : List MDEntry} (h : order.Perm md.entries)
    (hkeys : ∀ e ∈ md.entries, E.toLower e.1 = e.1) (hcounts : ∀ e ∈ md.entries, 1 ≤ e.2.length) :
    MD.Same (appendAll E ∅ order) md := by
  apply same_of_values (proper_appendAll E order proper_empty) (proper_of_counts hcounts)
  intro k
  rw [values_appendAll, values_empty, List.nil_append, ← values_of_order h k]
  congr 1
  apply List.filter_congr
  intro e he
  rw [hkeys e (h.subset he)]

/-! ### A stream of messages -/

/-- `k` calls of Decode on one reader, each on a fresh message. -/
def decodeMany (E : Env) (maxLength : Int) : Nat → Reader → Go (List Message) × Reader
  | 0, r => (.ok [], r)
  | k + 1, r =>
    match decode E maxLength r with
    | (.error e, r) => (.error e, r)
    | (.ok m, r) =>
      match decodeMany E maxLength k r with
      | (.error e, r) => (.error e, r)
      | (.ok ms, r) => (.ok (m :: ms), r)

/-- `got` is the message `sent`, for the frame and header that Encode returned. -/
structure Recovered (E : Env) (sent : Sigma fun m : Message => EncodeChoice m.metadata)
    (frame : Bytes) (got : Message) : Prop where
  encoded : sent.1.encode E sent.2 = .ok (frame, got.header)
  header : got.header.setCompressType sent.1.header.getCompressType = sent.1.header
  serviceName : got.serviceName = sent.1.serviceName
  serviceMethod : got.serviceMethod = sent.1.serviceMethod
  metadata : MD.Same got.metadata sent.1.metadata
  payload : got.payload = sent.1.payload

/-- Every list of messages survives the wire: decoding as often as was encoded gives the messages
back and consumes exactly their frames. -/
theorem decode_stream (E : Env) (hE : GzipLaw E)
    (sent : List (Sigma fun m : Message => EncodeChoice m.metadata)) (maxLength : Int)
    (hsend : ∀ p ∈ sent, Sendable E p.1) (hlen : ∀ p ∈ sent, dataLen E p.1 < 2 ^ 32)
    (hmax : maxLength ≤ 0 ∨ ∀ p ∈ sent, (dataLen E p.1 : Int) ≤ maxLength)
    (tail : Bytes) (failure : GoString) :
    ∃ results : List (Bytes × Message),
      List.Forall₂ (fun p r => Recovered E p r.1 r.2) sent results ∧
      decodeMany E maxLength sent.length ⟨(results.map Prod.fst).flatten ++ tail, failure⟩ =
        (.ok (results.map Prod.snd), ⟨tail, failure⟩) := by
  induction sent with
  | nil => exact ⟨[], .nil, rfl⟩
  | cons p sent ih =>
    have hp := hsend p (by simp)
    obtain ⟨results, hrel, hdec⟩ := ih (fun q hq => hsend q (by simp [hq]))
      (fun q hq => hlen q (by simp [hq])) (hmax.imp id (fun h q hq => h q (by simp [hq])))
    obtain ⟨frame, henc, hframe⟩ := decode_encode E hE p.1 p.2 hp.magic
      (fun e he => (hp.counts e he).2) maxLength (hlen p (by simp))
      (hmax.imp id (fun h => h p (by simp))) ((results.map Prod.fst).flatten ++ tail) failure
    refine ⟨(frame, ⟨(p.1.choosePayload E).1, p.1.serviceName, p.1.serviceMethod,
      appendAll E ∅ p.2.writeOrder, p.1.payload⟩) :: results,
      .cons ⟨henc, ?_, rfl, rfl, ?_, rfl⟩ hrel, ?_⟩
    · rcases choosePayload_header E p.1 with h | h <;> simp [h]
    · exact same_appendAll p.2.write_perm hp.keys (fun e he => (hp.counts e he).1)
    · simp only [List.map_cons, List.flatten_cons, List.append_assoc, List.length_cons, decodeMany,
        hframe, hdec]

/-- A standard library whose gzip stores its input unchanged. -/
def storedEnv : Env := ⟨id, .ok, .ok, id⟩

lemma storedEnv_law : GzipLaw storedEnv := by
  refine gzipLaw_of_library fun x z hz hlt => ?_
  have he : x = z := Except.ok.inj hz
  rw [he] at hlt
  exact absurd hlt (lt_irrefl _)

/-- A request with one metadata key and the compress bit set on a short payload. -/
def sampleRequest : Message :=
  ⟨⟨magicNumber, 1, 0x10, 7⟩, str "Greeter", str "SayHello",
    ⟨[⟨str "user-agent", [str "zrpc/1.2.9", []]⟩], List.nodupKeys_singleton _⟩, [10, 1, 65]⟩

/-- A compressor that knows one text: two kilobytes of zeros, written as one byte. -/
def zerosEnv : Env where
  mapLower := id
  gzipWrite data :=
    if data = List.replicate 2048 0 then .ok [0] else .error (str "gzip: unsupported data")
  gzipRead data :=
    if data = [0] then .ok (List.replicate 2048 0) else .error (str "gzip: invalid header")
  quote := id

/-- A request with two kilobytes of zeros, of which `Encode` sends one byte. -/
def zerosRequest : Message := { sampleRequest with payload := List.replicate 2048 0 }

lemma zerosEnv_zip {x : Bytes} (hx : x = List.replicate 2048 0) :
    (gzipCompressor zerosEnv).zip x = .ok [0] := by
  have hlen : x.length = 2048 := by rw [hx, List.length_replicate]
  have hwrite : zerosEnv.gzipWrite x = .ok [0] := if_pos hx
  simp only [gzipCompressor, zip, hlen, hwrite, compressThreshold]
  rfl

lemma zerosEnv_law : GzipLaw zerosEnv := by
  refine gzipLaw_of_library fun x z hz _ => ?_
  by_cases hx : x = List.replicate 2048 0
  · have hwrite : zerosEnv.gzipWrite x = .ok [0] := if_pos hx
    cases hwrite.symm.trans hz
    refine ⟨by simp, ?_⟩
    rw [hx]
    rfl
  · have hwrite : zerosEnv.gzipWrite x = .error (str "gzip: unsupported data") := if_neg hx
    cases hwrite.symm.trans hz

lemma choosePayload_zerosRequest :
    zerosRequest.choosePayload zerosEnv = (zerosRequest.header, [0]) := by
  have hlen : zerosRequest.payload.length = 2048 := List.length_replicate
  exact choosePayloadWith_zip (by decide) (by rw [hlen]; decide) rfl (zerosEnv_zip rfl)
    (by rw [hlen]; decide)

lemma dataLen_zerosRequest : dataLen zerosEnv zerosRequest = 65 := by
  rw [dataLen, encodedLength, choosePayload_zerosRequest]
  decide

/-- A compressed message, one that is too short to be compressed, and an empty one. -/
theorem decode_stream_compressed : (zerosRequest.choosePayload zerosEnv).2 = [0] ∧
    ∃ results : List (Bytes × Message),
      List.Forall₂ (fun p r => Recovered zerosEnv p r.1 r.2)
        [⟨zerosRequest, .plain _⟩, ⟨sampleRequest, .plain _⟩, ⟨newMessage, .plain _⟩] results ∧
      decodeMany zerosEnv 1024 3 ⟨(results.map Prod.fst).flatten ++ [], ioEOF⟩ =
        (.ok (results.map Prod.snd), ⟨[], ioEOF⟩) := by
  refine ⟨congrArg Prod.snd choosePayload_zerosRequest, ?_⟩
  have hsmall : ∀ p ∈ ([⟨zerosRequest, .plain _⟩, ⟨sampleRequest, .plain _⟩, ⟨newMessage, .plain _⟩] :
      List (Sigma fun m : Message => EncodeChoice m.metadata)), dataLen zerosEnv p.1 ≤ 1024 := by
    intro p hp
    simp only [List.mem_cons, List.not_mem_nil, or_false] at hp
    rcases hp with rfl | rfl | rfl
    · rw [dataLen_zerosRequest]
      decide
    · decide
    · decide
  refine decode_stream zerosEnv zerosEnv_law _ 1024 (fun p hp => ?_)
    (fun p hp => (hsmall p hp).trans_lt (by decide)) (.inr fun p hp => ?_) [] ioEOF
  · simp only [List.mem_cons, List.not_mem_nil, or_false] at hp
    rcases hp with rfl | rfl | rfl <;> exact ⟨by decide, by decide, by decide⟩
  · exact_mod_cast hsmall p hp

end Zrpc.Proofs
