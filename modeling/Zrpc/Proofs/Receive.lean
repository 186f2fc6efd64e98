import Zrpc.Lib.Follows
import Zrpc.Proofs.Grammar
import Zrpc.Receive

/-!
# Decoding into a used message

Whatever the message held before, decoding into it ends as decoding into a fresh one does, and
leaves the same message behind: every field is set, and the metadata map is emptied first.
-/

namespace Zrpc.Proofs
open Zrpc.Lib

/-- Deleting every key that stands in a map empties it. -/
lemma foldl_erase (md : MD) : md.entries.foldl (fun md e => md.erase e.1) md = ∅ := by
  have hdel : ∀ (es : List MDEntry) (md : MD) (k : GoString),
      k ∈ es.foldl (fun md e => md.erase e.1) md → k ∈ md ∧ k ∉ es.keys := by
    intro es
    induction es with
    | nil => exact fun md k h => ⟨h, by simp⟩
    | cons e es ih =>
      intro md k h
      obtain ⟨hk, hes⟩ := ih _ k h
      rw [AList.mem_erase] at hk
      refine ⟨hk.2, ?_⟩
      rw [List.keys_cons, List.mem_cons, not_or]
      exact ⟨hk.1, hes⟩
  apply AList.ext
  rw [AList.empty_entries, List.eq_nil_iff_forall_not_mem]
  intro e he
  obtain ⟨hk, hnot⟩ := hdel _ md e.1 (List.mem_keys_of_mem he)
  exact hnot hk

namespace Receiver

open Zrpc.Receiver

variable (E : Env) (data : Bytes)

lemma run_clearMetadata (m : Receiver) :
    clearMetadata.run m = (.ok (), { m with metadata := some ∅ }) := by
  obtain ⟨header, name, method, metadata, payload⟩ := m
  cases metadata with
  | none => rfl
  | some md =>
    have h := foldl_erase md
    change (Except.ok (), Receiver.mk header name method (some _) payload) = _
    rw [h]

lemma run_appendMetadata {m : Receiver} {md : MD} (hmd : m.metadata = some md)
    (key value : GoString) :
    (appendMetadata E key value).run m =
      (.ok (), { m with metadata := some (md.append E key [value]) }) := by
  obtain ⟨header, name, method, metadata, payload⟩ := m
  cases hmd
  rfl

/-- The message with other metadata. -/
def withMetadata (m : Receiver) (md : MD) : Receiver := { m with metadata := some md }

lemma follows_receiveValues (metaEnd : Nat) (key : GoString) (count : Nat) (m : Receiver) (md : MD)
    (offset : Nat) :
    Follows (receiveValues E data metaEnd key count offset) (withMetadata m md)
      (parseValues data metaEnd count offset)
      (fun p => (p.2, withMetadata m
        (p.1.foldl (fun md v => md.append E key [v.text data]) md))) := by
  induction count generalizing md offset with
  | zero => exact Follows.pure rfl
  | succ count ih =>
    refine Follows.lift.bind ?_
    rintro ⟨value, offset₁⟩ -
    refine Follows.step (run_appendMetadata E rfl key (value.text data)) ?_
    exact (ih (md.append E key [value.text data]) offset₁).last fun _ _ => ⟨_, rfl, rfl⟩

/-- The `Append` calls of one entry. -/
def appendEntry (E : Env) (data : Bytes) (md : MD) (e : Span × List Span) : MD :=
  e.2.foldl (fun md v => md.append E (e.1.text data) [v.text data]) md

lemma follows_receiveEntry (metaEnd offset : Nat) (m : Receiver) (md : MD) :
    Follows (receiveEntry E data metaEnd offset) (withMetadata m md)
      (parseEntry data metaEnd offset)
      (fun p => (p.2, withMetadata m (appendEntry E data md p.1))) := by
  refine Follows.lift.bind ?_
  rintro ⟨key, offset₁⟩ -
  by_cases hend : metaEnd ≤ offset₁
  · simp only [if_pos hend]
    exact Follows.lift.bind (fun _ h => by cases h)
  · simp only [if_neg hend]
    refine Follows.lift.bind ?_
    intro valueCount _
    have hvalues := follows_receiveValues E data metaEnd (key.text data)
      valueCount.toNat m md (offset₁ + 1)
    exact hvalues.last fun _ _ => ⟨_, rfl, rfl⟩

lemma follows_receiveMeta (metaEnd fuel offset : Nat) (m : Receiver) (md : MD) :
    Follows (receiveMeta E data metaEnd fuel offset) (withMetadata m md)
      (parseMeta data metaEnd fuel offset)
      (fun p => (p.2, withMetadata m (p.1.foldl (appendEntry E data) md))) := by
  induction fuel generalizing offset md with
  | zero =>
    unfold receiveMeta parseMeta
    by_cases hend : metaEnd ≤ offset
    · rw [if_pos hend, if_pos hend]
      exact Follows.pure rfl
    · rw [if_neg hend, if_neg hend]
      exact Follows.error
  | succ fuel ih =>
    unfold receiveMeta parseMeta
    by_cases hend : metaEnd ≤ offset
    · rw [if_pos hend, if_pos hend]
      exact Follows.pure rfl
    · rw [if_neg hend, if_neg hend]
      refine (follows_receiveEntry E data metaEnd offset m md).bind ?_
      rintro ⟨entry, offset₁⟩ -
      exact (ih offset₁ (appendEntry E data md entry)).last fun _ _ => ⟨_, rfl, rfl⟩

lemma follows_receiveParts (m : Receiver) :
    Follows (receiveParts E data) m (parseData data) (fun L => (L.payload,
      ⟨m.header, L.service.text data, L.method.text data,
        some (Layout.metadata E data L.entries), m.payload⟩)) := by
  refine Follows.lift.bind ?_
  rintro ⟨service, offset₁⟩ -
  refine Follows.step rfl ?_
  refine Follows.lift.bind ?_
  rintro ⟨method, offset₂⟩ -
  refine Follows.step rfl ?_
  by_cases hlen : data.length < offset₂ + 4
  · simp only [if_pos hlen]
    exact Follows.lift.bind (fun _ h => by cases h)
  simp only [if_neg hlen]
  refine Follows.lift.bind ?_
  intro metaLen _
  refine Follows.step (run_clearMetadata _) ?_
  by_cases hmeta : 0 < metaLen ∧ data.length < offset₂ + 4 + metaLen
  · simp only [if_pos hmeta]
    exact Follows.lift.bind (fun _ h => by cases h)
  simp only [if_neg hmeta]
  have hentries := follows_receiveMeta E data (offset₂ + 4 + metaLen) metaLen
    (offset₂ + 4) ⟨m.header, service.text data, method.text data, m.metadata, m.payload⟩ ∅
  refine hentries.bind ?_
  rintro ⟨entries, offset₃⟩ -
  refine Follows.lift.bind ?_
  rintro ⟨payload, offset₄⟩ -
  exact Follows.pure rfl

lemma follows_receivePayload (m : Receiver) (payload : Bytes) :
    Follows (receivePayload E payload) m (decodePayload E m.header payload)
      (fun p => ((), { m with payload := p })) := by
  unfold receivePayload decodePayload decodePayloadWith
  by_cases hpos : 0 < payload.length
  · rw [if_pos hpos, if_pos hpos]
    refine Follows.step rfl (Follows.step rfl ?_)
    by_cases hct : m.header.getCompressType ≠ .none
    · rw [if_pos hct, if_pos hct]
      dsimp only
      cases compressors E m.header.getCompressType with
      | none => exact Follows.error
      | some compressor =>
        dsimp only
        cases compressor.unzip payload with
        | ok p => exact rfl
        | error e => exact rfl
    · rw [if_neg hct, if_neg hct]
      exact rfl
  · rw [if_neg hpos, if_neg hpos]
    exact rfl

/-- Decoding into a message ends as decoding does, with the decoded message in its place. -/
theorem follows_decodeMessageData (m : Receiver) :
    Follows (Receiver.decodeMessageData E data) m (Zrpc.decodeMessageData E m.header data)
      (fun got => ((), ofMessage got)) := by
  refine (follows_receiveParts E data m).bind ?_
  intro L _
  exact (follows_receivePayload E _ _).last fun _ _ => ⟨_, rfl, rfl⟩

lemma recovered_eq_ok {outcome : Go Unit} (h : outcome ≠ .error .panic) :
    recovered outcome = outcome := by
  unfold recovered
  split
  · exact absurd rfl h
  · rfl

lemma recovered_readFull {r r₁ : Reader} {n : Nat} {e : Fault}
    (h : r.readFull n = (.error e, r₁)) : recovered (.error e) = .error e := by
  have hsafe := safe_readFull r n
  rw [h] at hsafe
  exact recovered_eq_ok fun hp => hsafe (Except.error.inj hp)

lemma run_decodeMessageData_ne_panic (m : Receiver) :
    ((Receiver.decodeMessageData E data).run m).1 ≠ .error .panic := by
  rw [ne_eq, (follows_decodeMessageData E data m).run_eq_error]
  exact (safe_decodeMessageData E m.header data).ne_panic

/-- The data of a frame is received as it is decoded, whatever the receiver held but its header. -/
lemma received_eq_ok_iff {E : Env} {data : Bytes} {m m' : Receiver} :
    recovered ((Receiver.decodeMessageData E data).run m).1 = .ok () ∧
        ((Receiver.decodeMessageData E data).run m).2 = m' ↔
      ∃ got, Zrpc.decodeMessageData E m.header data = .ok got ∧ m' = ofMessage got := by
  have hrun := follows_decodeMessageData E data m
  rw [recovered_eq_ok (run_decodeMessageData_ne_panic E data m)]
  constructor
  · rintro ⟨hok, hm'⟩
    obtain ⟨got, hgot, hm₂⟩ := hrun.run_eq_ok.mp (Prod.ext hok hm')
    exact ⟨got, hgot, (congrArg Prod.snd hm₂).symm⟩
  · rintro ⟨got, hgot, rfl⟩
    have hok := hrun.run_eq_ok.mpr ⟨got, hgot, rfl⟩
    rw [hok]
    exact ⟨rfl, rfl⟩

/-- `Decode` into a used message is `Decode` into a fresh one: nothing of the earlier contents is
left, and no panic is hidden behind a nil error. -/
theorem decode_eq_ok_iff {E : Env} {maxLength : Int} {m m' : Receiver} {r r' : Reader} :
    Receiver.decode E maxLength m r = (.ok (), m', r') ↔
      ∃ got, Zrpc.decode E maxLength r = (.ok got, r') ∧ m' = ofMessage got := by
  unfold Receiver.decode Zrpc.decode decodeWith
  cases h₁ : r.readFull 11 with
  | mk out₁ r₁ =>
  cases out₁ with
  | error e => simp [recovered_readFull h₁]
  | ok headerBuf =>
  dsimp only
  by_cases hmagic : (Header.ofBytes headerBuf).checkMagicNumber = false
  · simp [hmagic, fail, recovered]
  rw [if_neg hmagic, if_neg hmagic]
  cases h₂ : r₁.readFull 4 with
  | mk out₂ r₂ =>
  cases out₂ with
  | error e => simp [recovered_readFull h₂]
  | ok lenData =>
  dsimp only
  by_cases hmax : 0 < maxLength ∧ maxLength < (leNat lenData : Int)
  · simp [hmax, fail, recovered]
  rw [if_neg hmax, if_neg hmax]
  cases h₃ : r₂.readFull (leNat lenData) with
  | mk out₃ r₃ =>
  cases out₃ with
  | error e => simp [recovered_readFull h₃]
  | ok data =>
  dsimp only
  generalize hm₁ : ({ m with header := Header.ofBytes headerBuf } : Receiver) = m₁
  have hheader : Header.ofBytes headerBuf = m₁.header := by rw [← hm₁]
  change (recovered ((Receiver.decodeMessageData E data).run m₁).1,
    ((Receiver.decodeMessageData E data).run m₁).2, r₃) = _ ↔ _
  simp only [Prod.mk.injEq, ← and_assoc, received_eq_ok_iff, hheader]
  constructor
  · rintro ⟨⟨got, hgot, hm'⟩, hr⟩
    exact ⟨got, ⟨hgot, hr⟩, hm'⟩
  · rintro ⟨got, ⟨hgot, hr⟩, hm'⟩
    exact ⟨⟨got, hgot, hm'⟩, hr⟩

/-- A frame within the limit is decoded into its parts. -/
lemma decode_frame (maxLength : Int) (m : Receiver) (h : Header) (name method : GoString)
    (es : List MDEntry) (payload plain tail : Bytes) (failure : GoString)
    (hm : h.checkMagicNumber = true) (hes : ∀ e ∈ es, EntryFits e)
    (hlen : (bodyBytes name method (metaBytes es) payload).length < 2 ^ 32)
    (hmax : maxLength ≤ 0 ∨
      ((bodyBytes name method (metaBytes es) payload).length : Int) ≤ maxLength)
    (hp : decodePayload E h payload = .ok plain) :
    Receiver.decode E maxLength m
        ⟨frameBytes h (bodyBytes name method (metaBytes es) payload) ++ tail, failure⟩ =
      (.ok (), ⟨h, name, method, some (appendAll E ∅ es), plain⟩, ⟨tail, failure⟩) := by
  rw [decode_eq_ok_iff]
  refine ⟨⟨h, name, method, appendAll E ∅ es, plain⟩, ?_, rfl⟩
  rw [Proofs.decode_frame E maxLength h _ tail failure hm hlen hmax,
    decodeMessageData_eq E h name method payload plain es hes hlen hp]

end Receiver

/-- The payload block, in the terms of the grammar. -/
lemma decodePayload_eq_ok {E : Env} {header : Header} {payload plain : Bytes} :
    decodePayload E header payload = .ok plain ↔
      if payload ≠ [] ∧ header.getCompressType = .gzip then
        (gzipCompressor E).unzip payload = .ok plain
      else plain = payload := by
  unfold decodePayload decodePayloadWith
  cases payload with
  | nil => simp [eq_comm]
  | cons b bs =>
    obtain hct | hct := compressType_cases header
    · simp [hct, eq_comm]
    · simp only [hct, compressors]
      cases hz : (gzipCompressor E).unzip (b :: bs) with
      | ok p => simp
      | error e => simp [fail]

/-- `decodeMessageData` accepts exactly its grammar, whatever the message held before, and never
leaves the data. An accepted message has the parts of the data in its fields. -/
theorem decodeMessageData_grammar (E : Env) (m : Receiver) (data : Bytes) :
    ((Receiver.decodeMessageData E data).run m).1 ≠ .error .panic ∧
    ∀ m', (Receiver.decodeMessageData E data).run m = (.ok (), m') ↔
      ∃ (name method : GoString) (es : List MDEntry) (payload rest plain : Bytes),
        data = lp name ++ lp method ++ lp (metaBytes es) ++ lp payload ++ rest ∧
        BodyFits name method es payload ∧
        (if payload ≠ [] ∧ m.header.getCompressType = .gzip then
          (gzipCompressor E).unzip payload = .ok plain
        else plain = payload) ∧
        m' = ⟨m.header, name, method, some (appendAll E ∅ es), plain⟩ := by
  refine ⟨Receiver.run_decodeMessageData_ne_panic E data m, fun m' => ?_⟩
  rw [(Receiver.follows_decodeMessageData E data m).run_eq_ok]
  constructor
  · rintro ⟨got, hgot, hout⟩
    cases hout
    obtain ⟨name, method, es, payload, rest, plain, hdata, hfits, hplain, rfl⟩ :=
      (decodeMessageData_iff E m.header data got).mp hgot
    refine ⟨name, method, es, payload, rest, plain, ?_, hfits, decodePayload_eq_ok.mp hplain, rfl⟩
    rw [hdata]
    simp only [bodyBytes, List.append_assoc]
  · rintro ⟨name, method, es, payload, rest, plain, hdata, hfits, hplain, rfl⟩
    refine ⟨⟨m.header, name, method, appendAll E ∅ es, plain⟩, ?_, rfl⟩
    refine (decodeMessageData_iff E m.header data _).mpr
      ⟨name, method, es, payload, rest, plain, ?_, hfits, decodePayload_eq_ok.mpr hplain, rfl⟩
    rw [hdata]
    simp only [bodyBytes, List.append_assoc]

/-! ### The receive limit -/

/-- The payload part of the frame a stream begins with, as it stands in the stream. -/
def framePayload (stream : Bytes) : Bytes :=
  match parseData (frameData stream) with
  | .ok L => L.payload.text (frameData stream)
  | .error _ => []

/-- The lengths of the two names in that frame. -/
def frameNames (stream : Bytes) : Nat :=
  match parseData (frameData stream) with
  | .ok L => (L.service.text (frameData stream)).length + (L.method.text (frameData stream)).length
  | .error _ => 0

lemma length_frameData_le (stream : Bytes) : (frameData stream).length ≤ frameLength stream := by
  rw [frameData, List.length_take]
  exact Nat.min_le_left _ _

/-- The parts of an accepted frame. Its four length fields are part of the framed length. -/
lemma decode_parts {E : Env} {maxLength : Int} {m m' : Receiver} {r r' : Reader}
    (h : Receiver.decode E maxLength m r = (.ok (), m', r')) :
    ¬(0 < maxLength ∧ maxLength < (frameLength r.data : Int)) ∧
    frameNames r.data + (framePayload r.data).length + 16 ≤ frameLength r.data ∧
    decodePayload E (Header.ofBytes (r.data.take 11)) (framePayload r.data) = .ok m'.payload ∧
    m'.serviceName.length + m'.serviceMethod.length = frameNames r.data := by
  obtain ⟨got, hgot, rfl⟩ := Receiver.decode_eq_ok_iff.mp h
  obtain ⟨-, -, hlimit, hdata⟩ := decode_ok_iff.mp (congrArg Prod.fst hgot)
  obtain ⟨L, hL, hdata⟩ := bind_eq_ok hdata
  obtain ⟨plain, hplain, hdata⟩ := bind_eq_ok hdata
  cases hdata
  obtain ⟨name, method, es, payload, rest, hbody, -, hname, hmethod, -, hp⟩ := parseData_exact hL
  have hnames : frameNames r.data = name.length + method.length := by
    rw [frameNames, hL]
    dsimp only
    rw [hname, hmethod]
  have hpayload : framePayload r.data = payload := by
    rw [framePayload, hL]
    exact hp
  have htotal := congrArg List.length hbody
  simp only [bodyBytes, List.length_append, length_lp] at htotal
  have hle := length_frameData_le r.data
  refine ⟨hlimit, by rw [hnames, hpayload]; omega, ?_, ?_⟩
  · rw [hpayload, ← hp]
    exact hplain
  · simp only [Receiver.ofMessage, hname, hmethod, hnames]

/-- A frame that is accepted under some limit is accepted, with the same message, under the limit
that is its own length. -/
lemma decode_at_length {E : Env} {limit : Int} {m m' : Receiver} {r r' : Reader}
    (h : Receiver.decode E limit m r = (.ok (), m', r')) :
    ∃ r'', Receiver.decode E (frameLength r.data) m r = (.ok (), m', r'') := by
  obtain ⟨got, hgot, hm'⟩ := Receiver.decode_eq_ok_iff.mp h
  obtain ⟨hlen, hmagic, -, hdata⟩ := decode_ok_iff.mp (congrArg Prod.fst hgot)
  have hsame : (decode E (frameLength r.data) r).1 = .ok got :=
    decode_ok_iff.mpr ⟨hlen, hmagic, fun hover => lt_irrefl _ hover.2, hdata⟩
  exact ⟨_, Receiver.decode_eq_ok_iff.mpr ⟨got, Prod.ext hsame rfl, hm'⟩⟩

/-- For a frame that `Decode` accepts under some limit: what is received is within every limit under
which the frame is accepted, names and payload together, exactly if the payload is not compressed or
the names and the decompressed payload are no longer than the frame, whose length is all that the
limit is compared with. -/
theorem received_within_limit_iff (E : Env) (limit : Int) (m m₀ : Receiver) (r r₀ : Reader)
    (hdec : Receiver.decode E limit m r = (.ok (), m₀, r₀)) :
    (∀ (maxLength : Int) (m' : Receiver) (r' : Reader), 0 < maxLength →
      Receiver.decode E maxLength m r = (.ok (), m', r') →
      (m'.payload.length + m'.serviceName.length + m'.serviceMethod.length : Int) ≤ maxLength) ↔
    (Header.ofBytes (r.data.take 11)).getCompressType = .none ∨ framePayload r.data = [] ∨
      ∀ plain, (gzipCompressor E).unzip (framePayload r.data) = .ok plain →
        frameNames r.data + plain.length ≤ frameLength r.data := by
  constructor
  · intro hall
    obtain ⟨r₁, hfull⟩ := decode_at_length hdec
    obtain ⟨-, hroom, hpayload, hnames⟩ := decode_parts hfull
    have hbound := hall (frameLength r.data) m₀ r₁ (by omega) hfull
    rcases compressType_cases (Header.ofBytes (r.data.take 11)) with hct | hct
    · exact .inl hct
    · by_cases hnil : framePayload r.data = []
      · exact .inr (.inl hnil)
      · have hunzip := decodePayload_eq_ok.mp hpayload
        rw [if_pos ⟨hnil, hct⟩] at hunzip
        refine .inr (.inr fun plain hplain => ?_)
        have hsame : plain = m₀.payload := Except.ok.inj (hplain.symm.trans hunzip)
        rw [hsame]
        omega
  · intro hcond maxLength m' r' hmax h
    obtain ⟨hlimit, hroom, hpayload, hnames⟩ := decode_parts h
    have hunzip := decodePayload_eq_ok.mp hpayload
    have hfits : frameNames r.data + m'.payload.length ≤ frameLength r.data := by
      split at hunzip
      · next hgzip =>
        rcases hcond with hct | hnil | hle
        · rw [hct] at hgzip
          cases hgzip.2
        · exact absurd hnil hgzip.1
        · exact hle _ hunzip
      · rw [hunzip]
        omega
    omega

/-- A frame with a compressed payload of four bytes. -/
theorem received_within_limit_iff_compressed : ∃ m' r',
    Receiver.decode storedEnv 64 (.ofMessage newMessage)
      ⟨frameBytes (newMessage.header.setCompressType .gzip) (bodyBytes (str "Greeter")
        (str "SayHello") (metaBytes []) (str "zrpc")) ++ [], ioEOF⟩ = (.ok (), m', r') ∧
    (m'.payload.length + m'.serviceName.length + m'.serviceMethod.length : Int) ≤ 64 := by
  have hrun := Receiver.decode_frame storedEnv 64 (.ofMessage newMessage)
    (newMessage.header.setCompressType .gzip) (str "Greeter") (str "SayHello") [] (str "zrpc")
    (str "zrpc") [] ioEOF (by decide) (by simp) (by decide) (.inr (by decide)) rfl
  have hfits := (received_within_limit_iff storedEnv 64 _ _ _ _ hrun).mpr
    (.inr (.inr fun plain hplain => ?_))
  · exact ⟨_, _, hrun, hfits 64 _ _ (by decide) hrun⟩
  · cases hplain
    decide +kernel

/-- A frame of 17 data bytes passes a limit of 17 and is handed on with a payload of 2048. -/
theorem decompressed_over_limit : ∃ m' r',
    Receiver.decode zerosEnv 17 (.ofMessage newMessage)
      ⟨frameBytes (newMessage.header.setCompressType .gzip)
        (bodyBytes [] [] (metaBytes []) [0]) ++ [], ioEOF⟩ = (.ok (), m', r') ∧
    ¬(m'.payload.length + m'.serviceName.length + m'.serviceMethod.length : Int) ≤ 17 := by
  have hrun := Receiver.decode_frame zerosEnv 17 (.ofMessage newMessage)
    (newMessage.header.setCompressType .gzip) [] [] [] [0] (List.replicate 2048 0) [] ioEOF
    (by decide) (by simp) (by decide) (.inr (by decide)) rfl
  refine ⟨_, _, hrun, ?_⟩
  simp only [List.length_replicate]
  omega

end Zrpc.Proofs
