import Zrpc.Lib.Ensures
import Zrpc.Proofs.RoundTrip

/-!
# Metadata on the wire

If the count byte holds the number of values of every key, an accepted frame gives the metadata
it was made from. With 256 values it does not: the bytes of the values are then read as keys.
-/

namespace Zrpc.Proofs
open Zrpc.Lib

/-- `got` is `md` with lower-case keys and without the keys that have no values; keys that become
equal share their values, in an order in which a range meets them. -/
def LowerCased (E : Env) (md got : MD) : Prop :=
  Proper got ∧ ∃ order : List MDEntry, order.Perm md.entries ∧
    ∀ k, got.values k = (order.filter (fun e => E.toLower e.1 = k)).flatMap (fun e => e.2)

lemma lowerCased_appendAll (E : Env) {md : MD} {order : List MDEntry}
    (h : order.Perm md.entries) : LowerCased E md (appendAll E ∅ order) := by
  refine ⟨proper_appendAll E order proper_empty, order, h, fun k => ?_⟩
  rw [values_appendAll, values_empty, List.nil_append]

/-- Decode returns a message only for a frame with the magic byte and within the limit, and then it
is the message of the frame's data. -/
lemma decode_frame_ok {E : Env} {maxLength : Int} {h : Header} {body tail : Bytes}
    {failure : GoString} {got : Message} (hlen : body.length < 2 ^ 32)
    (hdec : (decode E maxLength ⟨frameBytes h body ++ tail, failure⟩).1 = .ok got) :
    decodeMessageData E h body = .ok got := by
  by_cases hm : h.checkMagicNumber = true
  · rw [decode_frame_cases E maxLength h body tail failure hm hlen] at hdec
    split at hdec
    · cases hdec
    · exact hdec
  · have h1 := readFull_append h.toBytes (leBytes 4 body.length ++ (body ++ tail)) failure
    have hdata : frameBytes h body ++ tail =
        h.toBytes ++ (leBytes 4 body.length ++ (body ++ tail)) := by
      simp only [frameBytes, lp, List.append_assoc]
    rw [length_toBytes] at h1
    rw [hdata] at hdec
    simp only [decode, decodeWith, h1, ofBytes_toBytes, Bool.eq_false_iff.mpr hm, if_true] at hdec
    cases hdec

lemma metadata_of_decodeMessageData {E : Env} {h : Header} {name method payload : Bytes}
    {es : List MDEntry} {got : Message} (hes : ∀ e ∈ es, EntryFits e)
    (hlen : (bodyBytes name method (metaBytes es) payload).length < 2 ^ 32)
    (hdec : decodeMessageData E h (bodyBytes name method (metaBytes es) payload) = .ok got) :
    got.metadata = appendAll E ∅ es := by
  obtain ⟨L, hL, -, -, hentries, -⟩ := parseData_eq name method payload [] es hes hlen
  rw [List.append_nil] at hL hentries
  obtain ⟨L', hL', hrest⟩ := bind_eq_ok hdec
  cases hL.symm.trans hL'
  obtain ⟨p, -, hret⟩ := bind_eq_ok hrest
  cases hret
  exact (layoutMetadata_eq E _ _).trans (congrArg _ hentries)

/-- An accepted frame has the metadata it was made from, if every key has at most 255 values. -/
theorem decode_metadata (E : Env) (m : Message) (c : EncodeChoice m.metadata)
    (hcount : ∀ e ∈ m.metadata.entries, e.2.length ≤ 255) (hlen : dataLen E m < 2 ^ 32)
    (frame : Bytes) (header : Header) (henc : m.encode E c = .ok (frame, header))
    (maxLength : Int) (tail : Bytes) (failure : GoString) (got : Message)
    (hdec : (decode E maxLength ⟨frame ++ tail, failure⟩).1 = .ok got) :
    LowerCased E m.metadata got.metadata := by
  have hbody := length_encodedBody (E := E) c.write_perm
  have hmeta : (metaBytes c.writeOrder).length < 2 ^ 32 := by
    simp only [encodedBody, bodyBytes, List.length_append, length_lp] at hbody
    omega
  have hfits : ∀ e ∈ c.writeOrder, EntryFits e := fun e he =>
    entryFits_of_length he hmeta (hcount e (c.write_perm.subset he))
  cases (encode_eq E m c).symm.trans henc
  have hdata := decode_frame_ok (by omega) hdec
  rw [metadata_of_decodeMessageData hfits (by rw [← encodedBody, hbody]; exact hlen) hdata]
  exact lowerCased_appendAll E c.write_perm

theorem decode_metadata_sample : ∃ frame header got,
    sampleRequest.encode storedEnv (.plain _) = .ok (frame, header) ∧
    (decode storedEnv 1024 ⟨frame ++ [], ioEOF⟩).1 = .ok got ∧
    LowerCased storedEnv sampleRequest.metadata got.metadata := by
  obtain ⟨frame, henc, hdec⟩ := decode_encode storedEnv storedEnv_law sampleRequest (.plain _)
    (by decide) (by decide) 1024 (by decide) (.inr (by decide)) [] ioEOF
  exact ⟨frame, _, _, henc, congrArg Prod.fst hdec, decode_metadata storedEnv sampleRequest
    (.plain _) (by decide) (by decide) frame _ henc 1024 [] ioEOF _ (congrArg Prod.fst hdec)⟩

/-! ### A count that does not fit its byte -/

/-- The values that spell entries: each key stands as a value before the one-byte value 0. -/
def spelled (keys : List GoString) : List GoString := keys.flatMap fun k => [k, [0]]

lemma flatMap_lp_spelled (keys : List GoString) :
    (spelled keys).flatMap lp = metaBytes (keys.map fun k => ⟨k, [[]]⟩) := by
  induction keys with
  | nil => rfl
  | cons k keys ih =>
    have hcons : spelled (k :: keys) = k :: [0] :: spelled keys := rfl
    rw [hcons, List.flatMap_cons, List.flatMap_cons, ih, List.map_cons, metaBytes_cons, entryBytes,
      List.append_assoc]
    rfl

lemma length_spelled (keys : List GoString) : (spelled keys).length = 2 * keys.length := by
  induction keys with
  | nil => rfl
  | cons k keys ih =>
    have hcons : spelled (k :: keys) = k :: [0] :: spelled keys := rfl
    rw [hcons, List.length_cons, List.length_cons, ih, List.length_cons]
    omega

/-- The bytes of a key with 256 values that spell 128 keys are those of the 128 keys. -/
lemma metaBytes_spelled (k : GoString) {keys : List GoString} (h : keys.length = 128) :
    metaBytes [⟨k, spelled keys⟩] = metaBytes (⟨k, []⟩ :: keys.map fun k => ⟨k, [[]]⟩) := by
  have hcount : UInt8.ofNat (spelled keys).length = UInt8.ofNat 0 := by
    rw [length_spelled, h]
    rfl
  rw [metaBytes_cons, metaBytes_cons, entryBytes, entryBytes, hcount, flatMap_lp_spelled]
  simp [metaBytes]

/-- A request whose one key has 256 values. -/
def spelledRequest (keys : List GoString) : Message :=
  ⟨⟨magicNumber, 0, 0, 1⟩, str "Greeter", str "SayHello",
    ⟨[⟨str "note", spelled keys⟩], List.nodupKeys_singleton _⟩, []⟩

lemma choosePayload_spelledRequest (E : Env) (keys : List GoString) :
    (spelledRequest keys).choosePayload E = ((spelledRequest keys).header, []) := by
  have hct : (spelledRequest keys).header.getCompressType = .none := by
    change Header.getCompressType ⟨magicNumber, 0, 0, 1⟩ = .none
    decide
  simp only [Message.choosePayload, Message.choosePayloadWith, hct]
  rfl

/-- Whatever keys the values spell, the receiver gets them as keys. -/
theorem decode_spelledRequest (E : Env) {keys : List GoString} (h : keys.length = 128)
    (hlen : dataLen E (spelledRequest keys) < 2 ^ 32) : ∃ frame got,
    (spelledRequest keys).encode E (.plain _) = .ok (frame, (spelledRequest keys).header) ∧
    (decode E 0 ⟨frame, ioEOF⟩).1 = .ok got ∧
    got.metadata = appendAll E ∅ (⟨str "note", []⟩ :: keys.map fun k => ⟨k, [[]]⟩) := by
  have hbody := length_encodedBody (E := E)
    (EncodeChoice.plain (spelledRequest keys).metadata).write_perm
  rw [choosePayload_spelledRequest] at hbody
  have hspelled : encodedBody (spelledRequest keys) [⟨str "note", spelled keys⟩] [] =
      bodyBytes (str "Greeter") (str "SayHello")
        (metaBytes (⟨str "note", []⟩ :: keys.map fun k => ⟨k, [[]]⟩)) [] := by
    rw [← metaBytes_spelled (str "note") h]
    rfl
  have hdata : (bodyBytes (str "Greeter") (str "SayHello")
      (metaBytes (⟨str "note", []⟩ :: keys.map fun k => ⟨k, [[]]⟩)) []).length < 2 ^ 32 := by
    rw [← hspelled]
    exact lt_of_eq_of_lt hbody hlen
  have hfits : ∀ e ∈ (⟨str "note", []⟩ : MDEntry) :: keys.map fun k => ⟨k, [[]]⟩, EntryFits e := by
    intro e he
    refine entryFits_of_length he ?_ ?_
    · simp only [bodyBytes, List.length_append, length_lp] at hdata
      omega
    · rcases List.mem_cons.mp he with rfl | he
      · simp
      · obtain ⟨k, -, rfl⟩ := List.mem_map.mp he
        simp
  have hdecode := decodeMessageData_eq E (spelledRequest keys).header (str "Greeter")
    (str "SayHello") [] [] _ hfits hdata rfl
  have hframe := decode_frame E 0 (spelledRequest keys).header _ [] ioEOF rfl hdata (.inl le_rfl)
  rw [hdecode, List.append_nil] at hframe
  refine ⟨_, _, ?_, congrArg Prod.fst hframe, rfl⟩
  rw [encode_eq, choosePayload_spelledRequest]
  change Except.ok (frameBytes _ (encodedBody _ [⟨str "note", spelled keys⟩] []), _) = _
  rw [hspelled]

/-- A request whose only key `note` has 256 values is read as metadata with the key `admin`. -/
theorem spelledRequest_not_lowerCased : ∃ frame got,
    (spelledRequest (List.replicate 128 (str "admin"))).encode storedEnv (.plain _) =
      .ok (frame, (spelledRequest (List.replicate 128 (str "admin"))).header) ∧
    dataLen storedEnv (spelledRequest (List.replicate 128 (str "admin"))) < 2 ^ 32 ∧
    (decode storedEnv 0 ⟨frame, ioEOF⟩).1 = .ok got ∧ got.metadata.values (str "admin") ≠ [] ∧
    ¬LowerCased storedEnv (spelledRequest (List.replicate 128 (str "admin"))).metadata
      got.metadata := by
  have hlen : dataLen storedEnv (spelledRequest (List.replicate 128 (str "admin"))) < 2 ^ 32 := by
    decide +kernel
  have hkeys : (List.replicate 128 (str "admin")).length = 128 := List.length_replicate
  obtain ⟨frame, got, henc, hdec, hmeta⟩ := decode_spelledRequest storedEnv hkeys hlen
  have hadmin : got.metadata.values (str "admin") ≠ [] := by
    rw [hmeta, values_appendAll]
    intro hnil
    have hentry := List.flatMap_eq_nil_iff.mp (List.append_eq_nil_iff.mp hnil).2
      ⟨str "admin", [[]]⟩ (by simp; decide)
    cases hentry
  refine ⟨frame, got, henc, hlen, hdec, hadmin, ?_⟩
  rintro ⟨-, order, hperm, hvalues⟩
  rw [List.perm_singleton.mp hperm] at hvalues
  exact hadmin ((hvalues (str "admin")).trans (by decide))

end Zrpc.Proofs
