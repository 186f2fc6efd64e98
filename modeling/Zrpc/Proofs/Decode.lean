import Zrpc.Proofs.Encode

/-!
# What Decode reads

The offset walk of `decodeMessageData` accepts every byte string built from length-prefixed
parts and finds the parts where they are. From this follows what `Decode` returns on a frame,
and that it leaves the reader right behind the frame.
-/

namespace Zrpc.Proofs
open Zrpc.Lib

lemma drop_after {data a post : Bytes} {offset : Nat} (h : data.drop offset = a ++ post) :
    data.drop (offset + a.length) = post := by
  rw [← List.drop_drop, h, List.drop_left]

lemma le_length_of_drop {data a post : Bytes} {offset : Nat} (h : data.drop offset = a ++ post)
    (ha : 0 < a.length) : offset + a.length ≤ data.length := by
  have hl := congrArg List.length h
  rw [List.length_drop, List.length_append] at hl
  omega

lemma slice_ok {α : Type} {b : List α} {lo hi : Nat} (h1 : lo ≤ hi) (h2 : hi ≤ b.length) :
    slice b lo hi = .ok ((b.drop lo).take (hi - lo)) := by
  rw [slice, if_pos ⟨h1, h2⟩, List.drop_take]

lemma uint32At_eq {data post : Bytes} {offset n : Nat} (h : data.drop offset = leBytes 4 n ++ post)
    (hn : n < 2 ^ 32) : uint32At data offset = .ok n := by
  have hlen := le_length_of_drop h (by simp)
  rw [length_leBytes] at hlen
  have hw : (data.drop offset).take (offset + 4 - offset) = leBytes 4 n := by
    rw [h, Nat.add_sub_cancel_left]
    exact List.take_left' (length_leBytes 4 n)
  rw [uint32At, slice_ok (by omega) hlen, hw]
  change Except.ok (leNat (leBytes 4 n)) = _
  rw [leNat_leBytes (by simpa using hn)]

lemma text_lp {data s post : Bytes} {offset : Nat} (h : data.drop offset = lp s ++ post) :
    (Span.mk (offset + 4) s.length).text data = s := by
  have hd : data.drop (offset + 4) = s ++ post := by
    have h4 : data.drop offset = leBytes 4 s.length ++ (s ++ post) := by
      rw [h, lp, List.append_assoc]
    simpa using drop_after h4
  rw [Span.text, hd, List.take_left]

/-- One length-prefixed part that lies before the limit is taken whole. -/
lemma field_eq (noLength noData : String) (limit : Nat) {data s post : Bytes} {offset : Nat}
    (h : data.drop offset = lp s ++ post) (hs : s.length < 2 ^ 32)
    (hlim : offset + (lp s).length ≤ limit) :
    field noLength noData data limit offset =
      .ok (⟨offset + 4, s.length⟩, offset + (lp s).length) := by
  have hlen := le_length_of_drop h (by simp)
  rw [length_lp] at hlen hlim ⊢
  have hprefixed : data.drop offset = leBytes 4 s.length ++ (s ++ post) := by
    rw [h, lp, List.append_assoc]
  have hword := uint32At_eq hprefixed hs
  have h1 : ¬limit < offset + 4 := by omega
  have h2 : ¬limit < offset + 4 + s.length := by omega
  have hsl : slice data (offset + 4) (offset + 4 + s.length) = _ :=
    slice_ok (by omega) (by omega)
  rw [← Nat.add_assoc]
  simp only [field, h1, h2, if_false, hword, hsl, Bind.bind, Except.bind, Pure.pure, Except.pure]

lemma parseValues_eq {data post : Bytes} (metaEnd : Nat) (vs : List GoString) {offset : Nat}
    (h : data.drop offset = vs.flatMap lp ++ post) (hs : ∀ v ∈ vs, v.length < 2 ^ 32)
    (hlim : offset + (vs.flatMap lp).length ≤ metaEnd) :
    ∃ spans, parseValues data metaEnd vs.length offset =
        .ok (spans, offset + (vs.flatMap lp).length) ∧ spans.map (Span.text data) = vs := by
  induction vs generalizing offset with
  | nil => exact ⟨[], rfl, rfl⟩
  | cons v vs ih =>
    rw [List.flatMap_cons] at h hlim ⊢
    rw [List.append_assoc] at h
    rw [List.length_append] at hlim ⊢
    have hfield := field_eq "invalid metadata format: insufficient data for value length"
      "invalid metadata format: insufficient data for value" metaEnd h
      (hs v (by simp)) (by omega)
    obtain ⟨spans, hrest, htext⟩ := ih (drop_after h) (fun u hu => hs u (by simp [hu])) (by omega)
    refine ⟨⟨offset + 4, v.length⟩ :: spans, ?_, ?_⟩
    · simp only [List.length_cons, parseValues, valueField, hfield, Bind.bind, Except.bind, hrest,
        Pure.pure, Except.pure, Nat.add_assoc]
    · rw [List.map_cons, htext, text_lp h]

/-- The texts of a parsed metadata entry. -/
def entryText (data : Bytes) (e : Span × List Span) : MDEntry :=
  ⟨e.1.text data, e.2.map (Span.text data)⟩

/-- The lengths and counts of an entry fit their fields. -/
structure EntryFits (e : MDEntry) : Prop where
  key : e.1.length < 2 ^ 32
  count : e.2.length ≤ 255
  values : ∀ v ∈ e.2, v.length < 2 ^ 32

lemma parseEntry_eq {data post : Bytes} (metaEnd : Nat) {offset : Nat} {e : MDEntry}
    (h : data.drop offset = entryBytes e ++ post) (he : EntryFits e)
    (hlim : offset + (entryBytes e).length ≤ metaEnd) :
    ∃ spans, parseEntry data metaEnd offset = .ok (spans, offset + (entryBytes e).length) ∧
      entryText data spans = e := by
  have hkey : data.drop offset =
      lp e.1 ++ (UInt8.ofNat e.2.length :: (e.2.flatMap lp ++ post)) := by
    rw [h, entryBytes, List.append_assoc, List.cons_append]
  have hlen := length_entryBytes e
  have hfield := field_eq "invalid metadata format: insufficient data for key length"
    "invalid metadata format: insufficient data for key" metaEnd hkey he.key
    (by rw [length_lp]; omega)
  have hcount := drop_after hkey
  have hidx : index data (offset + (lp e.1).length) = .ok (UInt8.ofNat e.2.length) := by
    have hget : data[offset + (lp e.1).length]? = some (UInt8.ofNat e.2.length) := by
      have h0 := congrArg (fun l => l[0]?) hcount
      simpa using h0
    rw [index, hget]
  have hvalues := drop_after (a := [UInt8.ofNat e.2.length]) hcount
  rw [List.length_singleton] at hvalues
  have hnat : (UInt8.ofNat e.2.length).toNat = e.2.length := by
    have hc := he.count
    rw [UInt8.toNat_ofNat']
    omega
  obtain ⟨spans, hparse, htext⟩ := parseValues_eq metaEnd e.2 hvalues he.values
    (by rw [length_lp]; omega)
  refine ⟨(⟨offset + 4, e.1.length⟩, spans), ?_, ?_⟩
  · have hnot : ¬metaEnd ≤ offset + (lp e.1).length := by rw [length_lp]; omega
    have hend : offset + (lp e.1).length + 1 + (e.2.flatMap lp).length =
        offset + (entryBytes e).length := by rw [length_lp, hlen]; omega
    rw [hend] at hparse
    simp only [parseEntry, keyField, hfield, Bind.bind, Except.bind, hnot, if_false, hidx, hnat,
      hparse, Pure.pure, Except.pure]
  · have hk := text_lp hkey
    simp only [entryText, hk, htext]

/-- The metadata loop reads back a concatenation of entries that ends at the limit. -/
lemma parseMeta_eq {data post : Bytes} {metaEnd : Nat} (es : List MDEntry) {offset : Nat} (fuel : Nat)
    (h : data.drop offset = metaBytes es ++ post) (hs : ∀ e ∈ es, EntryFits e)
    (hend : offset + (metaBytes es).length = metaEnd) (hfuel : (metaBytes es).length ≤ fuel) :
    ∃ spans, parseMeta data metaEnd fuel offset = .ok (spans, metaEnd) ∧
      spans.map (entryText data) = es := by
  induction es generalizing offset fuel with
  | nil =>
    have he : offset = metaEnd := by simpa [metaBytes] using hend
    refine ⟨[], ?_, rfl⟩
    unfold parseMeta
    rw [if_pos he.ge, he]
  | cons e es ih =>
    rw [metaBytes_cons, List.append_assoc] at h
    rw [metaBytes_cons, List.length_append] at hend hfuel
    have hpos : 0 < (entryBytes e).length := by
      rw [length_entryBytes]
      omega
    obtain ⟨span, hentry, htext⟩ := parseEntry_eq metaEnd h (hs e (by simp)) (by omega)
    obtain ⟨fuel, rfl⟩ : ∃ f, fuel = f + 1 := ⟨fuel - 1, by omega⟩
    obtain ⟨spans, hrest, htexts⟩ := ih fuel (drop_after h)
      (fun e' he' => hs e' (by simp [he'])) (by omega) (by omega)
    refine ⟨span :: spans, ?_, ?_⟩
    · have hnot : ¬metaEnd ≤ offset := by omega
      unfold parseMeta
      rw [if_neg hnot]
      simp only [hentry, Bind.bind, Except.bind, hrest, Pure.pure, Except.pure]
    · rw [List.map_cons, htext, htexts]

/-- The lengths of the four parts fit their fields. -/
structure BodyFits (name method : GoString) (es : List MDEntry) (payload : Bytes) : Prop where
  name : name.length < 2 ^ 32
  method : method.length < 2 ^ 32
  metadata : (metaBytes es).length < 2 ^ 32
  entries : ∀ e ∈ es, EntryFits e
  payload : payload.length < 2 ^ 32

/-- Every sequence of the four length-prefixed parts is parsed into those parts. -/
theorem parseData_of_fits (name method payload rest : Bytes) (es : List MDEntry)
    (hfits : BodyFits name method es payload) :
    ∃ L, parseData (bodyBytes name method (metaBytes es) payload ++ rest) = .ok L ∧
      L.service.text (bodyBytes name method (metaBytes es) payload ++ rest) = name ∧
      L.method.text (bodyBytes name method (metaBytes es) payload ++ rest) = method ∧
      L.entries.map (entryText (bodyBytes name method (metaBytes es) payload ++ rest)) = es ∧
      L.payload.text (bodyBytes name method (metaBytes es) payload ++ rest) = payload := by
  generalize hdata : bodyBytes name method (metaBytes es) payload ++ rest = data
  have h0 : data.drop 0 = lp name ++ (lp method ++ (lp (metaBytes es) ++ (lp payload ++ rest))) := by
    rw [← hdata, List.drop_zero]
    simp only [bodyBytes, List.append_assoc]
  have h1 := drop_after h0
  have h2 := drop_after h1
  have h2' : data.drop (0 + (lp name).length + (lp method).length) =
      leBytes 4 (metaBytes es).length ++ (metaBytes es ++ (lp payload ++ rest)) := by
    rw [h2, lp, List.append_assoc]
  have h3 := drop_after h2'
  have h4 := drop_after h3
  rw [length_leBytes] at h3 h4
  have hdl : data.length = (4 + name.length) + ((4 + method.length) +
      ((4 + (metaBytes es).length) + ((4 + payload.length) + rest.length))) := by
    have hl := congrArg List.length h0
    simpa only [List.drop_zero, List.length_append, length_lp] using hl
  have hname := field_eq "invalid message format: insufficient data for service name length"
    "invalid message format: insufficient data for service name" data.length h0
    hfits.name (by rw [length_lp]; omega)
  have hmethod := field_eq "invalid message format: insufficient data for service method length"
    "invalid message format: insufficient data for service method" data.length h1
    hfits.method (by rw [length_lp, length_lp]; omega)
  have hmetaLen := uint32At_eq h2' hfits.metadata
  obtain ⟨spans, hmeta, htexts⟩ := parseMeta_eq es _ h3 hfits.entries rfl (le_refl _)
  have hpayload := field_eq "invalid message format: insufficient data for payload length"
    "invalid message format: insufficient data for payload" data.length h4
    hfits.payload (by simp only [length_lp]; omega)
  have hn1 : ¬data.length < 0 + (lp name).length + (lp method).length + 4 := by
    simp only [length_lp]
    omega
  have hn2 : ¬(0 < (metaBytes es).length ∧
      data.length < 0 + (lp name).length + (lp method).length + 4 + (metaBytes es).length) := by
    simp only [length_lp]
    omega
  refine ⟨⟨⟨0 + 4, name.length⟩, ⟨0 + (lp name).length + 4, method.length⟩, spans,
    ⟨0 + (lp name).length + (lp method).length + 4 + (metaBytes es).length + 4, payload.length⟩⟩,
    ?_, text_lp h0, text_lp h1, htexts, text_lp h4⟩
  simp only [parseData, serviceNameField, serviceMethodField, payloadField, hname, hmethod,
    Bind.bind, Except.bind, hn1, hn2, if_false, hmetaLen, hmeta, hpayload, Pure.pure, Except.pure]

/-- A frame whose data fits its length field has parts that fit theirs. -/
theorem parseData_eq (name method payload rest : Bytes) (es : List MDEntry)
    (hes : ∀ e ∈ es, EntryFits e)
    (hlen : (bodyBytes name method (metaBytes es) payload).length < 2 ^ 32) :
    ∃ L, parseData (bodyBytes name method (metaBytes es) payload ++ rest) = .ok L ∧
      L.service.text (bodyBytes name method (metaBytes es) payload ++ rest) = name ∧
      L.method.text (bodyBytes name method (metaBytes es) payload ++ rest) = method ∧
      L.entries.map (entryText (bodyBytes name method (metaBytes es) payload ++ rest)) = es ∧
      L.payload.text (bodyBytes name method (metaBytes es) payload ++ rest) = payload := by
  simp only [bodyBytes, List.length_append, length_lp] at hlen
  exact parseData_of_fits name method payload rest es
    ⟨by omega, by omega, by omega, hes, by omega⟩

end Zrpc.Proofs
