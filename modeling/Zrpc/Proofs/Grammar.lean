import Zrpc.Proofs.DecodeSafe
import Zrpc.Proofs.RoundTrip

/-!
# The grammar of frame data

The offset walk of `decodeMessageData` accepts nothing but the four length-prefixed parts: what
it has gone through is the encoding of what it found there. Together with `parseData_of_fits` this
says which byte strings are accepted and what is read from them.
-/

namespace Zrpc.Proofs
open Zrpc.Lib

lemma slice_eq_ok {α : Type} {b x : List α} {lo hi : Nat} (h : slice b lo hi = .ok x) :
    lo ≤ hi ∧ hi ≤ b.length ∧ x = (b.drop lo).take (hi - lo) := by
  unfold slice at h
  split at h
  · rename_i hbounds
    have hx := Except.ok.inj h
    rw [← hx, List.drop_take]
    exact ⟨hbounds.1, hbounds.2, rfl⟩
  · cases h

/-- The first bytes of the rest of the data are the length that was read. -/
lemma uint32At_exact {data : Bytes} {offset n : Nat} (h : uint32At data offset = .ok n) :
    n < 2 ^ 32 ∧ offset + 4 ≤ data.length ∧
      data.drop offset = leBytes 4 n ++ data.drop (offset + 4) := by
  unfold uint32At at h
  obtain ⟨word, hword, hn⟩ := bind_eq_ok h
  obtain ⟨-, hlen, rfl⟩ := slice_eq_ok hword
  rw [Nat.add_sub_cancel_left] at hn
  have hn' : leNat ((data.drop offset).take 4) = n := Except.ok.inj hn
  have hfour : ((data.drop offset).take 4).length = 4 := by
    rw [List.length_take, List.length_drop]
    omega
  have hlt := leNat_lt ((data.drop offset).take 4)
  have hbytes := leBytes_leNat ((data.drop offset).take 4)
  rw [hfour, hn'] at hlt hbytes
  refine ⟨by simpa using hlt, hlen, ?_⟩
  rw [hbytes, ← List.drop_drop, List.take_append_drop]

/-- A part that was taken stands there behind its length, and ends before the limit. -/
lemma field_exact {noLength noData : String} {data : Bytes} {limit offset offset' : Nat}
    {span : Span} (h : field noLength noData data limit offset = .ok (span, offset')) :
    ∃ s post, data.drop offset = lp s ++ post ∧ s.length < 2 ^ 32 ∧ span.text data = s ∧
      offset' = offset + (lp s).length ∧ offset' ≤ limit := by
  unfold field at h
  split at h
  · cases h
  obtain ⟨n, hn, h⟩ := bind_eq_ok h
  dsimp only at h
  split at h
  · cases h
  rename_i hlimit
  obtain ⟨part, hpart, h⟩ := bind_eq_ok h
  obtain ⟨hn32, -, hdrop⟩ := uint32At_exact hn
  obtain ⟨-, hlen, rfl⟩ := slice_eq_ok hpart
  cases h
  have hs : ((data.drop (offset + 4)).take n).length = n := by
    rw [List.length_take, List.length_drop]
    omega
  refine ⟨(data.drop (offset + 4)).take n, data.drop (offset + 4 + n), ?_, by omega, rfl, ?_, ?_⟩
  · have hsplit := List.take_append_drop n (data.drop (offset + 4))
    rw [List.drop_drop] at hsplit
    rw [lp, hs, List.append_assoc, hsplit]
    exact hdrop
  · rw [length_lp, hs]
    omega
  · omega

lemma parseValues_exact {data : Bytes} {metaEnd : Nat} {count offset offset' : Nat}
    {spans : List Span} (h : parseValues data metaEnd count offset = .ok (spans, offset'))
    (hlim : offset ≤ metaEnd) :
    ∃ vs post, data.drop offset = vs.flatMap lp ++ post ∧ vs.length = count ∧
      (∀ v ∈ vs, v.length < 2 ^ 32) ∧ spans.map (Span.text data) = vs ∧
      offset' = offset + (vs.flatMap lp).length ∧ offset' ≤ metaEnd := by
  induction count generalizing offset spans with
  | zero =>
    cases h
    exact ⟨[], _, rfl, rfl, by simp, rfl, rfl, hlim⟩
  | succ count ih =>
    obtain ⟨⟨value, offset₁⟩, hvalue, h⟩ := bind_eq_ok h
    obtain ⟨⟨values, offset₂⟩, hvalues, h⟩ := bind_eq_ok h
    cases h
    obtain ⟨v, post₁, hdrop, hv, htext, rfl, hle⟩ := field_exact hvalue
    obtain ⟨vs, post, hrest, rfl, hvs, htexts, rfl, hend⟩ := ih hvalues hle
    rw [drop_after hdrop] at hrest
    refine ⟨v :: vs, post, ?_, rfl, ?_, ?_, ?_, hend⟩
    · rw [hdrop, hrest, List.flatMap_cons, List.append_assoc]
    · exact List.forall_mem_cons.mpr ⟨hv, hvs⟩
    · rw [List.map_cons, htext, htexts]
    · rw [List.flatMap_cons, List.length_append]
      omega

lemma index_exact {data : Bytes} {i : Nat} {x : UInt8} (h : index data i = .ok x) :
    data.drop i = x :: data.drop (i + 1) := by
  unfold index at h
  split at h
  · rename_i y hy
    have hlt : i < data.length := (List.getElem?_eq_some_iff.mp hy).1
    rw [List.getElem?_eq_getElem hlt] at hy
    rw [List.drop_eq_getElem_cons hlt, Option.some.inj hy, Except.ok.inj h]
  · cases h

lemma parseEntry_exact {data : Bytes} {metaEnd offset offset' : Nat} {spans : Span × List Span}
    (h : parseEntry data metaEnd offset = .ok (spans, offset')) :
    ∃ e post, data.drop offset = entryBytes e ++ post ∧ EntryFits e ∧ entryText data spans = e ∧
      offset' = offset + (entryBytes e).length ∧ offset' ≤ metaEnd := by
  unfold parseEntry at h
  obtain ⟨⟨key, offset₁⟩, hkey, h⟩ := bind_eq_ok h
  dsimp only at h
  split at h
  · cases h
  rename_i hlimit
  obtain ⟨valueCount, hcount, h⟩ := bind_eq_ok h
  obtain ⟨⟨values, offset₂⟩, hvalues, h⟩ := bind_eq_ok h
  cases h
  obtain ⟨k, post₁, hdrop, hk, htext, rfl, -⟩ := field_exact hkey
  have hbyte := index_exact hcount
  obtain ⟨vs, post, hrest, hlen, hvs, htexts, rfl, hend⟩ := parseValues_exact hvalues (by omega)
  have hof : UInt8.ofNat vs.length = valueCount := by
    rw [hlen]
    exact UInt8.ofNat_toNat
  have hcount255 : vs.length ≤ 255 := by
    have hlt := valueCount.toNat_lt
    omega
  refine ⟨⟨k, vs⟩, post, ?_, ⟨hk, hcount255, hvs⟩, ?_, ?_, hend⟩
  · rw [drop_after hdrop, hrest] at hbyte
    rw [hdrop, hbyte, entryBytes, hof, List.append_assoc, List.cons_append]
  · rw [entryText, htext, htexts]
  · rw [length_entryBytes, length_lp]
    dsimp only
    omega

/-- The metadata loop has ended, or goes through one more entry. -/
lemma parseMeta_cases {data : Bytes} {metaEnd fuel offset offset' : Nat}
    {spans : List (Span × List Span)}
    (h : parseMeta data metaEnd fuel offset = .ok (spans, offset')) :
    (metaEnd ≤ offset ∧ spans = [] ∧ offset' = offset) ∨
    ∃ fuel₁ entry offset₁ entries, fuel = fuel₁ + 1 ∧
      parseEntry data metaEnd offset = .ok (entry, offset₁) ∧
      parseMeta data metaEnd fuel₁ offset₁ = .ok (entries, offset') ∧ spans = entry :: entries := by
  unfold parseMeta at h
  split at h
  · rename_i hend
    cases h
    exact Or.inl ⟨hend, rfl, rfl⟩
  · cases fuel with
    | zero => cases h
    | succ fuel =>
      obtain ⟨⟨entry, offset₁⟩, hentry, h⟩ := bind_eq_ok h
      obtain ⟨⟨entries, offset₂⟩, hentries, h⟩ := bind_eq_ok h
      cases h
      exact Or.inr ⟨fuel, entry, offset₁, entries, rfl, hentry, hentries, rfl⟩

/-- The metadata loop ends at the limit, and has gone through a concatenation of entries. -/
lemma parseMeta_exact {data : Bytes} {metaEnd fuel offset offset' : Nat}
    {spans : List (Span × List Span)}
    (h : parseMeta data metaEnd fuel offset = .ok (spans, offset')) (hlim : offset ≤ metaEnd) :
    ∃ es post, data.drop offset = metaBytes es ++ post ∧ (∀ e ∈ es, EntryFits e) ∧
      spans.map (entryText data) = es ∧ offset' = metaEnd ∧
      offset + (metaBytes es).length = metaEnd := by
  induction fuel generalizing offset spans with
  | zero =>
    obtain ⟨hend, rfl, rfl⟩ | ⟨fuel₁, -, -, -, hfuel, -⟩ := parseMeta_cases h
    · exact ⟨[], _, rfl, by simp, rfl, by omega, Nat.le_antisymm hlim hend⟩
    · cases hfuel
  | succ fuel ih =>
    obtain ⟨hend, rfl, rfl⟩ | ⟨fuel₁, entry, offset₁, entries, hfuel, hentry, hentries, rfl⟩ :=
      parseMeta_cases h
    · exact ⟨[], _, rfl, by simp, rfl, by omega, Nat.le_antisymm hlim hend⟩
    · cases hfuel
      obtain ⟨e, post₁, hdrop, he, htext, rfl, hle⟩ := parseEntry_exact hentry
      obtain ⟨es, post, hrest, hes, htexts, hend', hend⟩ := ih hentries hle
      rw [drop_after hdrop] at hrest
      refine ⟨e :: es, post, ?_, List.forall_mem_cons.mpr ⟨he, hes⟩, ?_, hend', ?_⟩
      · rw [hdrop, hrest, metaBytes_cons, List.append_assoc]
      · rw [List.map_cons, htext, htexts]
      · rw [metaBytes_cons, List.length_append]
        omega

/-- What the offset walk accepts is the encoding of the parts it found. -/
theorem parseData_exact {data : Bytes} {L : Layout} (h : parseData data = .ok L) :
    ∃ name method es payload rest,
      data = bodyBytes name method (metaBytes es) payload ++ rest ∧
      BodyFits name method es payload ∧ L.service.text data = name ∧
      L.method.text data = method ∧ L.entries.map (entryText data) = es ∧
      L.payload.text data = payload := by
  unfold parseData at h
  obtain ⟨⟨service, offset₁⟩, hservice, h⟩ := bind_eq_ok h
  obtain ⟨⟨method, offset₂⟩, hmethod, h⟩ := bind_eq_ok h
  dsimp only at h
  split at h
  · cases h
  obtain ⟨metaLen, hmetaLen, h⟩ := bind_eq_ok h
  split at h
  · cases h
  rename_i hroom
  obtain ⟨⟨entries, offset₃⟩, hentries, h⟩ := bind_eq_ok h
  obtain ⟨⟨payload, offset₄⟩, hpayload, h⟩ := bind_eq_ok h
  cases h
  obtain ⟨n, post₁, hdrop₁, hn, hntext, rfl, -⟩ := field_exact hservice
  obtain ⟨m, post₂, hdrop₂, hm, hmtext, rfl, -⟩ := field_exact hmethod
  obtain ⟨hlen32, hlen, hdrop₃⟩ := uint32At_exact hmetaLen
  obtain ⟨es, post₃, hdrop₄, hes, hestext, rfl, hend⟩ := parseMeta_exact hentries (by omega)
  obtain ⟨p, rest, hdrop₅, hp, hptext, -, -⟩ := field_exact hpayload
  have hmeta : (metaBytes es).length = metaLen := by omega
  refine ⟨n, m, es, p, rest, ?_, ⟨hn, hm, by omega, hes, hp⟩, hntext, hmtext, hestext, hptext⟩
  have hrest : post₃ = lp p ++ rest := by
    rw [← hdrop₅, ← hend, drop_after hdrop₄]
  calc data = lp n ++ post₁ := hdrop₁
    _ = lp n ++ (lp m ++ post₂) := by rw [← hdrop₂, drop_after hdrop₁]
    _ = lp n ++ (lp m ++ (leBytes 4 metaLen ++ (metaBytes es ++ post₃))) := by
      rw [← hdrop₄, ← hdrop₃, drop_after hdrop₂]
    _ = bodyBytes n m (metaBytes es) p ++ rest := by
      simp only [hrest, bodyBytes, lp, hmeta, List.append_assoc]

/-! ### The parts are determined by the data -/

lemma lp_append_inj {a b x y : Bytes} (ha : a.length < 2 ^ 32) (hb : b.length < 2 ^ 32)
    (h : lp a ++ x = lp b ++ y) : a = b ∧ x = y := by
  simp only [lp, List.append_assoc] at h
  obtain ⟨hword, hrest⟩ := List.append_inj h (by simp)
  have hlen : a.length = b.length := by
    have hnat := congrArg leNat hword
    rwa [leNat_leBytes (by simpa using ha), leNat_leBytes (by simpa using hb)] at hnat
  exact List.append_inj hrest hlen

/-- Frame data begins with the four parts of one message only. -/
lemma bodyBytes_payload_inj {name name' method method' mdata mdata' payload payload' rest : Bytes}
    (hlen : (bodyBytes name method mdata payload).length < 2 ^ 32)
    (h : bodyBytes name method mdata payload =
      bodyBytes name' method' mdata' payload' ++ rest) : payload = payload' := by
  have hlen' := hlen
  rw [h, List.length_append] at hlen'
  simp only [bodyBytes, List.length_append, length_lp] at hlen hlen'
  simp only [bodyBytes, List.append_assoc] at h
  obtain ⟨-, h⟩ := lp_append_inj (by omega) (by omega) h
  obtain ⟨-, h⟩ := lp_append_inj (by omega) (by omega) h
  obtain ⟨-, h⟩ := lp_append_inj (by omega) (by omega) h
  rw [← List.append_nil (lp payload)] at h
  exact (lp_append_inj (by omega) (by omega) h).1

/-- What `decodeMessageData` makes of frame data, in the terms of the grammar. -/
theorem decodeMessageData_iff (E : Env) (header : Header) (data : Bytes) (got : Message) :
    decodeMessageData E header data = .ok got ↔ ∃ name method es payload rest plain,
      data = bodyBytes name method (metaBytes es) payload ++ rest ∧
      BodyFits name method es payload ∧ decodePayload E header payload = .ok plain ∧
      got = ⟨header, name, method, appendAll E ∅ es, plain⟩ := by
  constructor
  · intro h
    obtain ⟨L, hL, h⟩ := bind_eq_ok h
    obtain ⟨plain, hplain, h⟩ := bind_eq_ok h
    cases h
    obtain ⟨name, method, es, payload, rest, hdata, hfits, hname, hmethod, hes, hpayload⟩ :=
      parseData_exact hL
    rw [hpayload] at hplain
    refine ⟨name, method, es, payload, rest, plain, hdata, hfits, hplain, ?_⟩
    rw [hname, hmethod, layoutMetadata_eq, hes]
  · rintro ⟨name, method, es, payload, rest, plain, rfl, hfits, hplain, rfl⟩
    obtain ⟨L, hL, hname, hmethod, hes, hpayload⟩ :=
      parseData_of_fits name method payload rest es hfits
    unfold decodePayload at hplain
    simp only [decodeMessageData, decodeMessageDataWith, hL, Bind.bind, Except.bind, hpayload,
      hplain, Pure.pure, Except.pure, hname, hmethod, layoutMetadata_eq, hes]

end Zrpc.Proofs
