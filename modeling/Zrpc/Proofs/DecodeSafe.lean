import Zrpc.Lib.Ensures
import Zrpc.Proofs.Decode
import Zrpc.Timeout

/-!
# Decode never panics

Whatever bytes arrive, no index and no slice of `decodeMessageData` is out of range, and the
metadata loop moves forward in every round.
-/

namespace Zrpc.Proofs
open Zrpc.Lib

/-- The function returns, with a value that satisfies `post`, or with an error. -/
def Safe {α : Type} (x : Go α) (post : α → Prop) : Prop := Ensures (fun e => e ≠ .panic) x post

lemma Safe.ne_panic {α : Type} {x : Go α} {post : α → Prop} (hx : Safe x post) :
    x ≠ .error .panic :=
  fun h => Ensures.error hx h rfl

lemma safe_fail {α : Type} {text : GoString} {post : α → Prop} : Safe (fail text) post := by
  intro h
  cases h

lemma uint32At_ok {data : Bytes} {offset : Nat} (h : offset + 4 ≤ data.length) :
    ∃ n, uint32At data offset = .ok n := by
  unfold uint32At
  rw [slice_ok (by omega) h]
  exact ⟨_, rfl⟩

lemma index_ok {α : Type} {b : List α} {i : Nat} (h : i < b.length) : index b i = .ok b[i] := by
  unfold index
  rw [List.getElem?_eq_getElem h]

lemma safe_field (noLength noData : String) {data : Bytes} {limit : Nat}
    (hlimit : limit ≤ data.length) (offset : Nat) :
    Safe (field noLength noData data limit offset) (fun r => offset + 4 ≤ r.2 ∧ r.2 ≤ limit) := by
  unfold field
  by_cases h1 : limit < offset + 4
  · simp only [h1, if_true]
    exact safe_fail
  · obtain ⟨n, hn⟩ := uint32At_ok (show offset + 4 ≤ data.length by omega)
    simp only [h1, if_false, hn, Bind.bind, Except.bind]
    by_cases h2 : limit < offset + 4 + n
    · simp only [h2, if_true]
      exact safe_fail
    · have hs := slice_ok (b := data) (show offset + 4 ≤ offset + 4 + n by omega) (by omega)
      simp only [h2, if_false, hs]
      exact Ensures.pure ⟨by simp, by simp; omega⟩

lemma safe_parseValues {data : Bytes} {metaEnd : Nat} (hend : metaEnd ≤ data.length) (count : Nat) :
    ∀ offset, offset ≤ metaEnd →
      Safe (parseValues data metaEnd count offset) (fun r => offset ≤ r.2 ∧ r.2 ≤ metaEnd) := by
  induction count with
  | zero =>
    intro offset hoffset
    exact ⟨le_refl _, hoffset⟩
  | succ count ih =>
    intro offset hoffset
    unfold parseValues
    apply (safe_field _ _ hend offset).bind
    rintro ⟨value, offset₁⟩ ⟨h1, h2⟩
    apply (ih offset₁ h2).bind
    rintro ⟨values, offset₂⟩ ⟨h3, h4⟩
    dsimp only at h1 h3
    exact Ensures.pure ⟨by dsimp only; omega, h4⟩

/-- One entry is at least five bytes long, so the loop moves. -/
lemma safe_parseEntry {data : Bytes} {metaEnd : Nat} (hend : metaEnd ≤ data.length) (offset : Nat) :
    Safe (parseEntry data metaEnd offset) (fun r => offset < r.2 ∧ r.2 ≤ metaEnd) := by
  unfold parseEntry
  apply (safe_field _ _ hend offset).bind
  rintro ⟨key, offset₁⟩ ⟨h1, h2⟩
  dsimp only at h1 h2 ⊢
  by_cases h3 : metaEnd ≤ offset₁
  · simp only [h3, if_true]
    exact safe_fail
  · have hi := index_ok (b := data) (i := offset₁) (by omega)
    simp only [h3, if_false, hi]
    apply (safe_parseValues hend _ (offset₁ + 1) (by omega)).bind
    rintro ⟨values, offset₂⟩ ⟨h4, h5⟩
    dsimp only at h4
    exact Ensures.pure ⟨by dsimp only; omega, h5⟩

/-- The fuel of the metadata loop is never used up. -/
lemma parseMeta_fuel {data : Bytes} {metaEnd : Nat} (hend : metaEnd ≤ data.length) (fuel : Nat) :
    ∀ offset, offset ≤ metaEnd → metaEnd - offset ≤ fuel →
      Safe (parseMeta data metaEnd fuel offset) (fun r => r.2 = metaEnd) := by
  induction fuel with
  | zero =>
    intro offset h1 h2
    unfold parseMeta
    rw [if_pos (by omega)]
    exact le_antisymm h1 (by omega)
  | succ fuel ih =>
    intro offset h1 h2
    unfold parseMeta
    by_cases h3 : metaEnd ≤ offset
    · rw [if_pos h3]
      exact le_antisymm h1 h3
    · rw [if_neg h3]
      apply (safe_parseEntry hend offset).bind
      rintro ⟨entry, offset₁⟩ ⟨h4, h5⟩
      dsimp only at h4 h5 ⊢
      apply (ih offset₁ h5 (by omega)).bind
      rintro ⟨entries, offset₂⟩ h6
      exact Ensures.pure h6

theorem safe_parseData (data : Bytes) : Safe (parseData data) (fun _ => True) := by
  unfold parseData
  apply (safe_field _ _ (le_refl _) 0).bind
  rintro ⟨service, offset₁⟩ ⟨-, h1⟩
  apply (safe_field _ _ (le_refl _) offset₁).bind
  rintro ⟨method, offset₂⟩ ⟨-, h2⟩
  dsimp only at h2 ⊢
  by_cases h3 : data.length < offset₂ + 4
  · simp only [h3, if_true]
    exact safe_fail
  · obtain ⟨metaLen, hlen⟩ := uint32At_ok (show offset₂ + 4 ≤ data.length by omega)
    simp only [h3, if_false, hlen, Bind.bind, Except.bind]
    by_cases h4 : 0 < metaLen ∧ data.length < offset₂ + 4 + metaLen
    · rw [if_pos h4]
      exact safe_fail
    · rw [if_neg h4]
      have hend : offset₂ + 4 + metaLen ≤ data.length := by
        rcases Nat.eq_zero_or_pos metaLen with h0 | h0 <;> omega
      apply (parseMeta_fuel hend metaLen (offset₂ + 4) (by omega) (by omega)).bind
      rintro ⟨entries, offset₃⟩ h5
      apply (safe_field _ _ (le_refl _) offset₃).bind
      rintro ⟨payload, offset₄⟩ -
      exact Ensures.pure trivial

lemma safe_decodePayload (E : Env) (header : Header) (payload : Bytes) :
    Safe (decodePayload E header payload) (fun _ => True) := by
  unfold decodePayload decodePayloadWith
  split
  · split
    · split
      · exact safe_fail
      · split
        · trivial
        · exact safe_fail
    · trivial
  · trivial

lemma safe_decodeMessageData (E : Env) (header : Header) (data : Bytes) :
    Safe (decodeMessageData E header data) (fun _ => True) := by
  unfold decodeMessageData decodeMessageDataWith
  apply (safe_parseData data).bind
  rintro layout -
  apply (safe_decodePayload E header _).bind
  rintro payload -
  exact Ensures.pure trivial

lemma safe_readFull (r : Reader) (n : Nat) : Safe (r.readFull n).1 (fun _ => True) := by
  unfold Reader.readFull
  split
  · trivial
  · split <;> exact safe_fail

theorem decode_ne_panic (E : Env) (maxLength : Int) (r : Reader) :
    (decode E maxLength r).1 ≠ .error .panic := by
  have hsafe : Safe (decode E maxLength r).1 (fun _ => True) := by
    unfold decode decodeWith
    split
    · rename_i e r₁ heq
      have h := safe_readFull r 11
      rwa [heq] at h
    · rename_i headerBuf r₁ _
      dsimp only
      split
      · exact safe_fail
      · split
        · rename_i e r₂ heq
          have h := safe_readFull r₁ 4
          rwa [heq] at h
        · rename_i lenData r₂ _
          split
          · exact safe_fail
          · split
            · rename_i e r₃ heq
              have h := safe_readFull r₂ (leNat lenData)
              rwa [heq] at h
            · exact safe_decodeMessageData E _ _
  exact hsafe.ne_panic

/-! ### Timeouts -/

/-- Decoding a timeout never panics: the index and the slice are inside the string. -/
lemma safe_decodeTimeout (E : Env) (s : GoString) : Safe (decodeTimeout E s) (fun _ => True) := by
  unfold decodeTimeout
  by_cases hshort : s.length < 2
  · simp only [hshort, if_true]
    exact safe_fail
  by_cases hlong : 9 < s.length
  · simp only [hshort, hlong, if_true, if_false]
    exact safe_fail
  have hi : index s (s.length - 1) = .ok s[s.length - 1] := index_ok (by omega)
  have hs : slice s 0 (s.length - 1) = .ok ((s.take (s.length - 1)).drop 0) := if_pos (by omega)
  simp only [hshort, hlong, if_false, hi, hs, Bind.bind, Except.bind]
  split
  · exact safe_fail
  · split
    · exact safe_fail
    · split <;> trivial

end Zrpc.Proofs
