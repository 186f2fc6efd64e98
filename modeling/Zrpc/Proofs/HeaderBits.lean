import Zrpc.Message

/-!
# Header bits

Each flag of the header is read back as it was set, and setting one flag leaves the others
alone. A header survives its way through the eleven bytes of a frame.
-/

namespace Zrpc.Proofs
open Zrpc.Lib

lemma forall_byte {p : UInt8 → Prop} (h : ∀ i : Fin 256, p (UInt8.ofNat i.val)) (b : UInt8) :
    p b := by
  have hb := h ⟨b.toNat, b.toNat_lt⟩
  rwa [UInt8.ofNat_toNat] at hb

section Masks

variable {m m' v : UInt8}

lemma or_and_byte (a b m : UInt8) : (a ||| b) &&& m = (a &&& m) ||| (b &&& m) := by
  apply UInt8.eq_of_toBitVec_eq
  ext i
  simp only [UInt8.toBitVec_and, UInt8.toBitVec_or, BitVec.getElem_and, BitVec.getElem_or,
    Bool.and_or_distrib_right]

/-- Clearing bits does not show under a mask that has none of them. -/
lemma andNot_and (hm : ~~~m &&& m' = m') (b : UInt8) : andNot b m &&& m' = b &&& m' := by
  rw [andNot, UInt8.and_assoc, hm]

lemma andNot_and_self (b m : UInt8) : andNot b m &&& m = 0 := by
  rw [andNot, UInt8.and_assoc, UInt8.not_and_self, UInt8.and_zero]

lemma or_and (hv : v &&& m = 0) (b : UInt8) : (b ||| v) &&& m = b &&& m := by
  rw [or_and_byte, hv, UInt8.or_zero]

lemma or_and_self_byte (b m : UInt8) : (b ||| m) &&& m = m := by
  apply UInt8.eq_of_toBitVec_eq
  ext i
  simp only [UInt8.toBitVec_and, UInt8.toBitVec_or, BitVec.getElem_and, BitVec.getElem_or]
  cases m.toBitVec[i] <;> simp

/-- A value written under its mask is what stands there. -/
lemma replace_and_self (hv : v &&& m = v) (b : UInt8) : (andNot b m ||| v) &&& m = v := by
  rw [or_and_byte, andNot_and_self, UInt8.zero_or, hv]

/-- It leaves the bits under another mask alone. -/
lemma replace_and (hm : ~~~m &&& m' = m') (hv : v &&& m' = 0) (b : UInt8) :
    (andNot b m ||| v) &&& m' = b &&& m' := by
  rw [or_and hv, andNot_and hm]

end Masks

section Flags

variable (h : Header)

@[simp] lemma flags_setMessageType (mt : MessageType) :
    (h.setMessageType mt).getMessageType = mt ∧
    (h.setMessageType mt).getMessageStatusType = h.getMessageStatusType ∧
    (h.setMessageType mt).isHeartBeat = h.isHeartBeat ∧
    (h.setMessageType mt).getCompressType = h.getCompressType := by
  have hself : (mt.toByte <<< 7) &&& (0x80 : UInt8) = mt.toByte <<< 7 := by cases mt <;> decide
  have hstatus : (mt.toByte <<< 7) &&& (0x40 : UInt8) = 0 := by cases mt <;> decide
  have hbeat : (mt.toByte <<< 7) &&& (0x20 : UInt8) = 0 := by cases mt <;> decide
  have hcompress : (mt.toByte <<< 7) &&& (0x10 : UInt8) = 0 := by cases mt <;> decide
  simp only [Header.setMessageType, Header.getMessageType, Header.getMessageStatusType,
    Header.isHeartBeat, Header.getCompressType]
  rw [replace_and_self hself, replace_and (by decide) hstatus, replace_and (by decide) hbeat,
    replace_and (by decide) hcompress]
  refine ⟨?_, rfl, rfl, rfl⟩
  cases mt <;> decide

@[simp] lemma flags_setMessageStatusType (mst : MessageStatusType) :
    (h.setMessageStatusType mst).getMessageType = h.getMessageType ∧
    (h.setMessageStatusType mst).getMessageStatusType = mst ∧
    (h.setMessageStatusType mst).isHeartBeat = h.isHeartBeat ∧
    (h.setMessageStatusType mst).getCompressType = h.getCompressType := by
  have hself : (mst.toByte <<< 6) &&& (0x40 : UInt8) = mst.toByte <<< 6 := by cases mst <;> decide
  have htype : (mst.toByte <<< 6) &&& (0x80 : UInt8) = 0 := by cases mst <;> decide
  have hbeat : (mst.toByte <<< 6) &&& (0x20 : UInt8) = 0 := by cases mst <;> decide
  have hcompress : (mst.toByte <<< 6) &&& (0x10 : UInt8) = 0 := by cases mst <;> decide
  simp only [Header.setMessageStatusType, Header.getMessageType, Header.getMessageStatusType,
    Header.isHeartBeat, Header.getCompressType]
  rw [replace_and_self hself, replace_and (by decide) htype, replace_and (by decide) hbeat,
    replace_and (by decide) hcompress]
  refine ⟨rfl, ?_, rfl, rfl⟩
  cases mst <;> decide

@[simp] lemma flags_setHeartBeat (hb : Bool) :
    (h.setHeartBeat hb).getMessageType = h.getMessageType ∧
    (h.setHeartBeat hb).getMessageStatusType = h.getMessageStatusType ∧
    (h.setHeartBeat hb).isHeartBeat = hb ∧
    (h.setHeartBeat hb).getCompressType = h.getCompressType := by
  simp only [Header.setHeartBeat, Header.getMessageType, Header.getMessageStatusType,
    Header.isHeartBeat, Header.getCompressType]
  cases hb with
  | false =>
    simp only [Bool.false_eq_true, if_false]
    rw [andNot_and (by decide), andNot_and (by decide), andNot_and_self, andNot_and (by decide)]
    exact ⟨rfl, rfl, by decide, rfl⟩
  | true =>
    simp only [if_true]
    rw [or_and (by decide), or_and (by decide), or_and_self_byte, or_and (by decide)]
    exact ⟨rfl, rfl, by decide, rfl⟩

@[simp] lemma flags_setCompressType (ct : CompressType) :
    (h.setCompressType ct).getMessageType = h.getMessageType ∧
    (h.setCompressType ct).getMessageStatusType = h.getMessageStatusType ∧
    (h.setCompressType ct).isHeartBeat = h.isHeartBeat ∧
    (h.setCompressType ct).getCompressType = ct := by
  have hself : (ct.toByte <<< 4) &&& (0x10 : UInt8) = ct.toByte <<< 4 := by cases ct <;> decide
  have htype : (ct.toByte <<< 4) &&& (0x80 : UInt8) = 0 := by cases ct <;> decide
  have hstatus : (ct.toByte <<< 4) &&& (0x40 : UInt8) = 0 := by cases ct <;> decide
  have hbeat : (ct.toByte <<< 4) &&& (0x20 : UInt8) = 0 := by cases ct <;> decide
  simp only [Header.setCompressType, Header.getMessageType, Header.getMessageStatusType,
    Header.isHeartBeat, Header.getCompressType]
  rw [replace_and_self hself, replace_and (by decide) htype, replace_and (by decide) hstatus,
    replace_and (by decide) hbeat]
  refine ⟨rfl, rfl, rfl, ?_⟩
  cases ct <;> decide

@[simp] lemma setCompressType_get : h.setCompressType h.getCompressType = h := by
  obtain ⟨magic, version, flags, seq⟩ := h
  simp only [Header.setCompressType, Header.getCompressType, Header.mk.injEq, true_and, and_true]
  revert flags
  exact forall_byte (by decide +kernel)

@[simp] lemma setCompressType_set (ct ct' : CompressType) :
    (h.setCompressType ct).setCompressType ct' = h.setCompressType ct' := by
  simp only [Header.setCompressType, Header.mk.injEq, true_and, and_true]
  generalize h.flags = b
  revert b
  cases ct <;> cases ct' <;> exact forall_byte (by decide +kernel)

end Flags

@[simp] lemma ofBytes_toBytes (h : Header) : Header.ofBytes h.toBytes = h := by
  have hseq : leNat (leBytes 8 h.seq.toNat) = h.seq.toNat :=
    leNat_leBytes (by simpa using h.seq.toNat_lt)
  simp [Header.ofBytes, Header.toBytes, hseq]

end Zrpc.Proofs
