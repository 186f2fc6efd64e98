import Zrpc.Message

/-!
# What Encode writes

`Encode` fills a recycled buffer by an offset walk. This file proves that the walk never leaves
the buffer, that it ends exactly at its end, and that the frame is the concatenation of the
header, the data length and the four length-prefixed parts, whatever the buffer held before and
in whatever order the metadata was met.
-/

namespace Zrpc.Proofs
open Zrpc.Lib

/-- A byte string behind its 4-byte length. -/
def lp (s : Bytes) : Bytes := leBytes 4 s.length ++ s

/-- One metadata entry: the key, the count byte and the values. -/
def entryBytes (e : MDEntry) : Bytes := lp e.1 ++ (UInt8.ofNat e.2.length :: e.2.flatMap lp)

def metaBytes (order : List MDEntry) : Bytes := order.flatMap entryBytes

lemma metaBytes_cons (e : MDEntry) (es : List MDEntry) :
    metaBytes (e :: es) = entryBytes e ++ metaBytes es := List.flatMap_cons

/-- The data part of a frame. -/
def bodyBytes (name method : GoString) (mdata payload : Bytes) : Bytes :=
  lp name ++ (lp method ++ (lp mdata ++ lp payload))

def frameBytes (h : Header) (body : Bytes) : Bytes := h.toBytes ++ lp body

@[simp] lemma length_lp (s : Bytes) : (lp s).length = 4 + s.length := by
  simp [lp]

@[simp] lemma length_toBytes (h : Header) : h.toBytes.length = 11 := by
  simp [Header.toBytes]

lemma length_entryBytes (e : MDEntry) :
    (entryBytes e).length = 4 + e.1.length + 1 + (e.2.flatMap lp).length := by
  simp only [entryBytes, List.length_append, length_lp, List.length_cons]
  omega

lemma foldl_valueSize (vs : List GoString) (n : Nat) :
    vs.foldl (fun metaL v => metaL + (4 + v.length)) n = n + (vs.flatMap lp).length := by
  induction vs generalizing n with
  | nil => rfl
  | cons v vs ih =>
    rw [List.foldl_cons, ih, List.flatMap_cons, List.length_append, length_lp]
    omega

/-- The size pass computes the length of what the write pass writes. -/
lemma metaSize_eq (order : List MDEntry) : metaSize order = (metaBytes order).length := by
  have h : ∀ n, order.foldl (fun metaL e =>
      e.2.foldl (fun metaL v => metaL + (4 + v.length)) (metaL + (4 + e.1.length + 1))) n =
      n + (metaBytes order).length := by
    induction order with
    | nil => intro n; rfl
    | cons e order ih =>
      intro n
      rw [List.foldl_cons, ih, foldl_valueSize, metaBytes_cons, List.length_append, length_entryBytes]
      omega
  rw [metaSize, h, Nat.zero_add]

lemma metaSize_perm {a b : List MDEntry} (h : a.Perm b) : metaSize a = metaSize b := by
  rw [metaSize_eq, metaSize_eq]
  exact (h.flatMap_right entryBytes).length_eq

/-! ### The walk -/

/-- `f` appends exactly `bs` to what the buffer holds, given the room for it. -/
def Writes (f : Writer UInt8 → Go (Writer UInt8)) (bs : Bytes) : Prop :=
  ∀ w done room, w.Holds done (bs.length + room) →
    ∃ w', f w = .ok w' ∧ w'.Holds (done ++ bs) room

lemma writes_copyBytes (bs : Bytes) : Writes (fun w => copyBytes w bs) bs := by
  intro w done room h
  obtain ⟨w', hw, hh⟩ := h.write
  exact ⟨w', by simp only [copyBytes, hw], hh⟩

lemma writes_pure : Writes pure [] := by
  intro w done room h
  refine ⟨w, rfl, ?_⟩
  simpa using h

lemma Writes.bind {f g : Writer UInt8 → Go (Writer UInt8)} {a b : Bytes}
    (hf : Writes f a) (hg : Writes g b) : Writes (fun w => f w >>= g) (a ++ b) := by
  intro w done room h
  have hroom : w.Holds done (a.length + (b.length + room)) := by
    rwa [List.length_append, Nat.add_assoc] at h
  obtain ⟨w₁, h₁, hh₁⟩ := hf w done _ hroom
  obtain ⟨w₂, h₂, hh₂⟩ := hg w₁ _ _ hh₁
  refine ⟨w₂, ?_, by rwa [List.append_assoc] at hh₂⟩
  dsimp only
  rw [h₁]
  exact h₂

lemma writes_putString (s : Bytes) : Writes (fun w => putString w s) (lp s) :=
  (writes_copyBytes (leBytes 4 s.length)).bind (writes_copyBytes s)

lemma writes_foldlM {β : Type} {f : Writer UInt8 → β → Go (Writer UInt8)} {g : β → Bytes}
    (hf : ∀ x, Writes (fun w => f w x) (g x)) (xs : List β) :
    Writes (fun w => xs.foldlM f w) (xs.flatMap g) := by
  induction xs with
  | nil => exact writes_pure
  | cons x xs ih =>
    simp only [List.foldlM_cons, List.flatMap_cons]
    exact (hf x).bind ih

lemma writes_putEntry (e : MDEntry) : Writes (fun w => putEntry w e) (entryBytes e) := by
  have h := (writes_putString e.1).bind
    ((writes_copyBytes [UInt8.ofNat e.2.length]).bind (writes_foldlM writes_putString e.2))
  exact h

lemma writes_putMetadata (order : List MDEntry) :
    Writes (putMetadata order (metaBytes order).length) (metaBytes order) := by
  by_cases h : 0 < (metaBytes order).length
  · have hf : putMetadata order (metaBytes order).length = fun w => order.foldlM putEntry w := by
      funext w
      exact if_pos h
    rw [hf]
    exact writes_foldlM writes_putEntry order
  · have hnil : metaBytes order = [] := List.length_eq_zero_iff.mp (by omega)
    rw [hnil]
    exact writes_pure

lemma writes_putPayload (payload : Bytes) : Writes (putPayload payload) (lp payload) := by
  refine (writes_copyBytes (leBytes 4 payload.length)).bind ?_
  by_cases h : 0 < payload.length
  · simp only [h, if_true]
    exact writes_copyBytes payload
  · have hnil : payload = [] := List.length_eq_zero_iff.mp (by omega)
    rw [hnil]
    exact writes_pure

/-- The data `Encode` puts behind the header, for the payload it chose. -/
def encodedBody (m : Message) (order : List MDEntry) (payload : Bytes) : Bytes :=
  bodyBytes m.serviceName m.serviceMethod (metaBytes order) payload

/-- The whole write pass appends one frame. -/
lemma writes_writeFrame (m : Message) (order : List MDEntry) (header : Header) (payload : Bytes) :
    Writes (m.writeFrame order (metaBytes order).length (encodedBody m order payload).length
      header payload) (frameBytes header (encodedBody m order payload)) := by
  have h := (writes_copyBytes header.toBytes).bind <|
    (writes_copyBytes (leBytes 4 (encodedBody m order payload).length)).bind <|
    (writes_putString m.serviceName).bind <| (writes_putString m.serviceMethod).bind <|
    (writes_copyBytes (leBytes 4 (metaBytes order).length)).bind <|
    (writes_putMetadata order).bind (writes_putPayload payload)
  have hframe : frameBytes header (encodedBody m order payload) =
      header.toBytes ++ (leBytes 4 (encodedBody m order payload).length ++ (lp m.serviceName ++
        (lp m.serviceMethod ++ (leBytes 4 (metaBytes order).length ++ (metaBytes order ++
          lp payload))))) := by
    simp only [frameBytes, lp, encodedBody, bodyBytes, List.append_assoc]
  rw [hframe]
  exact h

/-- The data length of a message whose payload part is `payload`. -/
def bodyLength (m : Message) (sizeOrder : List MDEntry) (payload : Bytes) : Nat :=
  (4 + m.serviceName.length) + (4 + m.serviceMethod.length) + (4 + metaSize sizeOrder) +
    (4 + payload.length)

/-- The data length `Encode` computes before the walk, from the size pass. -/
def encodedLength (E : Env) (m : Message) (sizeOrder : List MDEntry) : Nat :=
  bodyLength m sizeOrder (m.choosePayload E).2

lemma metaSize_sizeOrder {m : Message} (c : EncodeChoice m.metadata) :
    metaSize c.sizeOrder = (metaBytes c.writeOrder).length := by
  rw [← metaSize_eq]
  exact metaSize_perm (c.size_perm.trans c.write_perm.symm)

/-- The two passes may walk the map in different orders. -/
lemma bodyLength_of_perm (m : Message) {sizeOrder writeOrder : List MDEntry}
    (h : sizeOrder.Perm writeOrder) (payload : Bytes) :
    bodyLength m sizeOrder payload = (encodedBody m writeOrder payload).length := by
  rw [bodyLength, metaSize_perm h, metaSize_eq]
  simp only [encodedBody, bodyBytes, List.length_append, length_lp]
  omega

lemma bodyLength_eq (m : Message) (c : EncodeChoice m.metadata) (payload : Bytes) :
    bodyLength m c.sizeOrder payload = (encodedBody m c.writeOrder payload).length :=
  bodyLength_of_perm m (c.size_perm.trans c.write_perm.symm) payload

lemma length_bodyFrame (m : Message) (c : EncodeChoice m.metadata) (header : Header)
    (payload : Bytes) :
    (frameBytes header (encodedBody m c.writeOrder payload)).length =
      11 + 4 + bodyLength m c.sizeOrder payload := by
  rw [frameBytes, List.length_append, length_toBytes, length_lp, bodyLength_eq]
  omega

/-- The write pass fills a buffer of the computed length with the frame. -/
lemma exists_writeFrame (m : Message) (c : EncodeChoice m.metadata) (header : Header)
    (payload : Bytes) :
    ∃ w, m.writeFrame c.writeOrder (metaSize c.sizeOrder) (bodyLength m c.sizeOrder payload)
        header payload ⟨c.buffer (11 + 4 + bodyLength m c.sizeOrder payload), 0⟩ = .ok w ∧
      w.Holds (frameBytes header (encodedBody m c.writeOrder payload)) 0 := by
  have hstart := Writer.holds_start (c.buffer (11 + 4 + bodyLength m c.sizeOrder payload))
  rw [c.length_buffer, ← length_bodyFrame m c header, ← Nat.add_zero (List.length _)] at hstart
  obtain ⟨w, hw, hholds⟩ := writes_writeFrame m c.writeOrder header payload _ _ _ hstart
  rw [← bodyLength_eq, ← metaSize_sizeOrder, Nat.add_zero, length_bodyFrame] at hw
  exact ⟨w, hw, hholds⟩

/-- Encode neither panics nor depends on the recycled buffer: it returns the frame of the
message in the write pass's order, with the header and payload of the compression decision. -/
theorem encodeWith_eq (table : CompressorTable) (m : Message) (c : EncodeChoice m.metadata) :
    m.encodeWith table c = .ok (frameBytes (m.choosePayloadWith table).1
      (encodedBody m c.writeOrder (m.choosePayloadWith table).2),
        (m.choosePayloadWith table).1) := by
  obtain ⟨w, hw, hholds⟩ :=
    exists_writeFrame m c (m.choosePayloadWith table).1 (m.choosePayloadWith table).2
  rw [← hholds.full]
  exact congrArg (fun x => x >>= fun w => pure (w.buf, (m.choosePayloadWith table).1)) hw

theorem encode_eq (E : Env) (m : Message) (c : EncodeChoice m.metadata) :
    m.encode E c = .ok (frameBytes (m.choosePayload E).1
      (encodedBody m c.writeOrder (m.choosePayload E).2), (m.choosePayload E).1) :=
  encodeWith_eq (compressors E) m c

end Zrpc.Proofs
