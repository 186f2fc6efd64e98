import Zrpc.Metadata
import Zrpc.Lib.Writer

/-!
# The wire format (`protocol/message.go`, `protocol/compress.go`)

A frame is an 11-byte header, a 4-byte data length and the data: service name, method name,
metadata and payload, each behind a 4-byte length.
-/

namespace Zrpc

open Zrpc.Lib

def magicNumber : UInt8 := 0x26

inductive MessageType
  | request
  | response
  deriving DecidableEq, Repr

inductive MessageStatusType
  | normal
  | error
  deriving DecidableEq, Repr

inductive CompressType
  | none
  | gzip
  deriving DecidableEq, Repr

def MessageType.toByte : MessageType → UInt8
  | .request => 0
  | .response => 1

def MessageType.ofByte (b : UInt8) : MessageType := if b = 0 then .request else .response

def MessageStatusType.toByte : MessageStatusType → UInt8
  | .normal => 0
  | .error => 1

def MessageStatusType.ofByte (b : UInt8) : MessageStatusType := if b = 0 then .normal else .error

def CompressType.toByte : CompressType → UInt8
  | .none => 0
  | .gzip => 1

def CompressType.ofByte (b : UInt8) : CompressType := if b = 0 then .none else .gzip

/-- The eleven header bytes: magic, version, flags, and the sequence number in bytes 3 to 10. -/
structure Header where
  magic : UInt8
  version : UInt8
  flags : UInt8
  seq : UInt64
  deriving DecidableEq, Repr

/-- Go's `a &^ b`. -/
def andNot (a b : UInt8) : UInt8 := a &&& ~~~b

namespace Header

/-- The header as it stands in a frame. -/
def toBytes (h : Header) : Bytes :=
  h.magic :: h.version :: h.flags :: leBytes 8 h.seq.toNat

/-- `copy(m.Header[:], headerBuf)` from an 11-byte buffer. -/
def ofBytes (b : Bytes) : Header :=
  ⟨b.getD 0 0, b.getD 1 0, b.getD 2 0, UInt64.ofNat (leNat (b.drop 3))⟩

def checkMagicNumber (h : Header) : Bool := h.magic == magicNumber

def setMessageType (h : Header) (mt : MessageType) : Header :=
  { h with flags := andNot h.flags 0x80 ||| (mt.toByte <<< 7) }

def getMessageType (h : Header) : MessageType := .ofByte ((h.flags &&& 0x80) >>> 7)

def setMessageStatusType (h : Header) (mst : MessageStatusType) : Header :=
  { h with flags := andNot h.flags 0x40 ||| (mst.toByte <<< 6) }

def getMessageStatusType (h : Header) : MessageStatusType := .ofByte ((h.flags &&& 0x40) >>> 6)

def isHeartBeat (h : Header) : Bool := h.flags &&& 0x20 == 0x20

def setHeartBeat (h : Header) (hb : Bool) : Header :=
  { h with flags := if hb then h.flags ||| 0x20 else andNot h.flags 0x20 }

def setCompressType (h : Header) (ct : CompressType) : Header :=
  { h with flags := andNot h.flags 0x10 ||| (ct.toByte <<< 4) }

def getCompressType (h : Header) : CompressType := .ofByte ((h.flags &&& 0x10) >>> 4)

def setSeq (h : Header) (seq : UInt64) : Header := { h with seq := seq }

end Header

structure Message where
  header : Header
  serviceName : GoString
  serviceMethod : GoString
  metadata : MD
  payload : Bytes

def newMessage : Message := ⟨⟨magicNumber, 0, 0, 0⟩, [], [], ∅, []⟩

/-- `Clone` keeps the header apart from the compress bit, and the names. -/
def Message.clone (m : Message) : Message :=
  { newMessage with
    header := m.header.setCompressType .none
    serviceName := m.serviceName
    serviceMethod := m.serviceMethod }

/-! ### Compression -/

def compressThreshold : Nat := 1024

structure Compressor where
  zip : Bytes → Except GoString Bytes
  unzip : Bytes → Except GoString Bytes

/-- `zip` and `unzip` of `protocol/util.go`. -/
def zip (E : Env) (data : Bytes) : Except GoString Bytes :=
  if data.length = 0 then .ok [] else E.gzipWrite data

def unzip (E : Env) (data : Bytes) : Except GoString Bytes :=
  if data.length = 0 then .ok [] else E.gzipRead data

/-- `GzipCompressor`: short, failing and incompressible input is handed back unchanged. -/
def gzipCompressor (E : Env) : Compressor where
  zip data :=
    if data.length < compressThreshold then .ok data
    else match zip E data with
      | .error _ => .ok data
      | .ok compressed => if data.length ≤ compressed.length then .ok data else .ok compressed
  unzip data := if data.length = 0 then .ok data else unzip E data

def rawDataCompressor : Compressor := ⟨.ok, .ok⟩

/-- The map `protocol.Compressors`. It is exported, so that any compressor may be registered. -/
abbrev CompressorTable := CompressType → Option Compressor

/-- The table as the package fills it. -/
def compressors (E : Env) : CompressorTable
  | .none => some rawDataCompressor
  | .gzip => some (gzipCompressor E)

/-! ### Encode -/

/-- What Go leaves open in one call of `Encode`: the order in which the size pass and the write
pass meet the metadata keys, and what the pooled buffer held before. -/
structure EncodeChoice (md : MD) where
  sizeOrder : List MDEntry
  writeOrder : List MDEntry
  size_perm : sizeOrder.Perm md.entries
  write_perm : writeOrder.Perm md.entries
  buffer : Nat → Bytes
  length_buffer : ∀ n, (buffer n).length = n

/-- The entries in list order and a zeroed buffer. -/
def EncodeChoice.plain (md : MD) : EncodeChoice md where
  sizeOrder := md.entries
  writeOrder := md.entries
  size_perm := .refl _
  write_perm := .refl _
  buffer n := List.replicate n 0
  length_buffer _ := List.length_replicate

/-- The size pass: `metaL`. -/
def metaSize (order : List MDEntry) : Nat :=
  order.foldl (fun metaL e =>
    e.2.foldl (fun metaL v => metaL + (4 + v.length)) (metaL + (4 + e.1.length + 1))) 0

/-- The compression decision of `Encode`: the header it leaves behind and the payload it writes. -/
def Message.choosePayloadWith (table : CompressorTable) (m : Message) : Header × Bytes :=
  let payloadSize := m.payload.length
  if m.header.getCompressType ≠ .none ∧ compressThreshold ≤ payloadSize then
    match table m.header.getCompressType with
    | none => (m.header.setCompressType .none, m.payload)
    | some compressor =>
      match compressor.zip m.payload with
      | .error _ => (m.header.setCompressType .none, m.payload)
      | .ok payload =>
        if payloadSize ≤ payload.length then (m.header.setCompressType .none, m.payload)
        else (m.header, payload)
  else if m.header.getCompressType ≠ .none ∧ payloadSize < compressThreshold then
    (m.header.setCompressType .none, m.payload)
  else (m.header, m.payload)

def Message.choosePayload (E : Env) (m : Message) : Header × Bytes :=
  m.choosePayloadWith (compressors E)

/-- `copy((*buf)[offset:offset+len(bs)], bs)` with the following `offset += len(bs)`. -/
def copyBytes (w : Writer UInt8) (bs : Bytes) : Go (Writer UInt8) :=
  match w.write bs with
  | some w' => .ok w'
  | none => .error .panic

/-- `binary.LittleEndian.PutUint32((*buf)[offset:offset+4], uint32(n))` and `offset += 4`. -/
def putUint32 (w : Writer UInt8) (n : Nat) : Go (Writer UInt8) := copyBytes w (leBytes 4 n)

/-- A string behind its length. -/
def putString (w : Writer UInt8) (s : Bytes) : Go (Writer UInt8) := do
  let w ← putUint32 w s.length
  copyBytes w s

/-- One round of the metadata loop. -/
def putEntry (w : Writer UInt8) (e : MDEntry) : Go (Writer UInt8) := do
  let w ← putString w e.1
  let w ← copyBytes w [UInt8.ofNat e.2.length]
  e.2.foldlM putString w

/-- The metadata loop, under its guard. -/
def putMetadata (order : List MDEntry) (metaL : Nat) (w : Writer UInt8) : Go (Writer UInt8) :=
  if 0 < metaL then order.foldlM putEntry w else .ok w

/-- The payload behind its length; an empty payload is not copied. -/
def putPayload (payload : Bytes) (w : Writer UInt8) : Go (Writer UInt8) := do
  let w ← putUint32 w payload.length
  if 0 < payload.length then copyBytes w payload else .ok w

/-- The write pass of `Encode`. -/
def Message.writeFrame (m : Message) (order : List MDEntry) (metaL dataL : Nat) (header : Header)
    (payload : Bytes) (w : Writer UInt8) : Go (Writer UInt8) := do
  let w ← copyBytes w header.toBytes
  let w ← putUint32 w dataL
  let w ← putString w m.serviceName
  let w ← putString w m.serviceMethod
  let w ← putUint32 w metaL
  let w ← putMetadata order metaL w
  putPayload payload w

/-- `Encode`: the frame, and the header it leaves in the message. -/
def Message.encodeWith (table : CompressorTable) (m : Message) (c : EncodeChoice m.metadata) :
    Go (Bytes × Header) := do
  let metaL := metaSize c.sizeOrder
  let (header, payload) := m.choosePayloadWith table
  let dataL := (4 + m.serviceName.length) + (4 + m.serviceMethod.length) + (4 + metaL) +
    (4 + payload.length)
  let totalL := 11 + 4 + dataL
  let w ← m.writeFrame c.writeOrder metaL dataL header payload ⟨c.buffer totalL, 0⟩
  return (w.buf, header)

def Message.encode (E : Env) (m : Message) (c : EncodeChoice m.metadata) : Go (Bytes × Header) :=
  m.encodeWith (compressors E) c

/-! ### Decode -/

/-- A part `data[start : start+length]` of the frame data. -/
structure Span where
  start : Nat
  length : Nat
  deriving DecidableEq, Repr

/-- `SliceByteToString(data[start : start+length])`. -/
def Span.text (data : Bytes) (s : Span) : GoString := (data.drop s.start).take s.length

/-- The check-read-check block by which `decodeMessageData` takes one length-prefixed part, with
the two error texts of that part. Returns the part and the next offset. -/
def field (noLength noData : String) (data : Bytes) (limit offset : Nat) : Go (Span × Nat) := do
  if limit < offset + 4 then fail (str noLength)
  let n ← uint32At data offset
  let offset := offset + 4
  if limit < offset + n then fail (str noData)
  let _ ← slice data offset (offset + n)
  return (⟨offset, n⟩, offset + n)

def serviceNameField : Bytes → Nat → Nat → Go (Span × Nat) :=
  field "invalid message format: insufficient data for service name length"
    "invalid message format: insufficient data for service name"

def serviceMethodField : Bytes → Nat → Nat → Go (Span × Nat) :=
  field "invalid message format: insufficient data for service method length"
    "invalid message format: insufficient data for service method"

def keyField : Bytes → Nat → Nat → Go (Span × Nat) :=
  field "invalid metadata format: insufficient data for key length"
    "invalid metadata format: insufficient data for key"

def valueField : Bytes → Nat → Nat → Go (Span × Nat) :=
  field "invalid metadata format: insufficient data for value length"
    "invalid metadata format: insufficient data for value"

def payloadField : Bytes → Nat → Nat → Go (Span × Nat) :=
  field "invalid message format: insufficient data for payload length"
    "invalid message format: insufficient data for payload"

/-- The value loop of one metadata entry. -/
def parseValues (data : Bytes) (metaEnd : Nat) : Nat → Nat → Go (List Span × Nat)
  | 0, offset => .ok ([], offset)
  | count + 1, offset => do
    let (value, offset) ← valueField data metaEnd offset
    let (values, offset) ← parseValues data metaEnd count offset
    return (value :: values, offset)

/-- One round of the metadata loop. -/
def parseEntry (data : Bytes) (metaEnd offset : Nat) : Go ((Span × List Span) × Nat) := do
  let (key, offset) ← keyField data metaEnd offset
  if metaEnd ≤ offset then
    fail (str "invalid metadata format: insufficient data for value count")
  let valueCount ← index data offset
  let (values, offset) ← parseValues data metaEnd valueCount.toNat (offset + 1)
  return ((key, values), offset)

/-- The loop `for offset < metaEnd`. Every round moves the offset, so `metaEnd - offset` rounds
are enough; the fuel is never used up (`parseMeta_fuel`). -/
def parseMeta (data : Bytes) (metaEnd : Nat) : Nat → Nat → Go (List (Span × List Span) × Nat)
  | fuel, offset =>
    if metaEnd ≤ offset then .ok ([], offset)
    else match fuel with
      | 0 => .error .panic
      | fuel + 1 => do
        let (entry, offset) ← parseEntry data metaEnd offset
        let (entries, offset) ← parseMeta data metaEnd fuel offset
        return (entry :: entries, offset)

/-- Where the parts of a message lie in the frame data. -/
structure Layout where
  service : Span
  method : Span
  entries : List (Span × List Span)
  payload : Span
  deriving DecidableEq, Repr

/-- The offset walk of `decodeMessageData`. -/
def parseData (data : Bytes) : Go Layout := do
  let dataLen := data.length
  let (service, offset) ← serviceNameField data dataLen 0
  let (method, offset) ← serviceMethodField data dataLen offset
  if dataLen < offset + 4 then
    fail (str "invalid message format: insufficient data for metadata length")
  let metaLen ← uint32At data offset
  let offset := offset + 4
  if 0 < metaLen ∧ dataLen < offset + metaLen then
    fail (str "invalid message format: insufficient data for metadata")
  let metaEnd := offset + metaLen
  let (entries, offset) ← parseMeta data metaEnd metaLen offset
  let (payload, _) ← payloadField data dataLen offset
  return ⟨service, method, entries, payload⟩

/-- The `Append` calls of the metadata loop, on a cleared map. -/
def Layout.metadata (E : Env) (data : Bytes) (entries : List (Span × List Span)) : MD :=
  entries.foldl (fun md e =>
    e.2.foldl (fun md v => md.append E (e.1.text data) [v.text data]) md) ∅

def errUnsupportedCompressor : GoString := str "unsupported compressor"

/-- The payload block of `decodeMessageData`. -/
def decodePayloadWith (table : CompressorTable) (header : Header) (payload : Bytes) : Go Bytes :=
  if 0 < payload.length then
    if header.getCompressType ≠ .none then
      match table header.getCompressType with
      | none => fail errUnsupportedCompressor
      | some compressor =>
        match compressor.unzip payload with
        | .ok p => .ok p
        | .error e => fail e
    else .ok payload
  else .ok []

def decodePayload (E : Env) (header : Header) (payload : Bytes) : Go Bytes :=
  decodePayloadWith (compressors E) header payload

def decodeMessageDataWith (E : Env) (table : CompressorTable) (header : Header) (data : Bytes) :
    Go Message := do
  let layout ← parseData data
  let payload ← decodePayloadWith table header (layout.payload.text data)
  return ⟨header, layout.service.text data, layout.method.text data,
    Layout.metadata E data layout.entries, payload⟩

def decodeMessageData (E : Env) (header : Header) (data : Bytes) : Go Message :=
  decodeMessageDataWith E (compressors E) header data

/-- `Decode` on a fresh message: the outcome, and the reader afterwards. The contents of the
receiving message do not matter, since every field is set before `Decode` returns nil. -/
def decodeWith (E : Env) (table : CompressorTable) (maxLength : Int) (r : Reader) :
    Go Message × Reader :=
  match r.readFull 11 with
  | (.error e, r) => (.error e, r)
  | (.ok headerBuf, r) =>
    let header := Header.ofBytes headerBuf
    if header.checkMagicNumber = false then
      (fail (str "wrong magic number: " ++ str (toString header.magic.toNat)), r)
    else match r.readFull 4 with
      | (.error e, r) => (.error e, r)
      | (.ok lenData, r) =>
        let dataLen := leNat lenData
        if 0 < maxLength ∧ maxLength < dataLen then
          (fail (str "the max receive message length is " ++ str (toString maxLength) ++
            str ", but receive " ++ str (toString dataLen)), r)
        else match r.readFull dataLen with
          | (.error e, r) => (.error e, r)
          | (.ok data, r) => (decodeMessageDataWith E table header data, r)

def decode (E : Env) (maxLength : Int) (r : Reader) : Go Message × Reader :=
  decodeWith E (compressors E) maxLength r

end Zrpc
