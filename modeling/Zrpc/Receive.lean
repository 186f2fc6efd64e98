import Zrpc.Message

/-!
# Decoding into a message (`Message.Decode`, `Message.decodeMessageData`)

`Decode` fills the message it is called on, which may have held another message before. It sets the
fields one after the other; an error leaves behind what has been set so far.
-/

namespace Zrpc

open Zrpc.Lib

/-- A message that is decoded into. Its metadata map may be nil. -/
structure Receiver where
  header : Header
  serviceName : GoString
  serviceMethod : GoString
  metadata : Option MD
  payload : Bytes

abbrev Receive := ExceptT Fault (StateM Receiver)

namespace Receiver

/-- The message as a receiver. -/
def ofMessage (m : Message) : Receiver :=
  ⟨m.header, m.serviceName, m.serviceMethod, some m.metadata, m.payload⟩

/-- A nil map becomes an empty one; otherwise every key that `range` delivers is deleted. -/
def clearMetadata : Receive Unit :=
  modify fun m => match m.metadata with
    | none => { m with metadata := some ∅ }
    | some md => { m with metadata := some (md.entries.foldl (fun md e => md.erase e.1) md) }

/-- `m.Metadata.Append(key, value)`; the assignment to an element of a nil map panics. -/
def appendMetadata (E : Env) (key value : GoString) : Receive Unit := do
  match (← get).metadata with
  | none => throw .panic
  | some md => modify fun m => { m with metadata := some (md.append E key [value]) }

/-- The value loop of one metadata entry. -/
def receiveValues (E : Env) (data : Bytes) (metaEnd : Nat) (key : GoString) :
    Nat → Nat → Receive Nat
  | 0, offset => return offset
  | count + 1, offset => do
    let (value, offset) ← valueField data metaEnd offset
    appendMetadata E key (value.text data)
    receiveValues E data metaEnd key count offset

/-- One round of the metadata loop. -/
def receiveEntry (E : Env) (data : Bytes) (metaEnd offset : Nat) : Receive Nat := do
  let (key, offset) ← keyField data metaEnd offset
  if metaEnd ≤ offset then
    (fail (str "invalid metadata format: insufficient data for value count") : Go Unit)
  let valueCount ← index data offset
  receiveValues E data metaEnd (key.text data) valueCount.toNat (offset + 1)

/-- The loop `for offset < metaEnd`, with the fuel of `parseMeta`. -/
def receiveMeta (E : Env) (data : Bytes) (metaEnd : Nat) : Nat → Nat → Receive Nat
  | fuel, offset =>
    if metaEnd ≤ offset then return offset
    else match fuel with
      | 0 => throw .panic
      | fuel + 1 => do
        let offset ← receiveEntry E data metaEnd offset
        receiveMeta E data metaEnd fuel offset

/-- The offset walk up to the payload. -/
def receiveParts (E : Env) (data : Bytes) : Receive Span := do
  let dataLen := data.length
  let (service, offset) ← serviceNameField data dataLen 0
  modify fun m => { m with serviceName := service.text data }
  let (method, offset) ← serviceMethodField data dataLen offset
  modify fun m => { m with serviceMethod := method.text data }
  if dataLen < offset + 4 then
    (fail (str "invalid message format: insufficient data for metadata length") : Go Unit)
  let metaLen ← uint32At data offset
  let offset := offset + 4
  clearMetadata
  if 0 < metaLen ∧ dataLen < offset + metaLen then
    (fail (str "invalid message format: insufficient data for metadata") : Go Unit)
  let metaEnd := offset + metaLen
  let offset ← receiveMeta E data metaEnd metaLen offset
  let (payload, _) ← payloadField data dataLen offset
  return payload

/-- The payload block. The failing `Unzip` has already set the payload to nil. -/
def receivePayload (E : Env) (payload : Bytes) : Receive Unit := do
  if 0 < payload.length then
    modify fun m => { m with payload := payload }
    let m ← get
    if m.header.getCompressType ≠ .none then
      match compressors E m.header.getCompressType with
      | none => (fail errUnsupportedCompressor : Go Unit)
      | some compressor =>
        match compressor.unzip m.payload with
        | .ok p => modify fun m => { m with payload := p }
        | .error e =>
          modify fun m => { m with payload := [] }
          (fail e : Go Unit)
  else modify fun m => { m with payload := [] }

def decodeMessageData (E : Env) (data : Bytes) : Receive Unit := do
  let payload ← receiveParts E data
  receivePayload E (payload.text data)

/-- What the deferred `recover` makes of the outcome: a panic becomes the nil error. -/
def recovered : Go Unit → Go Unit
  | .error .panic => .ok ()
  | outcome => outcome

/-- `Decode`: the outcome, the message afterwards and the reader afterwards. -/
def decode (E : Env) (maxLength : Int) (m : Receiver) (r : Reader) : Go Unit × Receiver × Reader :=
  match r.readFull 11 with
  | (.error e, r) => (recovered (.error e), m, r)
  | (.ok headerBuf, r) =>
    let m := { m with header := Header.ofBytes headerBuf }
    if m.header.checkMagicNumber = false then
      (recovered (fail (str "wrong magic number: " ++ str (toString m.header.magic.toNat))), m, r)
    else match r.readFull 4 with
      | (.error e, r) => (recovered (.error e), m, r)
      | (.ok lenData, r) =>
        let dataLen := leNat lenData
        if 0 < maxLength ∧ maxLength < dataLen then
          (recovered (fail (str "the max receive message length is " ++ str (toString maxLength) ++
            str ", but receive " ++ str (toString dataLen))), m, r)
        else match r.readFull dataLen with
          | (.error e, r) => (recovered (.error e), m, r)
          | (.ok data, r) =>
            let (outcome, m) := (decodeMessageData E data).run m
            (recovered outcome, m, r)

end Receiver

end Zrpc
