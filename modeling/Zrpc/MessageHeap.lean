import Zrpc.BufferPool
import Zrpc.Lib.Exec
import Zrpc.Message

/-!
# Messages over shared buffers (`protocol/message.go`, `protocol/util.go`)

`Decode` makes the names and the metadata of a message as views of the frame buffer. A frame of
more than 1024 bytes is read into a pooled buffer that goes back to the pool when `Decode`
returns. Around it any goroutine may get buffers, write to them and put them back, at any time and
as often as it likes; the model does not even ask that it stops writing after a `Put`.
-/

namespace Zrpc

/-- `Decode` gave the frame memory of its own: a buffer that does not come from a pool, or one that
the pool does not take back. -/
def ownFrame (dataLen : Nat) : Bool := dataLen ≤ 1024 || maxSize < dataLen

/-- A Go string: a view made by `SliceByteToString`, or a string with memory of its own. -/
inductive GoText
  | view (block : Nat) (span : Span)
  | owned (s : GoString)

def GoText.read (h : Heap) : GoText → GoString
  | .view block span => span.text (h.content block)
  | .owned s => s

/-- `strings.ToLower` of a view; a text it does not change is returned as it is. -/
def lowerView (E : Env) (h : Heap) (block : Nat) (span : Span) : GoText :=
  let s := span.text (h.content block)
  if E.toLower s = s then .view block span else .owned (E.toLower s)

/-- A message that `Decode` has returned: its texts, and what they read as at that moment. -/
structure Returned where
  dataLen : Nat
  serviceName : GoText
  serviceMethod : GoText
  metadata : List (GoText × List GoText)
  decoded : Message

/-- The metadata map as its keys and values read now. -/
def Returned.readMetadata (h : Heap) (d : Returned) : MD :=
  d.metadata.foldl (fun md e => e.2.foldl (fun md v => md.push (e.1.read h) [v.read h]) md) ∅

/-- Names, keys and values all read as the bytes that were decoded. -/
structure Returned.ReadsAsDecoded (h : Heap) (d : Returned) : Prop where
  serviceName : d.serviceName.read h = d.decoded.serviceName
  serviceMethod : d.serviceMethod.read h = d.decoded.serviceMethod
  metadata : d.readMetadata h = d.decoded.metadata

/-- Who may use a buffer: its caller, or a `Decode` that is reading into it. -/
inductive Owner
  | caller
  | decoder
  | finished
  deriving DecidableEq

/-- A slice `(*buf)[0:len]` of a block. -/
structure Handle where
  block : Nat
  len : Nat
  owner : Owner

structure HeapState where
  heap : Heap
  handles : List Handle
  returned : List Returned

def HeapState.init : HeapState := ⟨.empty, [], []⟩

inductive HeapAction
  | get (size : Nat) (choice : Option Nat)
  | alloc (cap : Nat)
  | put (handle : Nat)
  | write (handle offset : Nat) (bs : Bytes)
  | encode (m : Message) (c : EncodeChoice m.metadata) (choice : Option Nat)
  | decodeBegin (dataLen : Nat) (choice : Option Nat)
  | decodeEnd (handle : Nat) (header : Header) (data : Bytes)
  | decodeShort (handle : Nat) (data : Bytes)

namespace HeapState

/-- The buffer a `Get` delivers, filled with `bs`; a `Get` that panics leaves none. -/
def getBuffer (s : HeapState) (size : Nat) (choice : Option Nat) (owner : Owner) (bs : Bytes) :
    HeapState :=
  match s.heap.get size choice with
  | (h, .ok b) => { s with heap := h.write b 0 bs, handles := s.handles ++ [⟨b, size, owner⟩] }
  | (h, .error _) => { s with heap := h }

/-- A buffer from `make`. -/
def makeBuffer (s : HeapState) (cap : Nat) (owner : Owner) : HeapState :=
  let (h, b) := s.heap.alloc cap
  { s with heap := h, handles := s.handles ++ [⟨b, cap, owner⟩] }

/-- The end of `Decode` for the buffer of handle `i`: the bytes are in, and a pooled buffer is
released. -/
def release (s : HeapState) (i : Nat) (h : Handle) (data : Bytes) : HeapState :=
  let heap := s.heap.write h.block 0 data
  { s with
    heap := if h.len ≤ 1024 then heap else heap.put h.block
    handles := s.handles.set i { h with owner := .finished } }

end HeapState

/-- What `decodeMessageData` leaves in the message: views of the block. -/
def returnedMessage (E : Env) (h : Heap) (block : Nat) (dataLen : Nat) (layout : Layout)
    (decoded : Message) : Returned :=
  ⟨dataLen, .view block layout.service, .view block layout.method,
    layout.entries.map (fun e => (lowerView E h block e.1, e.2.map (.view block))), decoded⟩

def heapStep (E : Env) (s : HeapState) : HeapAction → Option HeapState
  | .get size choice => some (s.getBuffer size choice .caller [])
  | .alloc cap => some (s.makeBuffer cap .caller)
  | .put i =>
    match s.handles[i]? with
    | some ⟨b, _, .caller⟩ => some { s with heap := s.heap.put b }
    | _ => none
  | .write i offset bs =>
    match s.handles[i]? with
    | some ⟨b, len, .caller⟩ =>
      if offset + bs.length ≤ len then some { s with heap := s.heap.write b offset bs } else none
    | _ => none
  | .encode m c choice =>
    match m.encode E c with
    | .ok (frame, _) => some (s.getBuffer frame.length choice .caller frame)
    | .error _ => none
  | .decodeBegin dataLen choice =>
    if dataLen ≤ 1024 then some (s.makeBuffer dataLen .decoder)
    else some (s.getBuffer dataLen choice .decoder [])
  | .decodeEnd i header data =>
    match s.handles[i]? with
    | some ⟨b, len, .decoder⟩ =>
      if data.length = len then
        let s' := s.release i ⟨b, len, .decoder⟩ data
        match parseData data, decodeMessageData E header data with
        | .ok layout, .ok m =>
          some { s' with returned := s'.returned ++
            [returnedMessage E (s.heap.write b 0 data) b len layout m] }
        | _, _ => some s'
      else none
    | _ => none
  | .decodeShort i data =>
    match s.handles[i]? with
    | some ⟨b, len, .decoder⟩ =>
      if data.length < len then some (s.release i ⟨b, len, .decoder⟩ data) else none
    | _ => none

end Zrpc
