import Zrpc.BufferSlice
import Zrpc.Lib.Drain

/-!
# Buffers behind their interface (`mem/buffer.go`, `mem/buffer_slice.go`)

The methods of `Buffer` for its three implementations, the functions that make a `Buffer`, and the
loop that reads one to its end. What a `BufferPool` delivers is a parameter, of any length.
-/

namespace Zrpc

open Zrpc.Lib

namespace Buffer

def readOnlyData (h : BufferHeap) : Buffer → Go Bytes
  | .buffer b => h.readOnlyData b
  | .sliceBuffer s => .ok s
  | .emptyBuffer => .ok []

def ref (h : BufferHeap) : Buffer → Go BufferHeap
  | .buffer b => h.ref b
  | .sliceBuffer _ => .ok h
  | .emptyBuffer => .ok h

/-- The function `Read` into a slice of length `k`: the bytes copied, and the `Buffer` it returns. -/
def read (h : BufferHeap) (k : Nat) : Buffer → Go (BufferHeap × Bytes × Option Buffer)
  | .buffer b => do
    let (h, copied, drained) ← h.read b k
    return (h, copied, if drained then none else some (.buffer b))
  | .sliceBuffer s =>
    let n := min k s.length
    if n = s.length then .ok (h, s.take n, none)
    else .ok (h, s.take n, some (.sliceBuffer (s.drop n)))
  | .emptyBuffer => .ok (h, [], some .emptyBuffer)

/-- The function `Split`. -/
def split (h : BufferHeap) (n : Nat) (choice : Option Nat) :
    Buffer → Go (BufferHeap × Buffer × Buffer)
  | .buffer b => do
    let (h, right) ← h.split b n choice
    return (h, .buffer b, .buffer right)
  | .sliceBuffer s => do
    let left ← slice s 0 n
    let right ← slice s n s.length
    return (h, .sliceBuffer left, .sliceBuffer right)
  | .emptyBuffer => .ok (h, .emptyBuffer, .emptyBuffer)

/-- One turn of a loop that reads into chunks of `k` bytes until `Read` returns nil. -/
def drainStep (k : Nat) (s : BufferHeap × Buffer) : Go (Bytes × (BufferHeap ⊕ BufferHeap × Buffer)) :=
  match s.2.read s.1 k with
  | .error e => .error e
  | .ok (h, copied, none) => .ok (copied, .inl h)
  | .ok (h, copied, some b) => .ok (copied, .inr (h, b))

end Buffer

namespace BufferHeap

/-- `Copy`, with the slice that `pool.Get` delivers. -/
def Copy (h : BufferHeap) (data buf : Bytes) (choice refChoice : Option Nat) : BufferHeap × Buffer :=
  if isLessBufferPoolThreshold data.length then (h, .sliceBuffer data)
  else
    let buf := Heap.overwrite buf 0 (data.take (min buf.length data.length))
    h.NewBuffer buf buf.length true choice refChoice

/-- `MaterializeToBuffer`, with the slice that `pool.Get` delivers. -/
def MaterializeToBuffer (h : BufferHeap) (s : List Buffer) (buf : Bytes)
    (choice refChoice : Option Nat) : Go (BufferHeap × Buffer) :=
  match s with
  | [b] => do
    let h ← b.ref h
    return (h, b)
  | s => do
    let contents ← s.mapM (Buffer.readOnlyData h)
    let sLen := BufferSlice.Len id contents
    if sLen = 0 then return (h, .emptyBuffer)
    let (buf, _) ← BufferSlice.CopyTo id contents buf
    return h.NewBuffer buf buf.length true choice refChoice

end BufferHeap

/-- A `Buffer` that a caller holds. The number is that of the origin slice, if there is one. -/
structure Held where
  buffer : Buffer
  origin : Nat
  deriving DecidableEq

structure BufferState where
  heap : BufferHeap
  held : List Held

/-- Ways to come by a `Buffer`; a `BufferSlice` is made of buffers that are held. -/
inductive BufferAction
  | newBuffer (data : Bytes) (cap : Nat) (pool : Bool) (choice refChoice : Option Nat)
  | copy (data buf : Bytes) (choice refChoice : Option Nat)
  | sliceBuffer (data : Bytes)
  | materialize (indices : List Nat) (buf : Bytes) (choice refChoice : Option Nat)
  | split (i n : Nat) (choice : Option Nat)

namespace BufferState

/-- The state in which one more buffer is held; its origin slice is a new one. -/
def hold (s : BufferState) (made : BufferHeap × Buffer) : BufferState :=
  ⟨made.1, s.held ++ [⟨made.2, s.heap.origins.length⟩]⟩

/-- A call that panics gives no `Buffer`. A single buffer is materialized by one more reference to
its own origin slice. -/
def step (s : BufferState) : BufferAction → Option BufferState
  | .newBuffer data cap pool choice refChoice =>
    some (s.hold (s.heap.NewBuffer data cap pool choice refChoice))
  | .copy data buf choice refChoice => some (s.hold (s.heap.Copy data buf choice refChoice))
  | .sliceBuffer data => some (s.hold (s.heap, .sliceBuffer data))
  | .materialize indices buf choice refChoice =>
    (indices.mapM (fun i => s.held[i]?)).bind fun xs =>
      match s.heap.MaterializeToBuffer (xs.map Held.buffer) buf choice refChoice, xs with
      | .ok (h, b), [x] => some ⟨h, s.held ++ [⟨b, x.origin⟩]⟩
      | .ok made, _ => some (s.hold made)
      | .error _, _ => none
  | .split i n choice =>
    s.held[i]?.bind fun x =>
      match x.buffer.split s.heap n choice with
      | .ok (h, left, right) =>
        some ⟨h, s.held.set i ⟨left, x.origin⟩ ++ [⟨right, x.origin⟩]⟩
      | .error _ => none

end BufferState

end Zrpc
