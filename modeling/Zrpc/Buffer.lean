import Zrpc.BufferPool
import Zrpc.Lib.Exec
import Zrpc.Lib.ObjectPool
import Zrpc.Lib.Tally

/-!
# Reference-counted buffers (`mem/buffer.go`)

The structs of type `buffer` and their counters live in two object pools. An origin slice is named
by the number of the `NewBuffer` call that it was given to; what is put back is recorded.
-/

namespace Zrpc

open Zrpc.Lib

def bufferPoolingThreshold : Nat := 1 <<< 10

def isLessBufferPoolThreshold (size : Nat) : Bool := size ≤ bufferPoolingThreshold

/-- The struct `buffer`. Its `data` is the part of the origin slice from `off` on, of length `len`. -/
structure BufferStruct where
  originData : Option Nat
  off : Nat
  len : Nat
  refs : Option Nat
  pool : Bool
  deriving DecidableEq

/-- The struct that `new(buffer)` makes and that `Free` leaves behind. -/
def BufferStruct.zero : BufferStruct := ⟨none, 0, 0, none, false⟩

structure BufferHeap where
  bufferObjectPool : ObjectPool BufferStruct
  refObjectPool : ObjectPool Int
  origins : List Bytes
  /-- The origin slices put into their pools, in order. -/
  returned : List Nat

/-- The implementations of the interface `Buffer`. -/
inductive Buffer
  | buffer (b : Nat)
  | sliceBuffer (s : Bytes)
  | emptyBuffer
  deriving DecidableEq

namespace BufferHeap

def empty : BufferHeap := ⟨.empty, .empty, [], []⟩

def struct (h : BufferHeap) (b : Nat) : BufferStruct :=
  (h.bufferObjectPool.cells[b]?).getD .zero

def setStruct (h : BufferHeap) (b : Nat) (st : BufferStruct) : BufferHeap :=
  { h with bufferObjectPool := h.bufferObjectPool.set b st }

def origin (h : BufferHeap) (o : Nat) : Bytes := h.origins.getD o []

/-- The bytes of the field `data`. -/
def data (h : BufferHeap) (st : BufferStruct) : Bytes :=
  match st.originData with
  | some o => ((h.origin o).drop st.off).take st.len
  | none => []

def newBuffer (h : BufferHeap) (choice : Option Nat) : BufferHeap × Nat :=
  let (p, b) := h.bufferObjectPool.get .zero choice
  ({ h with bufferObjectPool := p }, b)

def counter (h : BufferHeap) (c : Nat) : Int := (h.refObjectPool.cells[c]?).getD 0

/-- The expression `refs.Add(delta)` of an `atomic.Int32`. -/
def addRefs (h : BufferHeap) (c : Nat) (delta : Int) : BufferHeap :=
  { h with refObjectPool := h.refObjectPool.set c (int32 (h.counter c + delta)) }

/-- `NewBuffer` past its first test: the struct and its counter come out of their pools. -/
def makeBuffer (h : BufferHeap) (data : Bytes) (pool : Bool) (choice refChoice : Option Nat) :
    BufferHeap × Nat :=
  let (h, b) := h.newBuffer choice
  let (p, c) := h.refObjectPool.get 0 refChoice
  let h := { h with refObjectPool := p, origins := h.origins ++ [data] }
  let h := h.setStruct b ⟨some (h.origins.length - 1), 0, data.length, some c, pool⟩
  (h.addRefs c 1, b)

/-- `NewBuffer` for a slice of capacity `cap`, with a pool or with nil. -/
def NewBuffer (h : BufferHeap) (data : Bytes) (cap : Nat) (pool : Bool)
    (choice refChoice : Option Nat) : BufferHeap × Buffer :=
  if !pool && isLessBufferPoolThreshold cap then (h, .sliceBuffer data)
  else
    let (h, b) := h.makeBuffer data pool choice refChoice
    (h, .buffer b)

def readOnlyData (h : BufferHeap) (b : Nat) : Go Bytes :=
  match (h.struct b).refs with
  | none => .error .panic
  | some _ => .ok (h.data (h.struct b))

def ref (h : BufferHeap) (b : Nat) : Go BufferHeap :=
  match (h.struct b).refs with
  | none => .error .panic
  | some c => .ok (h.addRefs c 1)

/-- The case of `Free` in which the counter has reached zero. -/
def recycle (h : BufferHeap) (b c : Nat) : BufferHeap :=
  let st := h.struct b
  { h with
    returned := if st.pool then h.returned ++ st.originData.toList else h.returned
    refObjectPool := h.refObjectPool.put c
    bufferObjectPool := (h.bufferObjectPool.set b .zero).put b }

def free (h : BufferHeap) (b : Nat) : Go BufferHeap :=
  match (h.struct b).refs with
  | none => .error .panic
  | some c =>
    let h := h.addRefs c (-1)
    let refs := h.counter c
    if 0 < refs then .ok h
    else if refs = 0 then .ok (h.recycle b c)
    else .error .panic

/-- `read` into a slice of length `k`: the bytes copied, and whether it returns a nil `Buffer`. -/
def read (h : BufferHeap) (b k : Nat) : Go (BufferHeap × Bytes × Bool) :=
  let st := h.struct b
  match st.refs with
  | none => .error .panic
  | some _ =>
    let n := min k st.len
    let copied := (h.data st).take n
    if n = st.len then do
      let h ← h.free b
      return (h, copied, true)
    else .ok (h.setStruct b { st with off := st.off + n, len := st.len - n }, copied, false)

/-- `split` returns its receiver and the new struct. -/
def split (h : BufferHeap) (b n : Nat) (choice : Option Nat) : Go (BufferHeap × Nat) :=
  let st := h.struct b
  match st.refs with
  | none => .error .panic
  | some c =>
    let (h, right) := (h.addRefs c 1).newBuffer choice
    if n ≤ st.len then
      let h := h.setStruct right { st with off := st.off + n, len := st.len - n }
      .ok (h.setStruct b { st with len := n }, right)
    else .error .panic

end BufferHeap

/-- A reference that a caller has acquired, to the struct `buffer`. -/
structure Reference where
  buffer : Nat
  origin : Nat
  live : Bool
  deriving DecidableEq

structure RefState where
  heap : BufferHeap
  refs : List Reference
  panicked : Bool

/-- Operations on the `i`-th reference; choices are those of the two `sync.Pool`s. -/
inductive RefAction
  | newBuffer (data : Bytes) (cap : Nat) (choice refChoice : Option Nat)
  | ref (i : Nat)
  | free (i : Nat)
  | split (i n : Nat) (choice : Option Nat)
  | read (i k : Nat)

namespace RefState

def start : RefState := ⟨.empty, [], false⟩

def share (o : Nat) (r : Reference) : Nat := if r.live = true ∧ r.origin = o then 1 else 0

/-- The number of references to origin slice `o` that have not been released. -/
def liveCount (refs : List Reference) (o : Nat) : Nat := tally (fun _ => share o) refs

def find (s : RefState) (i : Nat) : Option Reference := s.refs[i]?.filter (·.live)

def release (s : RefState) (i : Nat) (r : Reference) : List Reference :=
  s.refs.set i { r with live := false }

def finish (s : RefState) : Go (BufferHeap × List Reference) → RefState
  | .ok (h, refs) => ⟨h, refs, false⟩
  | .error _ => { s with panicked := true }

/-- Only live references are used, and a `Split` is inside the buffer. -/
def step (s : RefState) (a : RefAction) : Option RefState :=
  if s.panicked then none
  else match a with
    | .newBuffer data cap choice refChoice =>
      match s.heap.NewBuffer data cap true choice refChoice with
      | (h, .buffer b) => some ⟨h, s.refs ++ [⟨b, s.heap.origins.length, true⟩], false⟩
      | _ => none
    | .ref i => (s.find i).map fun r => s.finish do
        let h ← s.heap.ref r.buffer
        return (h, s.refs ++ [r])
    | .free i => (s.find i).map fun r => s.finish do
        let h ← s.heap.free r.buffer
        return (h, s.release i r)
    | .split i n choice => (s.find i).bind fun r =>
        if n ≤ (s.heap.struct r.buffer).len then
          some (s.finish do
            let (h, right) ← s.heap.split r.buffer n choice
            return (h, s.refs ++ [⟨right, r.origin, true⟩]))
        else none
    | .read i k => (s.find i).map fun r => s.finish do
        let (h, _, drained) ← s.heap.read r.buffer k
        return (h, if drained then s.release i r else s.refs)

end RefState

end Zrpc
