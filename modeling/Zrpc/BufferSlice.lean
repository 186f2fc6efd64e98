import Zrpc.Buffer

/-!
# Slices of buffers (`mem/buffer_slice.go`)

A `BufferSlice` is a list of values of any type `β` that implements `Buffer`; `content` is what
`ReadOnlyData` gives while a reference is held. The calls of `Ref` and `Free` are recorded. A
`BufferPool` delivers its `i`-th buffer with capacity `cap i`.
-/

namespace Zrpc

universe v

section Slice

variable {β : Type} (content : β → Bytes)

namespace BufferSlice

def Len (s : List β) : Nat := s.foldl (fun length b => length + (content b).length) 0

/-- One turn of the loop of `CopyTo`. -/
def copyStep (dst : Bytes) (off : Nat) (b : β) : Go (Bytes × Nat) := do
  let rest ← slice dst off dst.length
  let n := min rest.length (content b).length
  return (Heap.overwrite dst off ((content b).take n), off + n)

def CopyTo (s : List β) (dst : Bytes) : Go (Bytes × Nat) :=
  s.foldlM (fun (dst, off) b => copyStep content dst off b) (dst, 0)

def Materialize (s : List β) : Go Bytes :=
  let l := Len content s
  if l = 0 then .ok []
  else do
    let (out, _) ← CopyTo content s (List.replicate l 0)
    return out

end BufferSlice

structure SliceReader (β : Type) where
  data : List β
  len : Int
  bufferIdx : Nat
  /-- The buffers `NewReader` has called `Ref` on, and those `Free` has been called on. -/
  refd : List β
  freed : List β

/-- The bytes a call returns, and whether it returns `io.EOF`. -/
structure ReadResult where
  bytes : Bytes
  eof : Bool
  deriving DecidableEq

inductive ReadCall
  | read (k : Nat)
  | readByte
  deriving DecidableEq

namespace SliceReader

def NewReader (s : List β) : SliceReader β := ⟨s, BufferSlice.Len content s, 0, s, []⟩

def freeFirstBufferIfEmpty (r : SliceReader β) : SliceReader β × Bool :=
  match r.data with
  | [] => (r, false)
  | b :: rest =>
    if r.bufferIdx ≠ (content b).length then (r, false)
    else ({ r with data := rest, bufferIdx := 0, freed := r.freed ++ [b] }, true)

/-- The statements `s.len -= cp; s.bufferIdx += cp`. -/
def advance (r : SliceReader β) (cp : Nat) : SliceReader β :=
  { r with len := r.len - cp, bufferIdx := r.bufferIdx + cp }

/-- A turn of the loop that copies nothing frees a buffer. -/
lemma length_data_of_copied_nil {r : SliceReader β} {b : β} {rest : List β} {k : Nat} (hk : k ≠ 0)
    (hdata : r.data = b :: rest) (hle : r.bufferIdx ≤ (content b).length)
    (hnil : (((content b).drop r.bufferIdx).take k).length = 0) :
    ((r.advance 0).freeFirstBufferIfEmpty content).1.data.length < r.data.length := by
  rw [List.length_take, List.length_drop] at hnil
  have hidx : r.bufferIdx = (content b).length := by omega
  simp [freeFirstBufferIfEmpty, advance, hdata, hidx]

lemma length_data_freeFirst_le (r : SliceReader β) :
    (r.freeFirstBufferIfEmpty content).1.data.length ≤ r.data.length := by
  unfold freeFirstBufferIfEmpty
  split
  · exact le_rfl
  · next b rest hdata =>
    split
    · exact le_rfl
    · simp [hdata]

/-- The loop of `Read` for a slice of which `k` bytes are left. -/
def readLoop (r : SliceReader β) (k : Nat) : Go (SliceReader β × Bytes) :=
  if k = 0 ∨ r.len = 0 then .ok (r, [])
  else match _hdata : r.data with
    | [] => .error .panic
    | b :: _ =>
      if _hle : r.bufferIdx ≤ (content b).length then
        let copied := ((content b).drop r.bufferIdx).take k
        ((readLoop ((r.advance copied.length).freeFirstBufferIfEmpty content).1
          (k - copied.length))).map fun (r, bytes) => (r, copied ++ bytes)
      else .error .panic
termination_by k + r.data.length
decreasing_by
  change k - copied.length +
    ((r.advance copied.length).freeFirstBufferIfEmpty content).1.data.length < k + r.data.length
  have hfree := length_data_freeFirst_le content (r.advance copied.length)
  have hsame : (r.advance copied.length).data = r.data := rfl
  rw [hsame] at hfree
  by_cases hnil : copied.length = 0
  · have hlt := length_data_of_copied_nil content (by tauto) _hdata _hle hnil
    rw [hnil]
    omega
  · have hk : copied.length ≤ k := by simp [copied]
    omega

def Read (r : SliceReader β) (k : Nat) : Go (SliceReader β × ReadResult) :=
  if r.len = 0 then .ok (r, ⟨[], true⟩)
  else (readLoop content r k).map fun (r, bytes) => (r, ⟨bytes, false⟩)

/-- The statement `for s.freeFirstBufferIfEmpty() {}`, by the buffers left. -/
def freeEmpty (r : SliceReader β) : List β → SliceReader β
  | [] => r
  | _ :: rest =>
    match r.freeFirstBufferIfEmpty content with
    | (r, true) => freeEmpty r rest
    | (r, false) => r

def ReadByte (r : SliceReader β) : Go (SliceReader β × ReadResult) :=
  if r.len = 0 then .ok (r, ⟨[], true⟩)
  else do
    let r := freeEmpty content r r.data
    let b ← index r.data 0
    let byte ← index (content b) r.bufferIdx
    return (((r.advance 1).freeFirstBufferIfEmpty content).1, ⟨[byte], false⟩)

def Close (r : SliceReader β) : SliceReader β :=
  { r with data := [], len := 0, freed := r.freed ++ r.data }

def Remain (r : SliceReader β) : Int := r.len

def call (r : SliceReader β) : ReadCall → Go (SliceReader β × ReadResult)
  | .read k => r.Read content k
  | .readByte => r.ReadByte content

def calls (r : SliceReader β) : List ReadCall → Go (SliceReader β × List ReadResult)
  | [] => .ok (r, [])
  | c :: cs => do
    let (r, out) ← r.call content c
    let (r, outs) ← r.calls cs
    return (r, out :: outs)

end SliceReader

end Slice

def readAllBufSize : Nat := 32 * 1024

/-- An `io.Reader` in state `s`: what it delivers into a slice of the given length, its error and its
next state. One that is an `io.WriterTo` as well writes chunks and returns an error or nil. -/
structure IoReader (σ : Type v) where
  read : σ → Nat → Bytes × Option GoString × σ
  writeTo : Option (σ → List Bytes × Option GoString)

/-- A buffer of a result: over the `i`-th buffer of the pool, or a `SliceBuffer`. -/
inductive ReadBuffer
  | pooled (i : Nat) (data : Bytes)
  | slice (data : Bytes)
  deriving DecidableEq

def ReadBuffer.data : ReadBuffer → Bytes
  | .pooled _ data => data
  | .slice data => data

def ReadBuffer.poolId : ReadBuffer → Option Nat
  | .pooled i _ => some i
  | .slice _ => none

structure ReadAllResult where
  result : List ReadBuffer
  err : Option GoString
  /-- The number of calls of `pool.Get`, and the buffers given to `pool.Put`. -/
  gets : Nat
  puts : List Nat
  deriving DecidableEq

namespace ReadAll

/-- `Copy`, with the number of buffers the pool has delivered before and after. The slice of a `Get`
has the length asked for. -/
def Copy (data : Bytes) (gets : Nat) : ReadBuffer × Nat :=
  if isLessBufferPoolThreshold data.length then (.slice data, gets)
  else (.pooled gets data, gets + 1)

/-- `writer.Write` for each chunk in turn. -/
def writes : List Bytes → List ReadBuffer → Nat → List ReadBuffer × Nat
  | [], buffers, gets => (buffers, gets)
  | p :: ps, buffers, gets =>
    let (b, gets) := Copy p gets
    writes ps (buffers ++ [b]) gets

variable {σ : Type v} (cap : Nat → Nat)

/-- Both loops of `ReadAll`: buffer `i` of the pool is being filled and holds `used`. -/
def loop (read : σ → Nat → Bytes × Option GoString × σ) :
    Nat → σ → Nat → Bytes → List ReadBuffer → Option ReadAllResult
  | 0, _, _, _, _ => none
  | fuel + 1, s, i, used, result =>
    let (chunk, err, s) := read s (cap i - used.length)
    let used := used ++ chunk
    match err with
    | some e =>
      let err := if e = ioEOF then none else some e
      if used.length = 0 then some ⟨result, err, i + 1, [i]⟩
      else some ⟨result ++ [.pooled i used], err, i + 1, []⟩
    | none =>
      if cap i = used.length then loop read fuel s (i + 1) [] (result ++ [.pooled i used])
      else loop read fuel s i used result

def readAll (r : IoReader σ) (fuel : Nat) (s : σ) : Option ReadAllResult :=
  match r.writeTo with
  | some writeTo =>
    let (chunks, err) := writeTo s
    let (result, gets) := writes chunks [] 0
    some ⟨result, err, gets, []⟩
  | none => loop cap r.read fuel s 0 [] []

end ReadAll

end Zrpc
