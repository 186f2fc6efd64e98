import Zrpc.Go

/-!
# The buffer pool (`mem/buffer_pool.go`)

The heap holds backing arrays, named by their index; the length of an array is the capacity of
the buffers over it. A `sync.Pool` is a bag: its `Get` may deliver any element or make a new one.
-/

namespace Zrpc

def bufferPoolSizes : List Nat :=
  [1 <<< 7, 1 <<< 8, 1 <<< 9, 1 <<< 10, 1 <<< 11, 1 <<< 12, 1 <<< 13, 1 <<< 14, 1 <<< 15, 1 <<< 16,
    1 <<< 17, 1 <<< 18, 1 <<< 19, 1 <<< 20, 1 <<< 21, 1 <<< 22]

def maxSize : Nat := 1 <<< 22

def findPool (size : Nat) : Option Nat := bufferPoolSizes.findIdx? (fun poolSize => size = poolSize)

def findBestFitPool (size : Nat) : Option Nat :=
  bufferPoolSizes.findIdx? (fun poolSize => size ≤ poolSize)

/-- The loop runs from the largest class down and falls back to the smallest. -/
def findClosestPool (size : Nat) : Nat :=
  ((List.range bufferPoolSizes.length).reverse.find?
    (fun i => bufferPoolSizes.getD i 0 ≤ size)).getD 0

structure Heap where
  blocks : List Bytes
  pools : Nat → List Nat

namespace Heap

def empty : Heap := ⟨[], fun _ => []⟩

def content (h : Heap) (b : Nat) : Bytes := h.blocks.getD b []

/-- The expression `make([]byte, cap)`. -/
def alloc (h : Heap) (cap : Nat) : Heap × Nat :=
  ({ h with blocks := h.blocks ++ [List.replicate cap 0] }, h.blocks.length)

/-- The bytes `bs` written over `old` from `offset` on. -/
def overwrite (old : Bytes) (offset : Nat) (bs : Bytes) : Bytes :=
  old.take offset ++ bs ++ old.drop (offset + bs.length)

def write (h : Heap) (b offset : Nat) (bs : Bytes) : Heap :=
  { h with blocks := h.blocks.set b (overwrite (h.content b) offset bs) }

/-- The `Get` of the `sync.Pool` of class `i`: element `choice` of the bag, or a new buffer. -/
def takeFrom (h : Heap) (i : Nat) (choice : Option Nat) : Heap × Nat :=
  match choice.bind (fun j => (h.pools i)[j]?) with
  | some b => ({ h with pools := Function.update h.pools i ((h.pools i).erase b) }, b)
  | none => h.alloc (bufferPoolSizes.getD i 0)

/-- The reslicing `(*buf)[0:size]` after the `Get` of a class. -/
def reslice (size : Nat) (r : Heap × Nat) : Heap × Go Nat :=
  (r.1, if size ≤ (r.1.content r.2).length then .ok r.2 else .error .panic)

def get (h : Heap) (size : Nat) (choice : Option Nat) : Heap × Go Nat :=
  if size = 0 then
    let (h, b) := h.alloc 0
    (h, .ok b)
  else match findPool size with
    | some i => reslice size (h.takeFrom i choice)
    | none =>
      match findBestFitPool size with
      | some i => reslice size (h.takeFrom i choice)
      | none =>
        let (h, b) := h.alloc size
        (h, .ok b)

def putInto (h : Heap) (i b : Nat) : Heap :=
  { h with pools := Function.update h.pools i (b :: h.pools i) }

def put (h : Heap) (b : Nat) : Heap :=
  let size := (h.content b).length
  if size = 0 ∨ maxSize < size then h
  else match findPool size with
    | some i => h.putInto i b
    | none => h.putInto (findClosestPool size) b

end Heap

end Zrpc
