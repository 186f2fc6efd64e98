import Zrpc.Buffer
import Zrpc.Codec
import Zrpc.Message

/-!
# Goroutines over the buffer pools (`protocol/message.go`, `codec/codec.go`)

`Encode`, `Marshal` and `Decode` each take a buffer out of a pool, fill it from the front, hand its
bytes on and put it back: a frame to `conn.Write`, a marshalled value to the copy that `Materialize`
or the small path of `Marshal` makes, the data of a frame to `decodeMessageData`. Any number of
goroutines do so at the same time. One write of the model is any number of bytes, and between two of
them any other goroutine may run.
-/

namespace Zrpc

open Zrpc.Lib

variable {V T : Type}

/-- A call that works on a pooled buffer. -/
inductive PoolUse (V : Type)
  | encode (m : Message) (c : EncodeChoice m.metadata)
  | marshal (v : V)
  /-- The data of a frame, as the connection is going to deliver it. -/
  | decode (data : Bytes)

/-- The bytes that go through the buffer, as many as are asked of the pool: `proto.Size` is the length
of what `MarshalAppend` appends. A `Decode` of at most 1024 bytes uses no pool. -/
def PoolUse.bytes (E : Env) (P : Proto V T) : PoolUse V → Option Bytes
  | .encode m c => ((m.encode E c).map Prod.fst).toOption
  | .marshal v => (P.codecMarshal (some v)).toOption
  | .decode data => if data.length ≤ 1024 then none else some data

/-- The test of `Marshal` for its small path. -/
def PoolUse.isSmall (data : Bytes) : PoolUse V → Bool
  | .marshal _ => isLessBufferPoolThreshold data.length
  | .encode _ _ | .decode _ => false

/-- A buffer of the default pool, or one of `smallBufferPool`. -/
inductive Slot
  | block (b : Nat)
  | small (i : Nat)
  deriving DecidableEq

inductive WorkPc
  | start
  | filling (slot : Slot) (done : Nat)
  | putting (slot : Slot)
  | finished
  deriving DecidableEq

/-- The buffer that a goroutine has. -/
def WorkPc.slot : WorkPc → Option Slot
  | .filling slot _ | .putting slot => some slot
  | .start | .finished => none

structure PoolUser (V : Type) where
  use : PoolUse V
  bytes : Bytes
  pc : WorkPc

structure ShareState (V : Type) where
  heap : Heap
  smallBufferPool : ObjectPool Bytes
  users : List (PoolUser V)
  /-- What was handed on, by which goroutine. -/
  delivered : List (Nat × Bytes)
  panicked : Bool

def ShareState.init : ShareState V := ⟨.empty, .empty, [], [], false⟩

inductive ShareAction (V : Type)
  | call (use : PoolUse V)
  /-- The `Get` of a pool, with the element that the `sync.Pool` delivers. -/
  | get (user : Nat) (choice : Option Nat)
  /-- The next `n` bytes are written. -/
  | fill (user n : Nat)
  /-- The buffer is handed on. -/
  | deliver (user : Nat)
  /-- `MarshalAppend` or `io.ReadFull` fails. -/
  | abort (user : Nat)
  | put (user : Nat)

namespace ShareState

variable (s : ShareState V)

def setPc (i : Nat) (u : PoolUser V) (pc : WorkPc) : ShareState V :=
  { s with users := s.users.set i { u with pc := pc } }

def content : Slot → Bytes
  | .block b => s.heap.content b
  | .small i => (s.smallBufferPool.cells[i]?).getD []

/-- The bytes `bs` written at `offset`. What is appended to a small buffer may make it longer. -/
def write (slot : Slot) (offset : Nat) (bs : Bytes) : ShareState V :=
  match slot with
  | .block b => { s with heap := s.heap.write b offset bs }
  | .small i => { s with
      smallBufferPool := s.smallBufferPool.set i (Heap.overwrite (s.content (.small i)) offset bs) }

/-- The `Get` of the pool that the call uses; `smallBufferPool` makes slices of capacity 1024. -/
def get (u : PoolUser V) (choice : Option Nat) : ShareState V × Go Slot :=
  if u.use.isSmall u.bytes then
    let (p, i) := s.smallBufferPool.get (List.replicate 1024 0) choice
    ({ s with smallBufferPool := p }, .ok (.small i))
  else
    let (h, r) := s.heap.get u.bytes.length choice
    ({ s with heap := h }, r.map Slot.block)

def put : Slot → ShareState V
  | .block b => { s with heap := s.heap.put b }
  | .small i => { s with smallBufferPool := s.smallBufferPool.put i }

end ShareState

/-- `Encode` cannot fail once it has its buffer. -/
def PoolUse.mayFail : PoolUse V → Bool
  | .encode _ _ => false
  | .marshal _ | .decode _ => true

def shareStep (E : Env) (P : Proto V T) (s : ShareState V) (a : ShareAction V) :
    Option (ShareState V) :=
  if s.panicked then none
  else match a with
    | .call use =>
      (use.bytes E P).map fun bytes => { s with users := s.users ++ [⟨use, bytes, .start⟩] }
    | .get i choice =>
      match s.users[i]? with
      | some ⟨use, bytes, .start⟩ =>
        match s.get ⟨use, bytes, .start⟩ choice with
        | (s, .ok slot) => some (s.setPc i ⟨use, bytes, .start⟩ (.filling slot 0))
        | (s, .error _) => some { s with panicked := true }
      | _ => none
    | .fill i n =>
      match s.users[i]? with
      | some ⟨use, bytes, .filling slot done⟩ =>
        if done + n ≤ bytes.length then
          some ((s.write slot done ((bytes.drop done).take n)).setPc i
            ⟨use, bytes, .filling slot done⟩ (.filling slot (done + n)))
        else none
      | _ => none
    | .deliver i =>
      match s.users[i]? with
      | some ⟨use, bytes, .filling slot done⟩ =>
        if done = bytes.length then
          let t := s.setPc i ⟨use, bytes, .filling slot done⟩ (.putting slot)
          some { t with delivered := s.delivered ++ [(i, (s.content slot).take bytes.length)] }
        else none
      | _ => none
    | .abort i =>
      match s.users[i]? with
      | some ⟨use, bytes, .filling slot done⟩ =>
        if use.mayFail then some (s.setPc i ⟨use, bytes, .filling slot done⟩ (.putting slot))
        else none
      | _ => none
    | .put i =>
      match s.users[i]? with
      | some ⟨use, bytes, .putting slot⟩ =>
        some ((s.put slot).setPc i ⟨use, bytes, .putting slot⟩ .finished)
      | _ => none

end Zrpc
