import Zrpc.Lib.Exec
import Zrpc.Metadata

/-!
# Outgoing metadata in contexts (`metadata/metadata.go`)

A context is made from its parent and does not change. What two contexts can share is memory: the
slice `added` of a context is an array, and the contexts made from it read it to make their own.
-/

namespace Zrpc

/-- The arrays behind the slices `added`. -/
abbrev Arrays := List (List (List GoString))

namespace Arrays

/-- The elements of a slice; `none` is the nil slice. -/
def read (mem : Arrays) (added : Option Nat) : List (List GoString) :=
  (added.bind (fun a => mem[a]?)).getD []

/-- The expression `make([][]string, n)`. -/
def make (mem : Arrays) (n : Nat) : Arrays × Nat := (mem ++ [List.replicate n []], mem.length)

/-- The call `copy(dst, src)`. -/
def copy (mem : Arrays) (dst : Nat) (src : List (List GoString)) : Arrays :=
  mem.modify dst fun old => src.take old.length ++ old.drop src.length

/-- The assignment `a[i] = v`. -/
def assign (mem : Arrays) (a i : Nat) (v : List GoString) : Arrays :=
  mem.modify a fun old => old.set i v

end Arrays

/-- A `rawMD`; its map is not modified any more, as the comment on `NewOutgoingContext` asks. -/
structure RawRef where
  md : MD
  added : Option Nat

inductive Context
  | background
  /-- A context with a value of another key, a deadline or a cancellation. -/
  | derived (parent : Context)
  | withOutgoing (parent : Context) (raw : RawRef)

/-- `ctx.Value(mdOutgoingKey{})`. -/
def Context.outgoing : Context → Option RawRef
  | .background => none
  | .derived parent => parent.outgoing
  | .withOutgoing _ raw => some raw

def newOutgoingContext (ctx : Context) (md : MD) : Context := .withOutgoing ctx ⟨md, none⟩

/-- The loop that makes `kvCopy`. -/
def lowerKeys (E : Env) : List GoString → List GoString
  | k :: v :: kv => E.toLower k :: v :: lowerKeys E kv
  | [_] | [] => []

def appendToOutgoingContext (E : Env) (mem : Arrays) (ctx : Context) (kv : List GoString) :
    Go (Arrays × Context) :=
  if kv.length % 2 = 1 then .error .panic
  else
    let md := ctx.outgoing.getD ⟨∅, none⟩
    let old := mem.read md.added
    let (mem, added) := mem.make (old.length + 1)
    let mem := mem.copy added old
    let mem := mem.copy added old
    let mem := mem.assign added old.length (lowerKeys E kv)
    .ok (mem, .withOutgoing ctx ⟨md.md, some added⟩)

/-- `FromOutgoingContext`; `order` is the order in which it meets the keys of the map. -/
def Context.fromOutgoing (E : Env) (mem : Arrays) (order : List MDEntry) (ctx : Context) :
    Go (Option MD) :=
  match ctx.outgoing with
  | none => .ok none
  | some raw => (fromOutgoingContext E order ⟨raw.md, mem.read raw.added⟩).map some

/-- The contexts that were made so far, by any number of goroutines. -/
structure ContextState where
  mem : Arrays
  contexts : List Context

def ContextState.init : ContextState := ⟨[], [.background]⟩

/-- The calls that make a context from context `parent`. -/
inductive ContextAction
  | derive (parent : Nat)
  | newOutgoing (parent : Nat) (md : MD)
  | append (parent : Nat) (kv : List GoString)

def ContextState.push (s : ContextState) (ctx : Context) : ContextState :=
  { s with contexts := s.contexts ++ [ctx] }

/-- A call that panics makes no context. -/
def contextStep (E : Env) (s : ContextState) : ContextAction → Option ContextState
  | .derive parent => s.contexts[parent]?.map fun ctx => s.push (.derived ctx)
  | .newOutgoing parent md => s.contexts[parent]?.map fun ctx => s.push (newOutgoingContext ctx md)
  | .append parent kv => s.contexts[parent]?.map fun ctx =>
    match appendToOutgoingContext E s.mem ctx kv with
    | .error _ => s
    | .ok (mem, ctx') => { s with mem := mem }.push ctx'

/-! ## What contexts are for -/

/-- The map that a context was given, and the lists appended to it since. -/
abbrev Outgoing := Option (MD × List (List GoString))

def Outgoing.append (o : Outgoing) (kv : List GoString) : Outgoing :=
  let (md, kvs) := o.getD (∅, [])
  some (md, kvs ++ [kv])

/-- Contexts as values that share nothing. -/
def outgoingStep (values : List Outgoing) : ContextAction → Option (List Outgoing)
  | .derive parent => values[parent]?.map fun o => values ++ [o]
  | .newOutgoing parent md => values[parent]?.map fun _ => values ++ [some (md, [])]
  | .append parent kv => values[parent]?.map fun o =>
    if kv.length % 2 = 1 then values else values ++ [o.append kv]

end Zrpc
