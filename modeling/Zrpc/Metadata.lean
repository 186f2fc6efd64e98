import Zrpc.Go

/-!
# Metadata (`metadata/metadata.go`)

An `MD` is a map from keys to lists of values. The association list behind it has distinct
keys; its order plays the part of one of the iteration orders Go may choose.
-/

namespace Zrpc

abbrev MD := AList (fun _ : GoString => List GoString)

/-- One key of a map with its values, as `range` delivers it. -/
abbrev MDEntry := Sigma (fun _ : GoString => List GoString)

/-- The order in which one `range` meets the keys of a map. -/
abbrev MDOrder (md : MD) := {order : List MDEntry // order.Perm md.entries}

namespace MD

/-- The expression `md[k]`. -/
def values (md : MD) (k : GoString) : List GoString := (md.lookup k).getD []

/-- The statement `md[k] = append(md[k], vals...)`. -/
def push (md : MD) (k : GoString) (vals : List GoString) : MD := md.insert k (md.values k ++ vals)

def len (md : MD) : Nat := md.entries.length

def new (E : Env) (m : List (GoString × GoString)) : MD :=
  m.foldl (fun md kv => md.push (E.toLower kv.1) [kv.2]) ∅

/-- The loop of `Pairs` over an even number of arguments; an odd number is a panic. -/
def pairsLoop (E : Env) (md : MD) : List GoString → Go MD
  | [] => .ok md
  | [_] => .error .panic
  | k :: v :: kv => pairsLoop E (md.push (E.toLower k) [v]) kv

def pairs (E : Env) (kv : List GoString) : Go MD := pairsLoop E ∅ kv

def get (E : Env) (md : MD) (k : GoString) : List GoString := md.values (E.toLower k)

def set (E : Env) (md : MD) (k : GoString) (vals : List GoString) : MD :=
  if vals.length = 0 then md else md.insert (E.toLower k) vals

def append (E : Env) (md : MD) (k : GoString) (vals : List GoString) : MD :=
  if vals.length = 0 then md else md.push (E.toLower k) vals

/-- The inner loop of `Join`. -/
def joinInto (out md : MD) : MD := md.entries.foldl (fun out e => out.push e.1 e.2) out

def join (mds : List MD) : MD := mds.foldl joinInto ∅

/-- Equality as maps. -/
def Same (a b : MD) : Prop := ∀ k, a.lookup k = b.lookup k

end MD

/-- What a context carries for the outgoing direction. -/
structure RawMD where
  md : MD
  added : List (List GoString)

/-- The key-value loop of `FromOutgoingContext`; an odd number of strings is a panic. -/
def addPairs (E : Env) (out : MD) (added : List GoString) : Go MD := MD.pairsLoop E out added

/-- `FromOutgoingContext` for a context that has outgoing metadata. `order` is the order in
which the range over `raw.md` meets its keys. -/
def fromOutgoingContext (E : Env) (order : List MDEntry) (raw : RawMD) : Go MD :=
  raw.added.foldlM (addPairs E) (order.foldl (fun out e => out.insert (E.toLower e.1) e.2) ∅)

/-- `FromInComingContext` for a context that has incoming metadata. -/
def fromInComingContext (E : Env) (md : MD) (order : MDOrder md) : MD :=
  order.1.foldl (fun out e => out.insert (E.toLower e.1) e.2) ∅

end Zrpc
