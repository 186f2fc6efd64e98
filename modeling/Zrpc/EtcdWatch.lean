import Zrpc.CachedDiscovery
import Zrpc.EtcdDiscovery

/-!
# The watch loop of an etcd discovery (`discovery/etcd/discovery.go`)

`NewDiscovery` fills the cache with one `Refresh` and starts the goroutine `watch`, which refreshes
the cache again for each response of the watch channel. Next to it goroutines call the discovery,
and services come and go in etcd. etcd is a parameter, with the laws of `Get` and `Watch` that its
client promises.
-/

namespace Zrpc

open Zrpc.Lib

variable {β α ω : Type}

/-- A key of etcd with its value, the JSON text of an endpoint. -/
abbrev EtcdEntry := Sigma (fun _ : GoString => Bytes)

inductive EtcdChange
  | put (key : GoString) (value : Bytes)
  | delete (key : GoString)
  deriving DecidableEq

def EtcdChange.key : EtcdChange → GoString
  | put key _ => key
  | delete key => key

/-- etcd as its client shows it. The revision is the number of changes. -/
structure Etcd (β α ω : Type) where
  step : β → α → Option β
  clock : β → Int
  /-- The answer of `Get(ctx, prefix, WithPrefix())`. -/
  get : ω → β → GoString → List EtcdEntry
  /-- All changes so far, in their order. -/
  changes : β → List EtcdChange
  /-- The revision behind which a channel made by `Watch` begins. -/
  watch : β → Nat
  /-- The revision up to which the next response on a channel delivers, of one that has delivered up
  to the given revision. -/
  next : Nat → β → Nat → Option Nat

/-- Changes stay; two calls of `Get` give the same entries, in some order, if no key with the prefix
has changed between them; a channel misses no change made after the call of `Watch`, and delivers
none before it is made. -/
structure EtcdLaw (X : Etcd β α ω) : Prop where
  changes : ∀ b a b', X.step b a = some b' → X.changes b <+: X.changes b'
  get : ∀ b as b' o o' keyPrefix, exec X.step b as = some b' →
    (∀ c ∈ (X.changes b').drop (X.changes b).length, keyPrefix.isPrefixOf c.key = false) →
      (X.get o b keyPrefix).Perm (X.get o' b' keyPrefix)
  watch : ∀ b, X.watch b ≤ (X.changes b).length
  next : ∀ choice b pos pos', X.next choice b pos = some pos' → pos' ≤ (X.changes b).length

namespace EtcdDiscovery

/-- The keys a discovery asks for and watches. -/
def watches (serviceName : GoString) (key : GoString) : Bool :=
  (getKeyPrefix serviceName).isPrefixOf key

/-- The addresses that a `Refresh` reads from entries; `addrOf` is the `Addr` of the endpoint that
`json.Unmarshal` finds, and other values are skipped. -/
def addresses (addrOf : Bytes → Option GoString) (kvs : List EtcdEntry) : List GoString :=
  kvs.filterMap fun kv => addrOf kv.2

def backend (X : Etcd β α ω) (addrOf : Bytes → Option GoString) (serviceName : GoString) :
    Backend β α ω where
  step := X.step
  clock := X.clock
  query o b := .ok (addresses addrOf (X.get o b (getKeyPrefix serviceName)))

/-- The goroutine `watch`, with the revision up to which the channel has delivered. -/
inductive Watcher
  | waiting (pos : Nat)
  /-- In `d.Refresh()`, which runs as the given goroutine. -/
  | refreshing (pos thread : Nat)
  /-- The channel is closed and the loop has ended. -/
  | closed
  deriving DecidableEq

structure WatchState (β : Type) where
  cache : CacheState β
  watcher : Option Watcher

/-- `NewDiscovery` before its `Refresh`, which is goroutine 0. -/
def WatchState.init (X : Etcd β α ω) (b : β) : WatchState β :=
  ⟨{ CacheState.init b with threads := [⟨.Refresh, X.clock b, .start⟩] }, none⟩

inductive WatchAction (α ω : Type)
  | cache (a : CacheAction α ω)
  | watch
  /-- The next response on the channel. -/
  | deliver (choice : Nat)
  | resume
  | close

/-- The `Refresh` of a goroutine has returned nil. -/
def WatchState.refreshed (s : WatchState β) (thread : Nat) : Bool :=
  match s.cache.threads[thread]? with
  | some ⟨_, _, .finished .done⟩ => true
  | _ => false

/-- `NewDiscovery` has returned a discovery. -/
def WatchState.created (s : WatchState β) : Bool := s.refreshed 0

def watchStep (X : Etcd β α ω) (addrOf : Bytes → Option GoString) (serviceName : GoString)
    (s : WatchState β) : WatchAction α ω → Option (WatchState β)
  | .cache (.call c) =>
    if s.created then
      match cacheStep (backend X addrOf serviceName) s.cache (.call c) with
      | some cache => some { s with cache := cache }
      | none => none
    else none
  | .cache a =>
    match cacheStep (backend X addrOf serviceName) s.cache a with
    | some cache => some { s with cache := cache }
    | none => none
  | .watch =>
    match s.watcher with
    | none =>
      if s.created then some { s with watcher := some (.waiting (X.watch s.cache.backend)) } else none
    | some _ => none
  | .deliver choice =>
    match s.watcher with
    | some (.waiting pos) =>
      match X.next choice s.cache.backend pos,
        cacheStep (backend X addrOf serviceName) s.cache (.call .Refresh) with
      | some pos', some cache => some ⟨cache, some (.refreshing pos' s.cache.threads.length)⟩
      | _, _ => none
    | _ => none
  | .resume =>
    match s.watcher with
    | some (.refreshing pos thread) =>
      match s.cache.threads[thread]? with
      | some ⟨_, _, .finished _⟩ => some { s with watcher := some (.waiting pos) }
      | _ => none
    | _ => none
  | .close =>
    match s.watcher with
    | some (.waiting _) => some { s with watcher := some .closed }
    | _ => none

end EtcdDiscovery

end Zrpc
