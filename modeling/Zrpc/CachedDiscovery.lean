import Zrpc.Discovery
import Zrpc.Lib.Exec
import Zrpc.Lib.RWLock

/-!
# Discovery with a cached server list (`discovery/memory/zrpc_discovery.go`, `discovery/etcd/discovery.go`)

`RegistryDiscovery` and the etcd `Discovery` keep the servers of their last `Refresh` and share the
code of `Get`, `GetAll` and `Update`. Any number of goroutines call them, next to a remote registry
that goes on by itself. A critical section under `d.mu.Lock` is one step; a `Get` under `d.mu.RLock`
is not, since it writes `d.idx` next to other readers.
-/

namespace Zrpc

open Zrpc.Lib

variable {β α ω : Type}

/-- A remote registry: how it goes on, its clock, and its answer to the query of a `Refresh`, given
what the network and the registry's maps do to that query. -/
structure Backend (β α ω : Type) where
  step : β → α → Option β
  clock : β → Int
  query : ω → β → Except GoString (List GoString)

/-- `refreshInterval: time.Minute`. -/
def refreshInterval : Int := 60000000000

def errNoServers : GoString := str "registry discovery: no available servers"
def errUnsupportedMode : GoString := str "registry discovery: unsupported select mode"

inductive CacheCall
  | Get (mode : SelectMode) (draw : Nat)
  | GetAll
  | Refresh
  | Update (servers : List GoString)

inductive CacheResult
  | addr (addr : GoString)
  | addrs (servers : List GoString)
  | done
  | failed (err : GoString)
  deriving DecidableEq

inductive CachePc
  | start
  /-- Under the first `d.mu.RLock`, before the `if`. -/
  | checking
  | querying
  /-- The registry has answered, at the given time. -/
  | storing (servers : List GoString) (answeredAt : Int)
  /-- `Refresh` has returned; before the second `d.mu.RLock`. -/
  | refreshed
  | reading
  /-- `n := len(d.servers)`. -/
  | choosing (n : Nat)
  /-- `addr = d.servers[d.idx%n]`. -/
  | picked (n : Nat) (addr : GoString)
  /-- `d.idx` has been read again. -/
  | bumping (n : Nat) (addr : GoString) (idx : Nat)
  /-- Before `d.mu.RUnlock`. -/
  | leaving (result : CacheResult)
  | finished (result : CacheResult)
  deriving DecidableEq

structure CacheThread where
  call : CacheCall
  /-- When the call was made. -/
  calledAt : Int
  pc : CachePc

structure CacheState (β : Type) where
  backend : β
  servers : List GoString
  idx : Nat
  /-- `none` is the zero time. -/
  lastRefresh : Option Int
  mu : RWLock Nat
  threads : List CacheThread
  /-- An index was out of range. -/
  panicked : Bool

def CacheState.init (b : β) : CacheState β := ⟨b, [], 0, none, .free, [], false⟩

inductive CacheAction (α ω : Type)
  | backend (a : α)
  | call (c : CacheCall)
  /-- The next step of a goroutine that does not ask the registry. -/
  | run (i : Nat)
  /-- The query of a `Refresh`, or `none` if the registry cannot be reached. -/
  | query (i : Nat) (o : Option ω) (err : GoString)

/-- `time.Since(d.lastRefresh) > d.refreshInterval`. -/
def stale (now : Int) : Option Int → Bool
  | none => true
  | some lastRefresh => decide (refreshInterval < now - lastRefresh)

namespace CacheState

def setPc (s : CacheState β) (i : Nat) (th : CacheThread) (pc : CachePc) : CacheState β :=
  { s with threads := s.threads.set i { th with pc := pc } }

def rlock (s : CacheState β) (i : Nat) (th : CacheThread) (pc : CachePc) : Option (CacheState β) :=
  match s.mu.rlock i with
  | some mu => some ({ s with mu := mu }.setPc i th pc)
  | none => none

def runlock (s : CacheState β) (i : Nat) (th : CacheThread) (pc : CachePc) : CacheState β :=
  { s with mu := s.mu.runlock i }.setPc i th pc

/-- A whole critical section under `d.mu.Lock`. -/
def locked (s : CacheState β) (i : Nat) (body : CacheState β → CacheState β) : Option (CacheState β) :=
  match s.mu.lock i with
  | some mu =>
    let s := body { s with mu := mu }
    some { s with mu := s.mu.unlock }
  | none => none

/-- `copy` into a new slice of length `n`. -/
def copyOf (servers : List GoString) (n : Nat) : List GoString :=
  servers.take n ++ List.replicate (n - servers.length) []

/-- The `switch` of `Get`, or the copy of `GetAll`, with the length read before. -/
def choose (s : CacheState β) (i : Nat) (th : CacheThread) (n : Nat) : CacheState β :=
  match th.call with
  | .Get mode draw =>
    if n = 0 then s.setPc i th (.leaving (.failed errNoServers))
    else match mode with
      | .RandomSelect =>
        match s.servers[draw % n]? with
        | some addr => s.setPc i th (.leaving (.addr addr))
        | none => { s with panicked := true }
      | .RoundRobinSelect =>
        match s.servers[s.idx % n]? with
        | some addr => s.setPc i th (.picked n addr)
        | none => { s with panicked := true }
      | .unsupported _ => s.setPc i th (.leaving (.failed errUnsupportedMode))
  | .GetAll | .Refresh | .Update _ => s.setPc i th (.leaving (.addrs (copyOf s.servers n)))

end CacheState

def cacheRun (B : Backend β α ω) (s : CacheState β) (i : Nat) (th : CacheThread) :
    Option (CacheState β) :=
  match th.pc with
  | .start =>
    match th.call with
    | .Get _ _ | .GetAll => s.rlock i th .checking
    | .Refresh => some (s.setPc i th .querying)
    | .Update servers =>
      s.locked i fun s => { s with servers := servers }.setPc i th (.finished .done)
  | .checking =>
    if s.servers.length = 0 ∨ stale (B.clock s.backend) s.lastRefresh then
      some (s.runlock i th .querying)
    else some (s.setPc i th .reading)
  | .querying => none
  | .storing servers _ =>
    s.locked i fun s =>
      { s with servers := servers, lastRefresh := some (B.clock s.backend) }.setPc i th
        (match th.call with
          | .Refresh => .finished .done
          | .Get _ _ | .GetAll | .Update _ => .refreshed)
  | .refreshed => s.rlock i th .reading
  | .reading => some (s.setPc i th (.choosing s.servers.length))
  | .choosing n => some (s.choose i th n)
  | .picked n addr => some (s.setPc i th (.bumping n addr s.idx))
  | .bumping n addr idx => some ({ s with idx := (idx + 1) % n }.setPc i th (.leaving (.addr addr)))
  | .leaving result => some (s.runlock i th (.finished result))
  | .finished _ => none

def cacheStep (B : Backend β α ω) (s : CacheState β) (a : CacheAction α ω) :
    Option (CacheState β) :=
  if s.panicked then none
  else match a with
    | .backend a =>
      match B.step s.backend a with
      | some b => some { s with backend := b }
      | none => none
    | .call c => some { s with threads := s.threads ++ [⟨c, B.clock s.backend, .start⟩] }
    | .run i =>
      match s.threads[i]? with
      | some th => cacheRun B s i th
      | none => none
    | .query i o err =>
      match s.threads[i]? with
      | some ⟨call, calledAt, .querying⟩ =>
        match o with
        | none => some (s.setPc i ⟨call, calledAt, .querying⟩ (.finished (.failed err)))
        | some o =>
          match B.query o s.backend with
          | .error err => some (s.setPc i ⟨call, calledAt, .querying⟩ (.finished (.failed err)))
          | .ok servers =>
            some (s.setPc i ⟨call, calledAt, .querying⟩ (.storing servers (B.clock s.backend)))
      | _ => none

end Zrpc
