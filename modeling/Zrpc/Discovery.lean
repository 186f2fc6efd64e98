import Zrpc.ClientRun

/-!
# Discovery and the servers of a client (`discovery/memory/memory.go`, `client.go`)

A client asks its `MultiServerRegistry` for a target at the start of each attempt of an Invoke and
of each heartbeat. `UpdateServers` first gives the registry a new list, and then takes `c.mu` and
removes the pools of the other servers.
-/

namespace Zrpc

variable {V T : Type}

inductive SelectMode
  | RandomSelect
  | RoundRobinSelect
  /-- A number that is none of the two constants. -/
  | unsupported (mode : Int)

structure MultiServerRegistry where
  servers : List GoString
  idx : Nat

namespace MultiServerRegistry

/-- `Get`, with the number that `m.r.Intn(n)` is drawn from. -/
def get (m : MultiServerRegistry) (mode : SelectMode) (draw : Nat) :
    Except GoString GoString × MultiServerRegistry :=
  let n := m.servers.length
  if hn : n = 0 then (.error (str "zrpc discovery: no available servers"), m)
  else match mode with
    | .RandomSelect => (.ok (m.servers.get ⟨draw % n, Nat.mod_lt _ (Nat.pos_of_ne_zero hn)⟩), m)
    | .RoundRobinSelect =>
      (.ok (m.servers.get ⟨m.idx % n, Nat.mod_lt _ (Nat.pos_of_ne_zero hn)⟩),
        { m with idx := (m.idx + 1) % n })
    | .unsupported _ => (.error (str "zrpc discovery: not supported select mode"), m)

def update (m : MultiServerRegistry) (servers : List GoString) : MultiServerRegistry :=
  { m with servers := servers }

/-- The position of the list that `Get` reads. -/
def position (m : MultiServerRegistry) (mode : SelectMode) (draw : Nat) : Option Nat :=
  let n := m.servers.length
  if n = 0 then none
  else match mode with
    | .RandomSelect => some (draw % n)
    | .RoundRobinSelect => some (m.idx % n)
    | .unsupported _ => none

/-- A call of a registry, with the number `m.r.Intn(n)` is drawn from. -/
inductive Call
  | get (mode : SelectMode) (draw : Nat)
  | update (servers : List GoString)

def call (m : MultiServerRegistry) : Call → MultiServerRegistry
  | .get mode draw => (m.get mode draw).2
  | .update servers => m.update servers

/-- The positions read by the round-robin `Get`s of a list of calls. -/
def roundRobinPositions : MultiServerRegistry → List Call → List Nat
  | _, [] => []
  | m, .get .RoundRobinSelect draw :: calls =>
    (m.position .RoundRobinSelect draw).toList ++
      roundRobinPositions (m.call (.get .RoundRobinSelect draw)) calls
  | m, c :: calls => roundRobinPositions (m.call c) calls

end MultiServerRegistry

structure DiscoveryState (T : Type) where
  client : ClientState T
  discovery : MultiServerRegistry
  /-- The calls of `UpdateServers` that are past `c.discovery.Update`, the latest first. -/
  updated : List Nat

def DiscoveryState.init (servers : List GoString) (idx : Nat) : DiscoveryState T :=
  ⟨.init, ⟨servers, idx⟩, []⟩

/-- The mode in which a goroutine is about to call `c.discovery.Get`, if it is. -/
def Thread.selects (balancerMode : SelectMode) : Thread T → Option SelectMode
  | .invoke t => match t.pc with
    | .discover => some balancerMode
    | _ => none
  | .heartbeat pc => match pc with
    | .discover => some .RandomSelect
    | _ => none
  | .prewarm _ _ | .closer _ _ => none

/-- The server list of an `UpdateServers` that has not taken `c.mu` yet. -/
def Thread.updates : Thread T → Option (List GoString)
  | .closer (.update servers) pc => match pc with
    | .start => some servers
    | _ => none
  | .closer .close _ | .invoke _ | .heartbeat _ | .prewarm _ _ => none

inductive DiscoveryAction (T : Type)
  /-- A step that does not call the registry. -/
  | client (a : ClientAction T)
  /-- Goroutine `i` calls `c.discovery.Get`. -/
  | get (i draw : Nat)
  /-- The `UpdateServers` of goroutine `i` calls `c.discovery.Update`. -/
  | update (i : Nat)

/-- The goroutine neither is about to call `Get`, nor has its `Update` still to make. -/
def DiscoveryState.allows (s : DiscoveryState T) : ClientAction T → Bool
  | .run i _ => match s.client.threads[i]? with
    | some th => (th.selects .RandomSelect).isNone && (th.updates.isNone || i ∈ s.updated)
    | none => false
  | .invoke _ _ | .heartbeat | .close | .updateServers _ | .answer _ _ _ _ => true

/-- The result of `Get`, as the goroutine that called it goes on with it. -/
def selected : Except GoString GoString → Input
  | .ok target => .addr target
  | .error err => .fail err

def discoveryStep (cfg : ClientConfig V T) (balancerMode : SelectMode) (s : DiscoveryState T) :
    DiscoveryAction T → Option (DiscoveryState T)
  | .client a =>
    if s.allows a then (clientStep cfg s.client a).map fun client => { s with client := client }
    else none
  | .get i draw =>
    match s.client.threads[i]?.bind (Thread.selects balancerMode) with
    | none => none
    | some mode =>
      let (target, discovery) := s.discovery.get mode draw
      (clientStep cfg s.client (.run i (selected target))).map fun client =>
        { s with client := client, discovery := discovery }
  | .update i =>
    match s.client.threads[i]?.bind Thread.updates with
    | none => none
    | some servers =>
      if i ∈ s.updated then none
      else some { s with discovery := s.discovery.update servers, updated := i :: s.updated }

end Zrpc
