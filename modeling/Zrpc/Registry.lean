import Zrpc.Go
import Zrpc.Lib.Range
import Zrpc.Lib.TimedSet

/-!
# The service registry (`registry/registry.go`)

The methods of `Registry`, each one critical section of its lock. A method that returns an error
also returns the registry it leaves behind. Times are readings of the monotonic clock that
`time.Now` takes, in nanoseconds; the difference of two of them always fits a `Duration`.
-/

namespace Zrpc

open Zrpc.Lib

/-- A Go `map[string]string`; `none` is the nil map. -/
abbrev StringMap := Option (AList fun _ : GoString => GoString)

structure ServiceInfo where
  name : GoString
  addr : GoString
  metadata : StringMap
  startTime : Int
  lastPing : Int
  deriving DecidableEq

/-- The addresses of one service. -/
abbrev Services := AList fun _ : GoString => ServiceInfo

structure Registry where
  servers : AList fun _ : GoString => Services
  timeout : Int
  deriving DecidableEq

def newRegistry (timeout : Int) : Registry := ⟨∅, timeout⟩

namespace Registry

def serviceNotFound (serviceName : GoString) : GoString :=
  str "service " ++ serviceName ++ str " not found"

def addrNotFound (serviceName addr : GoString) : GoString :=
  str "addr " ++ addr ++ str " not found for service " ++ serviceName

def noAvailableServices (serviceName : GoString) : GoString :=
  str "no available services for " ++ serviceName

/-- The entry of an address, through both maps. -/
def entry (r : Registry) (serviceName addr : GoString) : Option ServiceInfo :=
  (r.servers.lookup serviceName).bind (·.lookup addr)

/-- `Register` reads the clock twice, first for `StartTime`. -/
def register (r : Registry) (serviceName addr : GoString) (metadata : StringMap)
    (startTime now : Int) : Registry :=
  let services := (r.servers.lookup serviceName).getD ∅
  let service : ServiceInfo := ⟨serviceName, addr, metadata, startTime, now⟩
  { r with servers := r.servers.insert serviceName (services.insert addr service) }

/-- The inner map of a service after a deletion from it: `if len(services) == 0` the service goes. -/
def putBack (servers : AList fun _ : GoString => Services) (serviceName : GoString)
    (services : Services) : AList fun _ : GoString => Services :=
  if services.entries.length = 0 then servers.erase serviceName
  else servers.insert serviceName services

def unregister (r : Registry) (serviceName addr : GoString) : Registry × Option GoString :=
  match r.servers.lookup serviceName with
  | none => (r, some (serviceNotFound serviceName))
  | some services =>
    if addr ∈ services then
      ({ r with servers := putBack r.servers serviceName (services.erase addr) }, none)
    else (r, some (addrNotFound serviceName addr))

def heartbeat (r : Registry) (serviceName addr : GoString) (now : Int) :
    Registry × Option GoString :=
  match r.servers.lookup serviceName with
  | none => (r, some (serviceNotFound serviceName))
  | some services =>
    match services.lookup addr with
    | none => (r, some (addrNotFound serviceName addr))
    | some service =>
      let services := services.insert addr { service with lastPing := now }
      ({ r with servers := r.servers.insert serviceName services }, none)

def isExpired (r : Registry) (serviceName addr : GoString) (now : Int) : Bool :=
  match r.servers.lookup serviceName with
  | none => true
  | some services =>
    match services.lookup addr with
    | none => true
    | some service => decide (now - service.lastPing > r.timeout)

def getService (r : Registry) (inner : RangeOrder GoString ServiceInfo) (serviceName : GoString) :
    Except GoString (List GoString) :=
  match r.servers.lookup serviceName with
  | none => .error (noAvailableServices serviceName)
  | some services =>
    if services.entries.length = 0 then .error (noAvailableServices serviceName)
    else .ok (inner.order services)

def getAllServices (r : Registry) (outer : RangeOrder GoString Services) : List GoString :=
  outer.order r.servers

/-- The body of the inner loop of `cleanExpiredServers`. -/
def sweepAddr (timeout now : Int) (services : Services) (addr : GoString) : Services :=
  match services.lookup addr with
  | none => services
  | some svc => if now - svc.lastPing > timeout then services.erase addr else services

/-- The body of its outer loop. -/
def sweepService (timeout now : Int) (inner : RangeOrder GoString ServiceInfo)
    (servers : AList fun _ : GoString => Services) (svcName : GoString) :
    AList fun _ : GoString => Services :=
  match servers.lookup svcName with
  | none => servers
  | some services =>
    putBack servers svcName ((inner.order services).foldl (sweepAddr timeout now) services)

/-- One round of `cleanExpiredServers`. -/
def cleanExpiredServers (r : Registry) (outer : RangeOrder GoString Services)
    (inner : RangeOrder GoString ServiceInfo) (now : Int) : Registry :=
  { r with servers := (outer.order r.servers).foldl (sweepService r.timeout now inner) r.servers }

end Registry

/-- The calls that change a registry, with the clock readings and iteration orders they meet. -/
inductive RegistryOp
  | register (serviceName addr : GoString) (metadata : StringMap) (startTime now : Int)
  | unregister (serviceName addr : GoString)
  | heartbeat (serviceName addr : GoString) (now : Int)
  | sweep (outer : RangeOrder GoString Services) (inner : RangeOrder GoString ServiceInfo)
      (now : Int)

def Registry.perform (r : Registry) : RegistryOp → Registry
  | .register serviceName addr metadata startTime now =>
    r.register serviceName addr metadata startTime now
  | .unregister serviceName addr => (r.unregister serviceName addr).1
  | .heartbeat serviceName addr now => (r.heartbeat serviceName addr now).1
  | .sweep outer inner now => r.cleanExpiredServers outer inner now

/-- What a call means for the set of registered pairs. -/
def RegistryOp.event : RegistryOp → TimedEvent (GoString × GoString)
  | .register serviceName addr _ _ now => .put (serviceName, addr) now
  | .unregister serviceName addr => .remove (serviceName, addr)
  | .heartbeat serviceName addr now => .touch (serviceName, addr) now
  | .sweep _ _ now => .expire now

end Zrpc
