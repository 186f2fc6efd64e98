import Zrpc.CachedDiscovery
import Zrpc.TcpClient

/-!
# Discovery at a TCP registry (`discovery/memory/zrpc_discovery.go`)

A `RegistryDiscovery` asks a `TcpRegistry` with `TcpClient.GetService`. The calls of one discovery
share a `TcpClient`, but all of them ask for the same service, so a call that reads the response to
another's request reads an answer to its own. Clocks are those of one machine.
-/

namespace Zrpc

/-- The registry, and when `cleanExpiredServers` last went over it. -/
structure SweptRegistry where
  registry : TcpRegistry
  lastSweep : Int

def SweptRegistry.step (b : SweptRegistry) (a : TcpRegistryAction) : Option SweptRegistry :=
  match b.registry.step a with
  | none => none
  | some r =>
    match a with
    | .sweep _ => some ⟨r, b.registry.now⟩
    | .tick _ | .request _ _ | .startSweeper | .check _ | .stop _ | .close => some ⟨r, b.lastSweep⟩

/-- `d.tcpClient.GetService(d.serviceName)`, with the iteration orders of the registry's maps and
the way TCP cuts the two messages. -/
def SweptRegistry.getService (J : RegistryCodec) (serviceName : GoString) (o : Orders × Cut)
    (b : SweptRegistry) : Except GoString (List GoString) :=
  if b.registry.crashed then .error (str "连接注册中心失败: ")
  else TcpClient.getService J (b.registry.registry.network J o.1 b.registry.now o.2) serviceName

def registryBackend (J : RegistryCodec) (serviceName : GoString) :
    Backend SweptRegistry TcpRegistryAction (Orders × Cut) where
  step := SweptRegistry.step
  clock b := b.registry.now
  query := SweptRegistry.getService J serviceName

def newSweptRegistry (keepaliveSec now : Int) : SweptRegistry :=
  ⟨newTcpRegistry keepaliveSec now, now⟩

end Zrpc
