import Zrpc.Go
import Zrpc.Lib.LastWrite

/-!
# Services in etcd (`discovery/etcd/registry.go`, `discovery/etcd/discovery.go`)

The store maps a key to the `Addr` of the endpoint that was put under it last. Leases are left out
here: every registration is still there.
-/

namespace Zrpc

open Zrpc.Lib

/-- The arguments of one `RegisterService`. -/
structure EtcdService where
  serviceName : GoString
  serviceAddr : GoString
  deriving DecidableEq

/-- The `key` of `RegisterService`. -/
def EtcdService.key (r : EtcdService) : GoString :=
  str "service/" ++ r.serviceName ++ str "/" ++ r.serviceAddr

abbrev EtcdKeys := AList (fun _ : GoString => GoString)

def etcdKeys (registrations : List EtcdService) : EtcdKeys :=
  putAll EtcdService.key EtcdService.serviceAddr ∅ registrations

namespace EtcdDiscovery

def getKeyPrefix (serviceName : GoString) : GoString :=
  str "service/" ++ serviceName ++ str "/"

/-- The answer `resp.Kvs` to a `Get` with `clientv3.WithPrefix()`: the keys with the given bytes in
front, in any order. -/
def Answers (store : EtcdKeys) (keyPrefix : GoString)
    (kvs : List (Sigma fun _ : GoString => GoString)) : Prop :=
  kvs.Perm (store.entries.filter fun kv => keyPrefix.isPrefixOf kv.1)

/-- The `servers` that `Refresh` makes of the answer. -/
def refresh (kvs : List (Sigma fun _ : GoString => GoString)) : List GoString := kvs.map (·.2)

end EtcdDiscovery

end Zrpc
