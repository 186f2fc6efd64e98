import Zrpc.Lib.Exec
import Zrpc.Go

/-!
# Registration in etcd (`discovery/etcd/registry.go`)

The store holds the key of one `Registry` and the leases granted to it. A key that is put with a
lease goes when the lease goes; a key that is put without one stays. A request that fails at the
client may be lost, or reach the store at any later time.
-/

namespace Zrpc

open Zrpc.Lib

structure EtcdStore where
  /-- The leases granted to the registry that are neither expired nor revoked. -/
  live : List Nat
  granted : Nat
  /-- The service key, with the lease it is attached to. -/
  key : Option (Option Nat)
  deriving DecidableEq

inductive EtcdOp
  | grant
  | put (lease : Option Nat)
  | delete
  | revoke (lease : Nat)
  deriving DecidableEq

namespace EtcdStore

/-- A lease expires or is revoked: the key goes with it. -/
def drop (st : EtcdStore) (lease : Nat) : EtcdStore :=
  { st with
    live := st.live.filter (· ≠ lease),
    key := if st.key = some (some lease) then none else st.key }

/-- The store refuses to attach a key to a lease it does not have, or to revoke it. -/
def accepts (st : EtcdStore) : EtcdOp → Bool
  | .put (some lease) | .revoke lease => lease ∈ st.live
  | .grant | .put none | .delete => true

def apply (st : EtcdStore) (op : EtcdOp) : EtcdStore :=
  if st.accepts op then
    match op with
    | .grant => { st with live := st.live ++ [st.granted], granted := st.granted + 1 }
    | .put lease => { st with key := some lease }
    | .delete => { st with key := none }
    | .revoke lease => st.drop lease
  else st

end EtcdStore

inductive EtcdPc
  /-- In `RegisterService`, before the client, the lease, the manager and the key are made. -/
  | connect
  | grant
  | manager
  | addEndpoint
  /-- `RegisterService` has returned an error. -/
  | failed
  | keepAlive
  /-- In the `select` of `keepAlive`. -/
  | watch
  /-- In `reRegister`, before the lease and the key are made. -/
  | regrant
  | readdEndpoint
  /-- `keepAlive` has returned. -/
  | ended
  deriving DecidableEq

/-- The calls of one `Unregister` that are still to be made. -/
inductive EtcdUnregisterPc
  | cancel
  | delete
  | revoke
  | close
  | returned
  deriving DecidableEq

structure EtcdState where
  store : EtcdStore
  /-- Requests whose calls have failed and that may still reach the store. -/
  late : List EtcdOp
  leaseID : Nat
  pc : EtcdPc
  unregisters : List EtcdUnregisterPc
  /-- `r.cancel` was called. -/
  cancelled : Bool
  /-- The client is closed. -/
  closed : Bool
  crashed : Bool

def EtcdState.init : EtcdState := ⟨⟨[], 0, none⟩, [], 0, .connect, [], false, false, false⟩

inductive EtcdAction
  /-- The goroutine of `RegisterService` and `keepAlive` makes its next call, which returns no error
  or an error; in the `select` it receives a response, or finds the channel closed. -/
  | run (ok : Bool)
  /-- The `select` finds the context done. -/
  | contextDone
  | callUnregister
  | unregister (i : Nat) (ok : Bool)
  | crash
  | expire (lease : Nat)
  | deliver (j : Nat)

namespace EtcdState

/-- A call with the context of the registry; it is not sent when the context is cancelled. -/
def refused (s : EtcdState) : Bool := s.cancelled || s.closed

/-- A request is sent: whether its call returns no error, and the state after it. -/
def request (s : EtcdState) (op : EtcdOp) (ok : Bool) : Bool × EtcdState :=
  if ok && s.store.accepts op then (true, { s with store := s.store.apply op })
  else (false, { s with late := s.late ++ [op] })

/-- `keepAlive` calls `r.Unregister()` and returns. -/
def giveUp (s : EtcdState) : EtcdState :=
  { s with pc := .ended, unregisters := s.unregisters ++ [.cancel] }

/-- A call of `cli.Grant` that goes on at `next` with the new lease, or at `fails`. -/
def grantStep (s : EtcdState) (ok : Bool) (next : EtcdPc) (fails : EtcdState → EtcdState) :
    EtcdState :=
  if s.refused then fails s
  else match s.request .grant ok with
    | (true, s') => { s' with leaseID := s.store.granted, pc := next }
    | (false, s') => fails s'

/-- A call of `em.AddEndpoint`. -/
def addStep (s : EtcdState) (lease : Option Nat) (ok : Bool) (fails : EtcdState → EtcdState) :
    EtcdState :=
  if s.refused then fails s
  else match s.request (.put lease) ok with
    | (true, s') => { s' with pc := .keepAlive }
    | (false, s') => fails s'

def runStep (s : EtcdState) (ok : Bool) : Option EtcdState :=
  match s.pc with
  | .connect => some { s with pc := if ok then .grant else .failed }
  | .grant => some (s.grantStep ok .manager fun s => { s with pc := .failed })
  | .manager => some { s with pc := if ok then .addEndpoint else .failed }
  | .addEndpoint => some (s.addStep (some s.leaseID) ok fun s => { s with pc := .failed })
  | .keepAlive => some (if ok && !s.refused then { s with pc := .watch } else s.giveUp)
  | .watch => some { s with pc := if ok then .watch else .regrant }
  | .regrant => some (s.grantStep ok .readdEndpoint giveUp)
  -- The put of `reRegister` has no `WithLease`.
  | .readdEndpoint => some (s.addStep none ok giveUp)
  | .failed | .ended => none

/-- `RegisterService` has returned the registry. -/
def registered (s : EtcdState) : Bool :=
  match s.pc with
  | .connect | .grant | .manager | .addEndpoint | .failed => false
  | .keepAlive | .watch | .regrant | .readdEndpoint | .ended => true

/-- `Unregister` uses a context of its own and goes on after an error. -/
def unregisterStep (s : EtcdState) (pc : EtcdUnregisterPc) (ok : Bool) :
    Option (EtcdUnregisterPc × EtcdState) :=
  match pc with
  | .cancel => some (.delete, { s with cancelled := true })
  | .delete => some (.revoke, if s.closed then s else (s.request .delete ok).2)
  | .revoke => some (.close, if s.closed then s else (s.request (.revoke s.leaseID) ok).2)
  | .close => some (.returned, { s with closed := true })
  | .returned => none

def step (s : EtcdState) : EtcdAction → Option EtcdState
  | .run ok => if s.crashed then none else s.runStep ok
  | .contextDone =>
    if s.crashed = false ∧ s.pc = .watch ∧ s.cancelled = true then some { s with pc := .ended }
    else none
  | .callUnregister =>
    if s.crashed = false ∧ s.registered = true then
      some { s with unregisters := s.unregisters ++ [.cancel] }
    else none
  | .unregister i ok =>
    if s.crashed then none
    else s.unregisters[i]?.bind fun pc =>
      (s.unregisterStep pc ok).map fun (pc', s') =>
        { s' with unregisters := s.unregisters.set i pc' }
  | .crash => some { s with crashed := true }
  | .expire lease => some { s with store := s.store.drop lease }
  | .deliver j =>
    s.late[j]?.map fun op => { s with store := s.store.apply op, late := s.late.eraseIdx j }

end EtcdState

end Zrpc
