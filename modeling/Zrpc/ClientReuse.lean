import Zrpc.ServiceHeartbeat

/-!
# Registering again with one client (`registry/tcp_client.go`)

The calls of `Register` and `Unregister` on one `TcpClient`, as far as they succeed, with the
heartbeat loops they start and stop. The registry can be reached all the time, and others use it
too.
-/

namespace Zrpc

open Zrpc.Lib

/-- Where a goroutine of `heartbeat` is between its exchanges. -/
inductive HeartbeatLoop
  /-- In the `select`. -/
  | selecting
  | returned
  deriving DecidableEq

structure ReusedClient where
  registry : Registry
  /-- The fields that `Register` sets. -/
  fields : Registration
  /-- The channel `done`, made by `NewTcpClient`, is closed. -/
  done : Bool
  loops : List HeartbeatLoop
  /-- The last call that succeeded was a `Register`. -/
  registered : Bool
  panicked : Bool

def newTcpClient (r : Registry) : ReusedClient := ⟨r, ⟨[], [], none⟩, false, [], false, false⟩

/-- Steps with the time and the iteration orders of the registry they meet. -/
inductive ReuseAction
  | register (c : Registration) (o : Orders) (now : Int)
  | unregister (o : Orders) (now : Int)
  /-- Loop `i` receives from its ticker, or from `done`. -/
  | beat (i : Nat) (o : Orders) (now : Int)
  | stop (i : Nat)
  /-- Another client, a checker or the sweeper. -/
  | registry (op : RegistryOp)

namespace ReusedClient

def register (s : ReusedClient) (c : Registration) (o : Orders) (now : Int) : Option ReusedClient :=
  let (r, resp) := s.registry.serve o now c.registerCmd
  if resp.success then
    some { s with registry := r, fields := c, loops := s.loops ++ [.selecting], registered := true }
  else none

/-- The statement `close(c.done)`. -/
def closeDone (s : ReusedClient) : ReusedClient :=
  if s.done then { s with panicked := true } else { s with done := true, registered := false }

def unregister (s : ReusedClient) (o : Orders) (now : Int) : Option ReusedClient :=
  if s.fields.unset then none
  else
    let (r, resp) := s.registry.serve o now s.fields.unregisterCmd
    if resp.success then some { s with registry := r }.closeDone else none

/-- A heartbeat, and `reregister` if it fails. -/
def beat (s : ReusedClient) (o : Orders) (now : Int) : ReusedClient :=
  let (r, resp) := s.registry.serve o now s.fields.heartbeatCmd
  if resp.success ∨ s.fields.unset then { s with registry := r }
  else { s with registry := (r.serve o now s.fields.registerCmd).1 }

def step (s : ReusedClient) (a : ReuseAction) : Option ReusedClient :=
  if s.panicked then none
  else match a with
    | .register c o now => s.register c o now
    | .unregister o now => s.unregister o now
    | .beat i o now => if s.loops[i]? = some .selecting then some (s.beat o now) else none
    | .stop i =>
      if s.loops[i]? = some .selecting ∧ s.done then
        some { s with loops := s.loops.set i .returned }
      else none
    | .registry op => some { s with registry := s.registry.perform op }

end ReusedClient

end Zrpc
