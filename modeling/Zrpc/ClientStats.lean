import Zrpc.ClientRun
import Zrpc.Lib.Brackets

/-!
# Stats events of a client (`call.go`, `stats/`)

The run of a client with what `invoke` passes to `HandleRPC` of each stats handler. An event is
emitted in the step that performs the statement before or behind it.
-/

namespace Zrpc

open Zrpc.Lib

variable {V T : Type}

/-- The events of `invoke`, with the fields that pair them. -/
inductive RPCStats
  | Begin (beginTime : Int)
  | OutHeader
  | OutPayload
  | InPayload
  | End (beginTime endTime : Int) (error : Option GoString)
  deriving DecidableEq

def RPCStats.bracket : RPCStats → Bracket Int
  | .Begin beginTime => .opens beginTime
  | .End beginTime _ _ => .closes beginTime
  | .OutHeader | .OutPayload | .InPayload => .neutral

/-- The event that a step of `invoke` emits, given the value of its variable `beginTime` and the
time of the step. -/
def InvokeThread.event (t t' : InvokeThread T) (beginTime now : Int) : Option RPCStats :=
  match t.pc with
  | .top => match t'.pc with
    | .discover => some (.Begin now)
    | _ => none
  | .discover => match t'.pc with
    | .top => some (.End beginTime now t'.lastErr)
    | _ => none
  -- The error branch of `pool.get` has no event.
  | .get _ _ => none
  | .newCall | .closingCheck => match t'.pc with
    | .unwind (.error err) => some (.End beginTime now (some err))
    | _ => none
  | .number => match t'.pc with
    | .write _ => some .OutHeader
    | _ => none
  | .write _ => match t'.pc with
    | .recv => some .OutPayload
    | _ => none
  | .closeConn err => some (.End beginTime now (some err))
  | .finish _ => match t'.pc with
    | .put _ _ (.ok _) => some .InPayload
    | _ => none
  | .put _ _ (.error err) => match t'.pc with
    | .top => some (.End beginTime now (some err))
    | _ => none
  | .put _ _ (.ok _) => match t'.pc with
    | .unwind _ => some (.End beginTime now none)
    | _ => none
  | .lookup _ | .insert _ | .prepare | .unregister _ _ | .recv | .settle _ | .unwind _
  | .unwindPut _ _ _ | .done _ => none

/-- The assignment `beginTime = time.Now()` at the start of an attempt. -/
def InvokeThread.newBeginTime (t t' : InvokeThread T) (beginTime now : Int) : Int :=
  match t.pc, t'.pc with
  | .top, .discover => now
  | _, _ => beginTime

/-- The loop `for _, sh := range c.opt.statsHandlers` around `sh.HandleRPC`. -/
def handleRPC (handlers : Nat) (event : Option RPCStats) : List (Nat × RPCStats) :=
  match event with
  | none => []
  | some e => (List.range handlers).map fun sh => (sh, e)

/-- A client with the variable `beginTime` and the calls of `HandleRPC` of each goroutine. -/
structure StatsState (T : Type) where
  client : ClientState T
  beginTime : Nat → Int
  calls : Nat → List (Nat × RPCStats)

def StatsState.init : StatsState T := ⟨.init, fun _ => 0, fun _ => []⟩

/-- What one handler has seen of a goroutine. -/
def StatsState.seen (s : StatsState T) (i sh : Nat) : List RPCStats :=
  ((s.calls i).filter (·.1 = sh)).map (·.2)

/-- A step of the client at time `now`. -/
def statsStep (cfg : ClientConfig V T) (handlers : Nat) (s : StatsState T)
    (a : ClientAction T × Int) : Option (StatsState T) :=
  match clientStep cfg s.client a.1 with
  | none => none
  | some client =>
    match a.1 with
    | .run i _ =>
      match s.client.threads[i]?, client.threads[i]? with
      | some (.invoke t), some (.invoke t') =>
        -- A step that panics does not reach the event behind it.
        let event := if client.shared.panicked then none else t.event t' (s.beginTime i) a.2
        some {
          client := client
          beginTime := Function.update s.beginTime i (t.newBeginTime t' (s.beginTime i) a.2)
          calls := Function.update s.calls i (s.calls i ++ handleRPC handlers event) }
      | _, _ => some { s with client := client }
    | _ => some { s with client := client }

end Zrpc
