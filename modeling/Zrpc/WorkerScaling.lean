import Zrpc.Go
import Zrpc.Lib.Exec
import Zrpc.Lib.Float64
import Zrpc.WorkerPool

/-!
# The number of workers of a server (`server.go`)

The counter `numWorkers` and the goroutines that read and write it: the workers, which start their
successors, the goroutines that replace a worker after a panic, `monitorWorkerPool`, and any number
of calls of `quickScaleUp`. Each step of the model is one atomic access to the counter, one `go`
statement or one return. The load of the server is an input: a worker's round, and the readings of
the monitor, may be any.
-/

namespace Zrpc

open Zrpc.Lib

/-- `int32(x)` for a `float64` with the whole part `x`. If that does not fit, the result depends on
the implementation. -/
structure FloatToInt32 where
  conv : Int → Int
  inRange : ∀ x, -2 ^ 31 ≤ conv x ∧ conv x < 2 ^ 31
  conv_eq : ∀ x, -2 ^ 31 ≤ x → x < 2 ^ 31 → conv x = x

/-- The options of the pool; `NewServer` panics on a negative `maxWorkerPoolSize`. -/
structure ScalingConfig where
  minWorkerPoolSize : Int
  maxWorkerPoolSize : Int
  max_nonneg : 0 ≤ maxWorkerPoolSize

inductive ScaledWorkerPc
  /-- In the loop, after `completed` rounds. -/
  | polling (completed : Nat)
  /-- In `workerCreator`, before its `go` statement. -/
  | creating (nextID : Int)
  /-- The successor is started. -/
  | leaving
  | returned
  deriving DecidableEq

/-- A worker replaces itself by its successor. -/
def ScaledWorkerPc.recycles : ScaledWorkerPc → Bool
  | .creating _ | .leaving => true
  | .polling _ | .returned => false

structure ScaledWorker where
  workerID : Int
  pc : ScaledWorkerPc
  deriving DecidableEq

inductive MonitorPc
  | waiting
  /-- The tick has come and the server was not shutting down. -/
  | measuring
  /-- In the loop over `adjustment`, with the workers that are still to be added. -/
  | adding (left : Nat) (targetWorkers : Int)
  | starting (nextID : Int) (left : Nat) (targetWorkers : Int)
  /-- Before the store of a smaller number. -/
  | shrinking (targetWorkers : Int)
  | returned
  deriving DecidableEq

inductive QuickScaleUpPc
  | loading
  | swapping (currentWorkers targetWorkers : Int)
  /-- Before `s.mu.Lock()`, with the workers that are still to be added. -/
  | locking (left : Nat)
  /-- In a batch of which `batch` workers are still to be added, before `left` others. -/
  | adding (batch left : Nat)
  | starting (nextID : Int) (batch left : Nat)
  | returned
  deriving DecidableEq

/-- The goroutine of `go s.workerCreator()`. -/
inductive ReplacementPc
  | adding
  | starting (nextID : Int)
  | returned
  deriving DecidableEq

/-- What the monitor reads: `currentLoad > 0.8 || idleWorkerRatio < 0.2`, or if not that
`currentLoad < 0.2 && idleWorkerRatio > 0.8`, or neither. -/
inductive LoadReading
  | high
  | low
  | normal
  deriving DecidableEq

structure ScalingState where
  numWorkers : Int
  workers : List ScaledWorker
  monitor : MonitorPc
  quickScaleUps : List QuickScaleUpPc
  replacements : List ReplacementPc
  /-- A batch of `quickScaleUp` holds `s.mu`. -/
  muHeld : Bool
  inShutdown : Bool
  /-- `workerFuncChannel` is closed. -/
  chanClosed : Bool
  deriving DecidableEq

inductive ScalingAction
  /-- A worker goes on; in the loop it takes one round. -/
  | worker (w : Nat)
  /-- A worker finds the channel closed. -/
  | exit (w : Nat)
  /-- A panic that the function around the request does not recover. -/
  | panic (w : Nat)
  | replacement (i : Nat)
  | tick
  | reading (r : LoadReading)
  /-- The monitor makes the next step of an adjustment. -/
  | monitor
  | callQuickScaleUp
  | quickScaleUp (i : Nat)
  | startShutdown
  | closeChannel
  deriving DecidableEq

namespace ScalingState

/-- `atomic.AddInt32(&s.numWorkers, 1)` -/
def increment (s : ScalingState) : ScalingState := { s with numWorkers := int32 (s.numWorkers + 1) }

/-- `int(atomic.AddInt32(&s.numWorkers, 1) - 1)` -/
def nextID (s : ScalingState) : Int := int32 (int32 (s.numWorkers + 1) - 1)

/-- `go s.serverWorker(nextID)` -/
def start (s : ScalingState) (nextID : Int) : ScalingState :=
  { s with workers := s.workers ++ [⟨nextID, .polling 0⟩] }

def workerCreator (s : ScalingState) : ScalingState := s.increment.start s.nextID

/-- The state in which `NewServer` returns. -/
def initFunctionWorkerPool (C : ScalingConfig) : ScalingState :=
  let s : ScalingState := ⟨int32 C.minWorkerPoolSize, [], .waiting, [], [], false, false, false⟩
  workerCreator^[C.minWorkerPoolSize.toNat] s

def setWorker (s : ScalingState) (w : Nat) (pc : ScaledWorkerPc) : ScalingState :=
  { s with workers := s.workers.modify w fun x => { x with pc } }

def setQuick (s : ScalingState) (i : Nat) (pc : QuickScaleUpPc) : ScalingState :=
  { s with quickScaleUps := s.quickScaleUps.set i pc }

def setReplacement (s : ScalingState) (i : Nat) (pc : ReplacementPc) : ScalingState :=
  { s with replacements := s.replacements.set i pc }

/-- `serverWorker` goes on. A round ends with the end of a function, or with a sleep when there is
none. -/
def serverWorker (s : ScalingState) (w : Nat) : ScaledWorkerPc → Option ScalingState
  | .polling completed =>
    if completed < serverWorkerResetThreshold then some (s.setWorker w (.polling (completed + 1)))
    else some (s.increment.setWorker w (.creating s.nextID))
  | .creating nextID => some ((s.setWorker w .leaving).start nextID)
  | .leaving => some (s.setWorker w .returned)
  | .returned => none

end ScalingState

/-- `int(float64(n) * 1.2)` -/
def sixFifths (n : Int) : Int := mulTrunc 5404319552844595 52 n

/-- `int(float64(n) * 0.8)` -/
def fourFifths (n : Int) : Int := mulTrunc 7205759403792794 53 n

/-- The `targetWorkers` of one round of the monitor. -/
def monitorTarget (F : FloatToInt32) (C : ScalingConfig) (currentWorkers : Int) :
    LoadReading → Int
  | .high =>
    if currentWorkers < int32 C.maxWorkerPoolSize then
      let targetWorkers := F.conv (sixFifths currentWorkers)
      if int32 C.maxWorkerPoolSize < targetWorkers then int32 C.maxWorkerPoolSize
      else targetWorkers
    else currentWorkers
  | .low =>
    if int32 C.minWorkerPoolSize < currentWorkers then
      let targetWorkers := F.conv (fourFifths currentWorkers)
      if targetWorkers < int32 C.minWorkerPoolSize then int32 C.minWorkerPoolSize
      else targetWorkers
    else currentWorkers
  | .normal => currentWorkers

/-- What the monitor does after a reading. -/
def monitorAdjust (F : FloatToInt32) (C : ScalingConfig) (currentWorkers : Int)
    (r : LoadReading) : MonitorPc :=
  let targetWorkers := monitorTarget F C currentWorkers r
  if targetWorkers ≠ currentWorkers then
    let adjustment := int32 (targetWorkers - currentWorkers)
    if 0 < adjustment then .adding adjustment.toNat targetWorkers
    else if adjustment < 0 then .shrinking targetWorkers
    else .waiting
  else .waiting

/-- `quickScaleUp` up to its `CompareAndSwapInt32`. -/
def quickScaleUpTarget (C : ScalingConfig) (currentWorkers : Int) : QuickScaleUpPc :=
  if C.maxWorkerPoolSize ≤ currentWorkers then .returned
  else
    let maxAllowed := C.maxWorkerPoolSize
    let targetWorkers := sixFifths currentWorkers
    let targetWorkers := if maxAllowed < targetWorkers then maxAllowed else targetWorkers
    let workersToAdd := targetWorkers - currentWorkers
    if workersToAdd ≤ 0 then .returned else .swapping currentWorkers targetWorkers

def batchSize : Nat := 10

namespace ScalingState

def monitorWorkerPool (s : ScalingState) : Option ScalingState :=
  match s.monitor with
  | .adding (left + 1) targetWorkers =>
    some { s.increment with monitor := .starting s.nextID left targetWorkers }
  | .starting nextID left targetWorkers =>
    some { s.start nextID with monitor := .adding left targetWorkers }
  | .adding 0 targetWorkers | .shrinking targetWorkers =>
    some { s with numWorkers := targetWorkers, monitor := .waiting }
  | .waiting | .measuring | .returned => none

def quickScaleUp (C : ScalingConfig) (s : ScalingState) (i : Nat) :
    QuickScaleUpPc → Option ScalingState
  | .loading => some (s.setQuick i (quickScaleUpTarget C s.numWorkers))
  | .swapping currentWorkers targetWorkers =>
    if s.numWorkers = int32 currentWorkers then
      let workersToAdd := (targetWorkers - currentWorkers).toNat
      some { s.setQuick i (.locking workersToAdd) with numWorkers := int32 targetWorkers }
    else some (s.setQuick i .returned)
  | .locking left =>
    if s.muHeld then none
    else
      let currentBatch := if left < batchSize then left else batchSize
      some { s.setQuick i (.adding currentBatch (left - currentBatch)) with muHeld := true }
  | .adding (batch + 1) left => some (s.increment.setQuick i (.starting s.nextID batch left))
  | .starting nextID batch left => some ((s.start nextID).setQuick i (.adding batch left))
  | .adding 0 left =>
    some { s.setQuick i (if 0 < left then .locking left else .returned) with muHeld := false }
  | .returned => none

def replacement (s : ScalingState) (i : Nat) : ReplacementPc → Option ScalingState
  | .adding => some (s.increment.setReplacement i (.starting s.nextID))
  | .starting nextID => some ((s.start nextID).setReplacement i .returned)
  | .returned => none

end ScalingState

def scalingStep (F : FloatToInt32) (C : ScalingConfig) (s : ScalingState) :
    ScalingAction → Option ScalingState
  | .worker w => s.workers[w]?.bind fun x => s.serverWorker w x.pc
  | .exit w =>
    match s.workers[w]? with
    | some ⟨_, .polling completed⟩ =>
      if s.chanClosed ∧ completed < serverWorkerResetThreshold then some (s.setWorker w .returned)
      else none
    | _ => none
  | .panic w =>
    match s.workers[w]? with
    | some ⟨_, .polling completed⟩ =>
      if completed < serverWorkerResetThreshold then
        let t := s.setWorker w .returned
        some { t with replacements := t.replacements ++ [.adding] }
      else none
    | _ => none
  | .replacement i => s.replacements[i]?.bind fun pc => s.replacement i pc
  | .tick =>
    if s.monitor = .waiting then
      some { s with monitor := if s.inShutdown then .returned else .measuring }
    else none
  | .reading r =>
    if s.monitor = .measuring then
      some { s with monitor := monitorAdjust F C s.numWorkers r }
    else none
  | .monitor => s.monitorWorkerPool
  | .callQuickScaleUp => some { s with quickScaleUps := s.quickScaleUps ++ [.loading] }
  | .quickScaleUp i => s.quickScaleUps[i]?.bind fun pc => s.quickScaleUp C i pc
  | .startShutdown => some { s with inShutdown := true }
  | .closeChannel => if s.inShutdown then some { s with chanClosed := true } else none

namespace ScalingState

def liveWorkers (s : ScalingState) : List ScaledWorker := s.workers.filter fun x => x.pc ≠ .returned

/-- No adjustment of the pool is in progress. -/
def Settled (s : ScalingState) : Prop :=
  (s.monitor = .waiting ∨ s.monitor = .measuring ∨ s.monitor = .returned) ∧
  (∀ pc ∈ s.quickScaleUps, pc = .loading ∨ pc = .returned) ∧
  (∀ pc ∈ s.replacements, pc = .returned) ∧
  ∀ x ∈ s.workers, x.pc.recycles = false

instance (s : ScalingState) : Decidable s.Settled := instDecidableAnd

end ScalingState

end Zrpc
