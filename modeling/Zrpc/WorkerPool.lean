import Zrpc.ServerRun

/-!
# The worker pool of a server (`server.go`)

The loops of `serverWorker` over the state of the server's other goroutines. A worker polls
`workerFuncChannel`; an empty channel costs it one of its rounds, a closed and empty channel ends
it, and after `serverWorkerResetThreshold` rounds it starts another worker in its place.
-/

namespace Zrpc

variable {V T : Type}

def serverWorkerResetThreshold : Nat := 65536

inductive WorkerPc
  | polling (completed : Nat)
  | running (completed request : Nat)
  | returned
  deriving DecidableEq

structure PoolState where
  serve : ServeState
  workers : List WorkerPc
  /-- The requests whose functions were sent into `workerFuncChannel`. -/
  sent : List Nat

/-- `initFunctionWorkerPool` starts `minWorkerPoolSize` workers. -/
def PoolState.init (minWorkerPoolSize : Nat) : PoolState :=
  ⟨.init, List.replicate minWorkerPoolSize (.polling 0), []⟩

inductive PoolAction
  /-- A step of a goroutine that is no worker. -/
  | serve (a : ServeAction)
  | worker (w : Nat)
  /-- `monitorWorkerPool` or `quickScaleUp` starts a worker. -/
  | scaleUp

/-- The `select` of `serveRequest` sends into the channel. -/
def ServeState.sends (opt : ServerOption) (s : ServeState) : Bool :=
  opt.enableWorkerPool && !s.chanClosed && decide (s.queue.length < opt.taskQueueSize)

def PoolState.recordSent (opt : ServerOption) (s : PoolState) : ServeAction → List Nat
  | .dispatch i => if s.serve.sends opt then s.sent ++ [i] else s.sent
  | _ => s.sent

/-- A worker has received the function of request `i` and runs it. -/
def ServeState.receive (s : ServeState) (i : Nat) (queue : List Nat) : ServeState :=
  { s with queue := queue, executed := s.executed ++ [i] }

def poolStep (E : Env) (P : Proto V T) (S : Server V T) (c : ∀ md, EncodeChoice md)
    (s : PoolState) : PoolAction → Option PoolState
  | .serve .work => none
  | .serve a =>
    match serveStep E P S c s.serve a with
    | none => none
    | some t => some { s with serve := t, sent := s.recordSent S.opt a }
  | .worker w =>
    if s.serve.crashed then none
    else match s.workers[w]? with
      | some (.polling completed) =>
        if completed < serverWorkerResetThreshold then
          match s.serve.queue with
          | i :: queue =>
            some { s with
              serve := s.serve.receive i queue
              workers := s.workers.set w (.running completed i) }
          | [] =>
            some { s with
              workers := s.workers.set w
                (if s.serve.chanClosed then .returned else .polling (completed + 1)) }
        else some { s with workers := s.workers.set w .returned ++ [.polling 0] }
      | some (.running completed _) =>
        some { s with workers := s.workers.set w (.polling (completed + 1)) }
      | _ => none
  | .scaleUp =>
    -- both scale a multiple of `numWorkers`, which stays 0 if no worker was started
    if s.serve.crashed ∨ s.workers = [] then none
    else some { s with workers := s.workers ++ [.polling 0] }

end Zrpc
