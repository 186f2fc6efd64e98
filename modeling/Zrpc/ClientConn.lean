import Zrpc.Call

/-!
# Connections and connection pools (`clientconn.go`)

The shared state of a client, and the atomic operations its goroutines perform on it: one channel
operation, one mutex-protected section or one store each. Connections and pools are named by their
index. A connection also carries what its two ends have written: the requests the client sent on
it, the server's answers in the order of the server's writes, and how far the client has read.
-/

namespace Zrpc

inductive ConnStatus
  | idle
  | inUse
  | closed
  deriving DecidableEq

/-- A request frame on a connection: the goroutine that sent it, and its sequence number. -/
structure SentRequest where
  sender : Nat
  seq : UInt64

/-- A response frame on a connection, and the request it answers. -/
structure Answer where
  request : Nat
  frame : Bytes

structure ClientConn where
  pool : Nat
  status : ConnStatus
  /-- `Close` has closed the socket. -/
  sockClosed : Bool
  sent : List SentRequest
  answers : List Answer
  /-- The number of bytes the client has read. -/
  pos : Nat

namespace ClientConn

def new (pool : Nat) : ClientConn := ⟨pool, .idle, false, [], [], 0⟩

/-- The bytes the server has written. -/
def stream (c : ClientConn) : Bytes := c.answers.flatMap Answer.frame

def close (c : ClientConn) : ClientConn :=
  if c.status = .closed then c else { c with status := .closed, sockClosed := true }

end ClientConn

structure ConnPool where
  size : Nat
  /-- An `int32` of the source. It changes by one for a connection that was dialled or closed, so it
  would wrap only after `2 ^ 31` of them. -/
  created : Int
  /-- `createNewConn` has dialled and not yet released `p.mu`. -/
  locked : Bool
  hotQueue : List Nat
  hotClosed : Bool
  coldQueue : List Nat
  conns : List Nat
  closed : Bool

/-- A pool of at least one connection: for a smaller size the `make` of `coldQueue` panics. -/
def newConnPool (size : Nat) : ConnPool := ⟨size, 0, false, [], false, [], [], false⟩

def ConnPool.hotQueueSize (p : ConnPool) : Nat := if p.size / 2 < 1 then 1 else p.size / 2

/-- The test `created < int32(p.size)`. -/
def ConnPool.mayCreate (p : ConnPool) : Bool := p.created < int32 p.size

def prewarmCount (size : Nat) : Nat := if size / 4 < 1 then 1 else size / 4

structure ClientShared where
  connPools : List ConnPool
  /-- The map `pools` from targets to pools. -/
  pools : AList (fun _ : GoString => Nat)
  conns : List ClientConn
  calls : Calls
  closing : Bool
  /-- `c.mu` is held across several steps. -/
  muHeld : Bool
  panicked : Bool

def ClientShared.init : ClientShared := ⟨[], ∅, [], ⟨0, ∅⟩, false, false, false⟩

/-- One atomic operation on the shared state. -/
inductive ClientOp
  | nop
  | recvHot (p : Nat)
  | sendHot (p c : Nat)
  | popCold (p : Nat)
  | pushCold (p c : Nat)
  | dial (p : Nat)
  /-- The dial of `createNewConn`, which has taken `p.mu`. -/
  | create (p : Nat)
  /-- The end of `createNewConn`, which lets go of `p.mu`. -/
  | count (p c : Nat)
  | addPrewarmed (p c : Nat)
  | mark (c : Nat) (status : ConnStatus)
  | close (c : Nat)
  | closeCounted (p c : Nat)
  | decrement (p : Nat)
  | newPool (target : GoString) (size : Nat)
  | number (seq : UInt64)
  | unregister (seq : UInt64)
  | send (c : Nat) (r : SentRequest)
  | read (c n : Nat)
  | lock (closing : Bool)
  | unlock (clear : Bool)
  | closePool (p : Nat)
  | closeHot (p : Nat)
  | resetCreated (p : Nat)
  | removePool (target : GoString)
  | panic

namespace ClientShared

def onPool (s : ClientShared) (p : Nat) (f : ConnPool → ConnPool) : ClientShared :=
  { s with connPools := s.connPools.modify p f }

def onConn (s : ClientShared) (c : Nat) (f : ClientConn → ClientConn) : ClientShared :=
  { s with conns := s.conns.modify c f }

def addConn (s : ClientShared) (p : Nat) : ClientShared :=
  { s with conns := s.conns ++ [.new p] }

def apply (s : ClientShared) : ClientOp → ClientShared
  | .nop => s
  | .recvHot p => s.onPool p (fun q => { q with hotQueue := q.hotQueue.tail })
  | .sendHot p c => s.onPool p (fun q => { q with hotQueue := q.hotQueue ++ [c] })
  | .popCold p => s.onPool p (fun q => { q with coldQueue := q.coldQueue.dropLast })
  | .pushCold p c => s.onPool p (fun q => { q with coldQueue := q.coldQueue ++ [c] })
  | .dial p => s.addConn p
  | .create p => (s.addConn p).onPool p (fun q => { q with locked := true })
  | .count p c => s.onPool p (fun q =>
      { q with conns := q.conns ++ [c], created := q.created + 1, locked := false })
  | .addPrewarmed p c => s.onPool p (fun q =>
      { q with
        conns := q.conns ++ [c]
        created := q.created + 1
        coldQueue := q.coldQueue ++ [c] })
  | .mark c status => s.onConn c (fun k => { k with status := status })
  | .close c => s.onConn c ClientConn.close
  | .closeCounted p c =>
    (s.onConn c ClientConn.close).onPool p (fun q => { q with created := q.created - 1 })
  | .decrement p => s.onPool p (fun q => { q with created := q.created - 1 })
  | .newPool target size =>
    { s with
      connPools := s.connPools ++ [newConnPool size]
      pools := s.pools.insert target s.connPools.length }
  | .number seq => { s with calls := ⟨seq, s.calls.pending.insert seq seq⟩ }
  | .unregister seq => { s with calls := ⟨s.calls.sequence, s.calls.pending.erase seq⟩ }
  | .send c r => s.onConn c (fun k => { k with sent := k.sent ++ [r] })
  | .read c n => s.onConn c (fun k => { k with pos := k.pos + n })
  | .lock closing => { s with muHeld := true, closing := s.closing || closing }
  | .unlock clear =>
    { s with
      muHeld := false
      calls := if clear then ⟨s.calls.sequence, ∅⟩ else s.calls }
  | .closePool p => s.onPool p (fun q => { q with closed := true, conns := [], coldQueue := [] })
  | .closeHot p => s.onPool p (fun q => { q with hotClosed := true })
  | .resetCreated p => s.onPool p (fun q => { q with created := 0 })
  | .removePool target => { s with pools := s.pools.erase target }
  | .panic => { s with panicked := true }

end ClientShared

/-! ### Outcomes the environment chooses -/

/-- What `isHealthy` finds on a connection that is not closed: its age and idle time, and the outcome
of the ping, which tries to read one byte. Bytes of the server may still be on their way. -/
inductive Health
  | fresh
  | tooOld
  | pingTimeout
  | pingByte
  | pingError

inductive Input
  | go
  | fail (err : GoString)
  | addr (target : GoString)
  | deadline (left : Int)
  | health (h : Health)
  | read (k : Nat) (failure : GoString)
  | targets (order : List GoString)

/-- The health check of connection `c`: its verdict and what it reads. -/
def isHealthy (k : ClientConn) (c : Nat) (h : Health) : Option (ClientOp × Bool) :=
  if k.status = .closed then some (.nop, false)
  else match h with
    | .fresh => some (.nop, true)
    | .tooOld => some (.nop, false)
    | .pingTimeout => if k.sockClosed then none else some (.nop, true)
    | .pingByte =>
      if k.sockClosed = false ∧ k.pos < k.stream.length then some (.read c 1, true) else none
    | .pingError => some (.nop, false)

/-! ### Taking a connection -/

def errClientConnClosing : GoString := str "zrpc: the client connection is closing"
def errNoAvailableConn : GoString := str "zrpc: no available connection"
def errMaxRetryExceeded : GoString := str "zrpc: max retry exceeded"

/-- Where in `get` a connection was found. -/
inductive GetStage
  | first
  | cold
  | second
  | waiting (i : Nat)

inductive GetPc
  | closedCheck
  | recvFirst
  | check (stage : GetStage) (c : Nat)
  | health (stage : GetStage) (c : Nat)
  | mark (c : Nat)
  | release (stage : GetStage) (c : Nat)
  | decrement (stage : GetStage)
  | load
  | create (again : Bool)
  | count (c : Nat)
  | popCold
  | recvSecond
  | reload
  | wait (i : Nat)

inductive GetOut
  | next (pc : GetPc)
  | got (c : Nat)
  | failed (err : GoString)

/-- Where `get` goes on after an unhealthy connection. -/
def GetStage.next : GetStage → GetPc
  | .first => .load
  | .cold => .recvSecond
  | .second => .reload
  | .waiting i => .wait (i + 1)

/-- A receive from `hotQueue` without waiting; a closed empty channel delivers nil. -/
def recvHotQueue (p : Nat) (q : ConnPool) (stage : GetStage) : ClientOp × GetOut :=
  match q.hotQueue with
  | c :: _ => (.recvHot p, .next (.check stage c))
  | [] => (.nop, .next stage.next)

/-- One step of `get`, `createNewConn` or `releaseConn` on pool `p`. What is done under `p.mu` waits
until it is free. -/
def getStep (s : ClientShared) (p : Nat) (pc : GetPc) (inp : Input) : Option (ClientOp × GetOut) :=
  match s.connPools[p]? with
  | none => none
  | some q =>
    match pc with
    | .closedCheck => some (.nop, if q.closed then .failed errClientConnClosing else .next .recvFirst)
    | .recvFirst => some (recvHotQueue p q .first)
    | .check stage c =>
      match s.conns[c]? with
      | none => none
      | some k =>
        some (.nop, .next (if k.status = .closed then .release stage c else .health stage c))
    | .health stage c =>
      match s.conns[c]?, inp with
      | some k, .health h =>
        match isHealthy k c h with
        | some (op, healthy) => some (op, .next (if healthy then .mark c else .release stage c))
        | none => none
      | _, _ => none
    | .mark c => some (.mark c .inUse, .got c)
    | .release stage c => some (.close c, .next (.decrement stage))
    | .decrement stage => some (.decrement p, .next stage.next)
    | .load => some (.nop, .next (if q.mayCreate then .create false else .popCold))
    | .create again =>
      let rest := if again then .wait 0 else .popCold
      if q.locked then none
      else if q.mayCreate then
        match inp with
        | .go => some (.create p, .next (.count s.conns.length))
        | .fail _ => some (.nop, .next rest)
        | _ => none
      else some (.nop, .next rest)
    | .count c => some (.count p c, .next (.mark c))
    | .popCold =>
      if q.locked then none
      else match q.coldQueue.getLast? with
        | some c => some (.popCold p, .next (.check .cold c))
        | none => some (.nop, .next .recvSecond)
    | .recvSecond => some (recvHotQueue p q .second)
    | .reload =>
      if q.locked then none
      else some (.nop, .next (if q.mayCreate then .create true else .wait 0))
    | .wait i =>
      if 5 ≤ i then some (.nop, .failed errNoAvailableConn)
      else match inp with
        | .go => if q.hotQueue = [] ∧ q.hotClosed = false then none
            else some (recvHotQueue p q (.waiting i))
        | .fail _ => some (.nop, .next (.wait (i + 1)))
        | _ => none

/-! ### Returning a connection -/

inductive PutPc
  | check (c : Nat)
  | markIdle (c : Nat)
  | sendHot (c : Nat)
  | pushCold (c : Nat)

/-- One step of `put` on pool `p`; `none` as the next point means that `put` returns. -/
def putStep (s : ClientShared) (p : Nat) (pc : PutPc) : Option (ClientOp × Option PutPc) :=
  match s.connPools[p]? with
  | none => none
  | some q =>
    match pc with
    | .check c =>
      match s.conns[c]? with
      | none => none
      | some k => some (.nop, if k.status = .closed then none else some (.markIdle c))
    | .markIdle c => some (.mark c .idle, some (.sendHot c))
    | .sendHot c =>
      if q.hotClosed then some (.panic, none)
      else if q.hotQueue.length < q.hotQueueSize then some (.sendHot p c, none)
      else some (.nop, some (.pushCold c))
    | .pushCold c =>
      if q.locked then none
      else if q.closed then some (.closeCounted p c, none)
      else some (.pushCold p c, none)

end Zrpc
