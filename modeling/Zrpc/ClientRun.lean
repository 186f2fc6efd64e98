import Zrpc.ClientConn
import Zrpc.Lib.Exec

/-!
# The goroutines of a client (`call.go`, `client.go`, `clientconn.go`)

Each goroutine is a program counter with its local variables; one step of it performs one
operation on the shared state. Beside the goroutines acts the server, which answers request frames
in any order.
-/

namespace Zrpc

variable {V T : Type}

structure ClientConfig (V T : Type) where
  env : Env
  proto : Proto V T
  maxRetries : Int
  maxPoolSize : Nat
  maxReceiveMessageSize : Int
  /-- `DialWithMaxPoolSize` does not check its argument; with less than one the first `newConnPool`
  panics while `c.mu` is held, and no connection is ever made. -/
  maxPoolSize_pos : 0 < maxPoolSize

/-! ### Invoke -/

/-- The variables that the deferred function of one attempt captures. -/
structure Cell where
  pool : Nat
  conn : Nat
  connReleased : Bool

inductive InvokePc
  | top
  | discover
  | lookup (target : GoString)
  | insert (target : GoString)
  | get (pool : Nat) (pc : GetPc)
  | newCall
  | closingCheck
  | prepare
  | number
  | write (seq : UInt64)
  | unregister (seq : UInt64) (err : GoString)
  | closeConn (err : GoString)
  | recv
  | settle (res : Message)
  | finish (res : Message)
  | put (pool : Nat) (pc : PutPc) (result : Except GoString Message)
  | unwind (result : Except GoString Message)
  | unwindPut (pool : Nat) (pc : PutPc) (result : Except GoString Message)
  | done (result : Except GoString Message)

/-- A call of `invoke`. Its result is the response whose payload it unmarshalled, or an error. -/
structure InvokeThread (T : Type) where
  validMethod : Bool
  replyType : T
  retry : Nat
  lastErr : Option GoString
  /-- The deferred functions, the latest first. -/
  cells : List Cell
  pc : InvokePc

namespace InvokeThread

variable (t : InvokeThread T)

def goto (pc : InvokePc) : InvokeThread T := { t with pc := pc }

/-- The statements `lastErr = err; continue`. -/
def continueWith (err : GoString) : InvokeThread T :=
  { t with retry := t.retry + 1, lastErr := some err, pc := .top }

/-- The statement `connReleased = true` of the current attempt. -/
def released : InvokeThread T :=
  match t.cells with
  | [] => t
  | cell :: rest => { t with cells := { cell with connReleased := true } :: rest }

/-- `connReleased = true; pool.put(conn)` with the outcome of `recvMsg`. -/
def startPut (result : Except GoString Message) : Option (InvokeThread T) :=
  match t.cells with
  | [] => none
  | cell :: _ => some (t.released.goto (.put cell.pool (.check cell.conn) result))

/-- What `invoke` does with the outcome of an attempt. -/
def afterPut (result : Except GoString Message) : InvokeThread T :=
  match result with
  | .ok _ => t.goto (.unwind result)
  | .error err => t.continueWith err

end InvokeThread

/-- The lookup of a target in `c.pools`, under the read lock. -/
def lookupPool (s : ClientShared) (target : GoString) : Option (Option Nat) :=
  if s.muHeld then none else some (s.pools.lookup target)

/-- The lookup under the write lock, which makes the pool if it is still missing. -/
def insertPool (cfg : ClientConfig V T) (s : ClientShared) (target : GoString) :
    Option (ClientOp × Nat) :=
  if s.muHeld then none
  else match s.pools.lookup target with
    | some p => some (.nop, p)
    | none => some (.newPool target cfg.maxPoolSize, s.connPools.length)

/-- The call of `Decode` in `recvMsg` on a connection that delivers `k` more bytes before it fails:
the outcome, and how many bytes it has read. -/
def recvFrame (cfg : ClientConfig V T) (k : ClientConn) (n : Nat) (failure : GoString) :
    Go Message × Nat :=
  let data := (k.stream.drop k.pos).take n
  let r := decode cfg.env cfg.maxReceiveMessageSize ⟨data, failure⟩
  (r.1, data.length - r.2.data.length)

def invokeStep (cfg : ClientConfig V T) (s : ClientShared) (id : Nat) (t : InvokeThread T)
    (inp : Input) : Option (ClientOp × InvokeThread T) :=
  match t.pc with
  | .top =>
    if (t.retry : Int) ≤ cfg.maxRetries then
      match inp with
      | .go => some (.nop, t.goto .discover)
      | .fail err => if 0 < t.retry then some (.nop, t.goto (.unwind (.error err))) else none
      | _ => none
    else some (.nop, t.goto (.unwind (.error (t.lastErr.getD errMaxRetryExceeded))))
  | .discover =>
    match inp with
    | .addr target => some (.nop, t.goto (.lookup target))
    | .fail err => some (.nop, t.continueWith err)
    | _ => none
  | .lookup target =>
    match lookupPool s target with
    | none => none
    | some (some p) => some (.nop, t.goto (.get p .closedCheck))
    | some none => some (.nop, t.goto (.insert target))
  | .insert target =>
    match insertPool cfg s target with
    | none => none
    | some (op, p) => some (op, t.goto (.get p .closedCheck))
  | .get p pc =>
    match getStep s p pc inp with
    | none => none
    | some (op, .next pc) => some (op, t.goto (.get p pc))
    | some (op, .got c) => some (op, { t with cells := ⟨p, c, false⟩ :: t.cells, pc := .newCall })
    | some (op, .failed err) => some (op, t.continueWith err)
  | .newCall =>
    if t.validMethod then some (.nop, t.goto .closingCheck)
    else some (.nop, t.goto (.unwind (.error (str "invalid method name syntax"))))
  | .closingCheck =>
    if s.muHeld then none
    else if s.closing then some (.nop, t.goto (.unwind (.error errClientConnClosing)))
    else some (.nop, t.goto .prepare)
  | .prepare =>
    match inp with
    | .go => some (.nop, t.goto .number)
    | .fail err => some (.nop, t.goto (.closeConn err))
    | _ => none
  | .number =>
    if s.muHeld then none
    else if s.closing then some (.nop, t.goto (.closeConn errClientConnClosing))
    else some (.number (s.calls.sequence + 1), t.goto (.write (s.calls.sequence + 1)))
  | .write seq =>
    match t.cells, inp with
    | cell :: _, .go =>
      match s.conns[cell.conn]? with
      | some k => if k.sockClosed then none else some (.send cell.conn ⟨id, seq⟩, t.goto .recv)
      | none => none
    | _ :: _, .fail err => some (.nop, t.goto (.unregister seq err))
    | _, _ => none
  | .unregister seq err =>
    if s.muHeld then none else some (.unregister seq, t.goto (.closeConn err))
  | .closeConn err =>
    match t.cells with
    | cell :: _ => some (.close cell.conn, t.released.continueWith err)
    | [] => none
  | .recv =>
    match t.cells, inp with
    | cell :: _, .read n failure =>
      match s.conns[cell.conn]? with
      | none => none
      | some k =>
        if k.sockClosed ∧ n ≠ 0 then none
        else
          let r := recvFrame cfg k n failure
          match r.1 with
          | .ok res => some (.read cell.conn r.2, t.goto (.settle res))
          | .error fault =>
            (t.startPut (.error (str "failed to decode response: " ++ fault.text))).map
              (fun t => (.read cell.conn r.2, t))
    | _, _ => none
  | .settle res =>
    if s.muHeld then none
    else match takePending s.calls.pending res.header.seq with
      | .error err => (t.startPut (.error err)).map (fun t => (.nop, t))
      | .ok _ => some (.unregister res.header.seq, t.goto (.finish res))
  | .finish res =>
    (t.startPut ((readResponse cfg.proto t.replyType res).map (fun _ => res))).map
      (fun t => (.nop, t))
  | .put p pc result =>
    match putStep s p pc with
    | none => none
    | some (op, some pc) => some (op, t.goto (.put p pc result))
    | some (op, none) => some (op, t.afterPut result)
  | .unwind result =>
    match t.cells with
    | [] => some (.nop, t.goto (.done result))
    | cell :: rest =>
      some (.nop, { t with
        cells := rest
        pc := if cell.connReleased then .unwind result
          else .unwindPut cell.pool (.check cell.conn) result })
  | .unwindPut p pc result =>
    match putStep s p pc with
    | none => none
    | some (op, some pc) => some (op, t.goto (.unwindPut p pc result))
    | some (op, none) => some (op, t.goto (.unwind result))
  | .done _ => none

/-! ### Heartbeats, prewarming and closing -/

inductive HeartbeatPc
  | discover
  | lookup (target : GoString)
  | insert (target : GoString)
  | get (pool : Nat) (pc : GetPc)
  | health (pool conn : Nat)
  | send (pool conn : Nat)
  | number (pool conn : Nat)
  | write (pool conn : Nat) (seq : UInt64)
  | unregister (pool conn : Nat) (seq : UInt64)
  | closeConn (pool conn : Nat)
  | put (pool : Nat) (pc : PutPc)
  | done

/-- The request of a heartbeat: `sendMsg` with `&Call{}`, whose names are empty and whose request
is nil, and a context that has only a deadline. -/
def heartbeatMessage (cfg : ClientConfig V T) (left : Int) : Go Message :=
  prepareMessage cfg.env cfg.proto [] ⟨[], [], none⟩ ⟨none, some left⟩

/-- One step of `sendHeartbeat`; goroutine `id` runs it. It does not call `recvMsg`. -/
def heartbeatStep (cfg : ClientConfig V T) (s : ClientShared) (id : Nat) (pc : HeartbeatPc)
    (inp : Input) : Option (ClientOp × HeartbeatPc) :=
  match pc with
  | .discover =>
    match inp with
    | .addr target => some (.nop, .lookup target)
    | .fail _ => some (.nop, .done)
    | _ => none
  | .lookup target =>
    match lookupPool s target with
    | none => none
    | some (some p) => some (.nop, .get p .closedCheck)
    | some none => some (.nop, .insert target)
  | .insert target =>
    match insertPool cfg s target with
    | none => none
    | some (op, p) => some (op, .get p .closedCheck)
  | .get p pc =>
    match getStep s p pc inp with
    | none => none
    | some (op, .next pc) => some (op, .get p pc)
    | some (op, .got c) => some (op, .health p c)
    | some (op, .failed _) => some (op, .done)
  | .health p c =>
    match s.conns[c]?, inp with
    | some k, .health h =>
      match isHealthy k c h with
      | some (op, healthy) => some (op, if healthy then .send p c else .closeConn p c)
      | none => none
    | _, _ => none
  | .send p c =>
    match inp with
    | .deadline left =>
      match heartbeatMessage cfg left with
      | .ok _ => some (.nop, .number p c)
      | .error _ => some (.nop, .closeConn p c)
    | _ => none
  | .number p c =>
    if s.muHeld then none
    else if s.closing then some (.nop, .closeConn p c)
    else some (.number (s.calls.sequence + 1), .write p c (s.calls.sequence + 1))
  | .write p c seq =>
    match s.conns[c]?, inp with
    | some k, .go => if k.sockClosed then none else some (.send c ⟨id, seq⟩, .put p (.check c))
    | some _, .fail _ => some (.nop, .unregister p c seq)
    | _, _ => none
  | .unregister p c seq =>
    if s.muHeld then none else some (.unregister seq, .closeConn p c)
  | .closeConn p c => some (.close c, .put p (.check c))
  | .put p pc =>
    match putStep s p pc with
    | none => none
    | some (op, some pc) => some (op, .put p pc)
    | some (op, none) => some (op, .done)
  | .done => none

inductive PrewarmPc
  | check (left : Nat)
  | dial (left : Nat)
  | add (left conn : Nat)
  | done

def prewarmStep (s : ClientShared) (p : Nat) (pc : PrewarmPc) (inp : Input) :
    Option (ClientOp × PrewarmPc) :=
  match s.connPools[p]? with
  | none => none
  | some q =>
    match pc with
    | .check 0 => some (.nop, .done)
    | .check (left + 1) => some (.nop, if q.closed then .done else .dial left)
    | .dial left =>
      match inp with
      | .go => some (.dial p, .add left s.conns.length)
      | .fail _ => some (.nop, .check left)
      | _ => none
    | .add left c => if q.locked then none else some (.addPrewarmed p c, .check left)
    | .done => none

/-- `connPool.Close`: the list is what is still to be closed. -/
inductive ClosePc
  | start
  | closing (conns : List Nat)
  | closeHot
  | drain
  | drained (conn : Nat)
  | reset

/-- One step of `connPool.Close` on pool `p`; `none` as the next point means that it returns. -/
def closeStep (s : ClientShared) (p : Nat) (pc : ClosePc) : Option (ClientOp × Option ClosePc) :=
  match s.connPools[p]? with
  | none => none
  | some q =>
    match pc with
    | .start =>
      if q.locked then none
      else if q.closed then some (.nop, none)
      else some (.closePool p, some (.closing (q.conns ++ q.coldQueue)))
    | .closing [] => some (.nop, some .closeHot)
    | .closing (c :: rest) => some (.close c, some (.closing rest))
    | .closeHot => some (.closeHot p, some .drain)
    | .drain =>
      match q.hotQueue with
      | c :: _ => some (.recvHot p, some (.drained c))
      | [] => some (.nop, some .reset)
    | .drained c => some (.close c, some .drain)
    | .reset => some (.resetCreated p, none)

/-- `Client.Close`, or `UpdateServers` with a new list of servers. Both hold `c.mu` while they close
pools. -/
inductive CloserKind
  | close
  | update (servers : List GoString)

inductive CloserPc
  | start
  | pools (todo : List GoString)
  | pool (target : GoString) (p : Nat) (pc : ClosePc) (todo : List GoString)
  | remove (target : GoString) (todo : List GoString)
  | done

/-- The targets whose pools are closed. -/
def CloserKind.targets (s : ClientShared) : CloserKind → List GoString
  | .close => s.pools.keys
  | .update servers => s.pools.keys.filter (fun target => target ∉ servers)

def closerStep (s : ClientShared) (kind : CloserKind) (pc : CloserPc) (inp : Input) :
    Option (ClientOp × CloserPc) :=
  match pc with
  | .start =>
    if s.muHeld then none
    else match kind, inp with
      | .close, .targets order =>
        if s.closing then some (.nop, .done)
        else if order.Perm (kind.targets s) then some (.lock true, .pools order) else none
      | .update _, .targets order =>
        if order.Perm (kind.targets s) then some (.lock false, .pools order) else none
      | _, _ => none
  | .pools [] =>
    match kind with
    | .close => some (.unlock true, .done)
    | .update _ => some (.unlock false, .done)
  | .pools (target :: todo) =>
    match s.pools.lookup target with
    | some p => some (.nop, .pool target p .start todo)
    | none => some (.nop, .pools todo)
  | .pool target p pc todo =>
    match closeStep s p pc with
    | none => none
    | some (op, some pc) => some (op, .pool target p pc todo)
    | some (op, none) =>
      match kind with
      | .close => some (op, .pools todo)
      | .update _ => some (op, .remove target todo)
  | .remove target todo => some (.removePool target, .pools todo)
  | .done => none

/-! ### The whole client -/

inductive Thread (T : Type)
  | invoke (t : InvokeThread T)
  | heartbeat (pc : HeartbeatPc)
  | prewarm (pool : Nat) (pc : PrewarmPc)
  | closer (kind : CloserKind) (pc : CloserPc)

structure ClientState (T : Type) where
  shared : ClientShared
  threads : List (Thread T)

def ClientState.init : ClientState T := ⟨.init, []⟩

def threadStep (cfg : ClientConfig V T) (s : ClientShared) (id : Nat) (th : Thread T)
    (inp : Input) : Option (ClientOp × Thread T) :=
  match th with
  | .invoke t => (invokeStep cfg s id t inp).map (fun r => (r.1, .invoke r.2))
  | .heartbeat pc => (heartbeatStep cfg s id pc inp).map (fun r => (r.1, .heartbeat r.2))
  | .prewarm p pc => (prewarmStep s p pc inp).map (fun r => (r.1, .prewarm p r.2))
  | .closer kind pc => (closerStep s kind pc inp).map (fun r => (r.1, .closer kind r.2))

/-- A new pool starts its `prewarmConnections`. -/
def spawned (s : ClientShared) : ClientOp → List (Thread T)
  | .newPool _ size => [.prewarm s.connPools.length (.check (prewarmCount size))]
  | _ => []

inductive ClientAction (T : Type)
  | invoke (validMethod : Bool) (replyType : T)
  | heartbeat
  | close
  | updateServers (servers : List GoString)
  | run (thread : Nat) (inp : Input)
  | answer (conn request : Nat) (header : Header) (body : Bytes)

def newThread : ClientAction T → List (Thread T)
  | .invoke validMethod replyType => [.invoke ⟨validMethod, replyType, 0, none, [], .top⟩]
  | .heartbeat => [.heartbeat .discover]
  | .close => [.closer .close .start]
  | .updateServers servers => [.closer (.update servers) .start]
  | .run _ _ | .answer _ _ _ _ => []

/-- The server answers a request once, with its sequence number and any body. -/
def ClientConn.answer (k : ClientConn) (request : Nat) (header : Header) (body : Bytes) :
    Option ClientConn :=
  match k.sent[request]? with
  | none => none
  | some r =>
    if (∀ a ∈ k.answers, a.request ≠ request) ∧ header.seq = r.seq ∧
        header.checkMagicNumber = true ∧ body.length < 2 ^ 32 then
      some { k with
        answers := k.answers ++ [⟨request, header.toBytes ++ (Lib.leBytes 4 body.length ++ body)⟩] }
    else none

def clientStep (cfg : ClientConfig V T) (s : ClientState T) (a : ClientAction T) :
    Option (ClientState T) :=
  if s.shared.panicked then none
  else match a with
    | .run i inp =>
      match s.threads[i]? with
      | none => none
      | some th =>
        match threadStep cfg s.shared i th inp with
        | none => none
        | some (op, th) =>
          some ⟨s.shared.apply op, s.threads.set i th ++ spawned s.shared op⟩
    | .answer c request header body =>
      match s.shared.conns[c]? with
      | none => none
      | some k =>
        match k.answer request header body with
        | none => none
        | some k => some { s with shared := { s.shared with conns := s.shared.conns.set c k } }
    | a => some { s with threads := s.threads ++ newThread a }

end Zrpc
