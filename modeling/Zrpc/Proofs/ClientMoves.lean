import Zrpc.Proofs.ClientTurns
import Zrpc.Proofs.Encode

/-!
# What one step of a goroutine can do

The programs of `Invoke` and `sendHeartbeat` have many program points, but few kinds of steps. The
invariants of whole runs only look at the kinds.
-/

namespace Zrpc

variable {V T : Type}

/-! ### What a goroutine has in its hands

A pair names a pool and a connection taken from it or to be returned to it. -/

def GetPc.hands (p : Nat) : GetPc → List (Nat × Nat)
  | .check _ c | .health _ c | .mark c | .release _ c | .count c => [(p, c)]
  | _ => []

def GetOut.hands (p : Nat) : GetOut → List (Nat × Nat)
  | .next pc => pc.hands p
  | .got c => [(p, c)]
  | .failed _ => []

def PutPc.hands (p : Nat) : PutPc → List (Nat × Nat)
  | .check c | .markIdle c | .sendHot c | .pushCold c => [(p, c)]

/-- What the deferred functions of an Invoke will put back. -/
def deferredPuts (cells : List Cell) : List (Nat × Nat) :=
  (cells.filter (fun cell => !cell.connReleased)).map (fun cell => (cell.pool, cell.conn))

/-- Between `get` and the release of its connection, an attempt uses the connection of the latest
cell. -/
def usedAndDeferred : List Cell → List (Nat × Nat)
  | [] => []
  | cell :: rest => (cell.pool, cell.conn) :: deferredPuts rest

def InvokeThread.hands (t : InvokeThread T) : List (Nat × Nat) :=
  match t.pc with
  | .top | .discover | .lookup _ | .insert _ | .unwind _ | .done _ => deferredPuts t.cells
  | .get p pc => pc.hands p ++ deferredPuts t.cells
  | .put p pc _ | .unwindPut p pc _ => pc.hands p ++ deferredPuts t.cells
  | .newCall | .closingCheck | .prepare | .number | .write _ | .unregister _ _ | .closeConn _
  | .recv | .settle _ | .finish _ => usedAndDeferred t.cells

def HeartbeatPc.hands : HeartbeatPc → List (Nat × Nat)
  | .discover | .lookup _ | .insert _ | .done => []
  | .get p pc => pc.hands p
  | .health p c | .send p c | .number p c | .write p c _ | .unregister p c _ | .closeConn p c =>
    [(p, c)]
  | .put p pc => pc.hands p

/-- The heartbeat has a message to send. -/
def HeartbeatPc.sends : HeartbeatPc → Bool
  | .number _ _ | .write _ _ _ | .unregister _ _ _ => true
  | _ => false

def PrewarmPc.hands (p : Nat) : PrewarmPc → List (Nat × Nat)
  | .add _ c => [(p, c)]
  | _ => []

def CloserPc.hands : CloserPc → List (Nat × Nat)
  | .pool _ p (.drained c) _ => [(p, c)]
  | _ => []

def Thread.hands : Thread T → List (Nat × Nat)
  | .invoke t => t.hands
  | .heartbeat pc => pc.hands
  | .prewarm p pc => pc.hands p
  | .closer _ pc => pc.hands

def ConnPool.queued (p : Nat) (q : ConnPool) : List (Nat × Nat) :=
  (q.hotQueue ++ q.coldQueue).map (fun c => (p, c))

/-- The connection whose socket or status an operation uses. -/
def ClientOp.used : ClientOp → Option Nat
  | .send c _ | .read c _ | .mark c _ => some c
  | _ => none

/-- Operations of `get`. -/
def ClientOp.isGet : ClientOp → Bool
  | .nop | .recvHot _ | .popCold _ | .read _ _ | .mark _ _ | .close _ | .decrement _ | .create _
  | .count _ _ => true
  | _ => false

/-- Operations of `put`. -/
def ClientOp.isPut : ClientOp → Bool
  | .nop | .mark _ _ | .sendHot _ _ | .pushCold _ _ | .closeCounted _ _ | .panic => true
  | _ => false

/-- `get` has closed a connection and not yet counted it. -/
def GetPc.uncounted : GetPc → Bool
  | .decrement _ => true
  | _ => false

/-- `createNewConn` has dialled a connection and not yet counted it. -/
def GetPc.adding : GetPc → Bool
  | .count _ => true
  | _ => false

/-- `created` agrees with the connections this `get` has dialled and closed. -/
def GetPc.Balanced (pc : GetPc) : Prop := pc.uncounted = false ∧ pc.adding = false

def GetOut.Balanced : GetOut → Prop
  | .next pc => pc.Balanced
  | .got _ | .failed _ => True

/-! ### Steps of `get` and `put` -/

namespace Proofs

inductive GetMove (s : ClientShared) (p : Nat) (inp : Input) (pc : GetPc) : ClientOp → GetOut → Prop
  | look {out} (hpc : pc.Balanced) (hands : out.hands p = pc.hands p) (hout : out.Balanced) :
    GetMove s p inp pc .nop out
  | recvHot {q stage c rest} (hq : s.connPools[p]? = some q) (hhot : q.hotQueue = c :: rest)
    (hpc : pc.Balanced) : GetMove s p inp pc (.recvHot p) (.next (.check stage c))
  | popCold {q stage c} (hq : s.connPools[p]? = some q) (hcold : q.coldQueue.getLast? = some c)
    (hpc : pc.Balanced) : GetMove s p inp pc (.popCold p) (.next (.check stage c))
  | health {stage c k h op healthy} (hpc : pc = .health stage c) (hk : s.conns[c]? = some k)
    (hinp : inp = .health h) (hh : isHealthy k c h = some (op, healthy)) :
    GetMove s p inp pc op (.next (if healthy then .mark c else .release stage c))
  | mark {c} (hpc : pc = .mark c) : GetMove s p inp pc (.mark c .inUse) (.got c)
  | release {stage c} (hpc : pc = .release stage c) :
    GetMove s p inp pc (.close c) (.next (.decrement stage))
  | decrement {q stage} (hq : s.connPools[p]? = some q) (hpc : pc = .decrement stage) :
    GetMove s p inp pc (.decrement p) (.next stage.next)
  | create {q again} (hq : s.connPools[p]? = some q) (hfree : q.locked = false)
    (hpc : pc = .create again) :
    GetMove s p inp pc (.create p) (.next (.count s.conns.length))
  | count {q c} (hq : s.connPools[p]? = some q) (hpc : pc = .count c) :
    GetMove s p inp pc (.count p c) (.next (.mark c))

inductive PutMove (s : ClientShared) (p : Nat) (pc : PutPc) : ClientOp → Option PutPc → Prop
  | drop {op} (hop : op = .nop ∨ op = .panic) : PutMove s p pc op none
  | keep {pc'} (hands : pc'.hands p = pc.hands p) : PutMove s p pc .nop (some pc')
  | mark {c} (hpc : pc = .markIdle c) : PutMove s p pc (.mark c .idle) (some (.sendHot c))
  | give {op c} (hop : op = .sendHot p c ∨ op = .pushCold p c) (hands : pc.hands p = [(p, c)]) :
    PutMove s p pc op none
  | discard {q c} (hq : s.connPools[p]? = some q) (hclosed : q.closed = true)
    (hands : pc.hands p = [(p, c)]) : PutMove s p pc (.closeCounted p c) none

section GetPut

variable {s : ClientShared} {p : Nat} {inp : Input} {op : ClientOp}

/-- A health check touches its connection only when the ping finds a byte to read. -/
lemma isHealthy_op {k : ClientConn} {c : Nat} {h : Health} {healthy : Bool}
    (ho : isHealthy k c h = some (op, healthy)) : op = .nop ∨ op = .read c 1 ∧ h = .pingByte := by
  unfold isHealthy at ho
  split at ho
  · cases ho
    exact .inl rfl
  · cases h with
    | fresh | tooOld | pingError =>
      cases ho
      exact .inl rfl
    | pingTimeout =>
      dsimp only at ho
      split at ho <;> cases ho
      exact .inl rfl
    | pingByte =>
      dsimp only at ho
      split at ho <;> cases ho
      exact .inr ⟨rfl, rfl⟩

lemma isHealthy_isGet {k : ClientConn} {c : Nat} {h : Health} {healthy : Bool}
    (ho : isHealthy k c h = some (op, healthy)) : op.isGet = true := by
  rcases isHealthy_op ho with rfl | ⟨rfl, -⟩ <;> rfl

lemma recvHotQueue_move {q : ConnPool} {pc : GetPc} {stage : GetStage} {out : GetOut}
    (hq : s.connPools[p]? = some q) (hpc : pc.Balanced) (hands : pc.hands p = [])
    (h : some (recvHotQueue p q stage) = some (op, out)) : GetMove s p inp pc op out := by
  unfold recvHotQueue at h
  split at h
  · next c rest hhot =>
    cases h
    exact .recvHot hq hhot hpc
  · cases h
    refine .look hpc ?_ ?_
    · rw [hands]
      cases stage <;> rfl
    · cases stage <;> exact ⟨rfl, rfl⟩

lemma getStep_move {pc : GetPc} {out : GetOut} (h : getStep s p pc inp = some (op, out)) :
    GetMove s p inp pc op out := by
  unfold getStep at h
  split at h
  · cases h
  · next q hq =>
    cases pc with
    | closedCheck =>
      cases h
      refine .look ⟨rfl, rfl⟩ ?_ ?_
      · cases q.closed <;> rfl
      · cases q.closed with
        | true => trivial
        | false => exact ⟨rfl, rfl⟩
    | recvFirst => exact recvHotQueue_move hq ⟨rfl, rfl⟩ rfl h
    | check stage c =>
      dsimp only at h
      split at h
      · cases h
      · cases h
        refine .look ⟨rfl, rfl⟩ ?_ ?_
        · split <;> rfl
        · split <;> exact ⟨rfl, rfl⟩
    | health stage c =>
      dsimp only at h
      split at h
      · next hk =>
        split at h
        · next hh =>
          cases h
          exact .health rfl hk rfl hh
        · cases h
      · cases h
    | mark c =>
      cases h
      exact .mark rfl
    | release stage c =>
      cases h
      exact .release rfl
    | decrement stage =>
      cases h
      exact .decrement hq rfl
    | load =>
      simp only [Option.some.injEq, Prod.mk.injEq] at h
      obtain ⟨rfl, rfl⟩ := h
      refine .look ⟨rfl, rfl⟩ ?_ ?_
      · split <;> rfl
      · split <;> exact ⟨rfl, rfl⟩
    | create again =>
      have hrest : GetMove s p inp (.create again) .nop
          (.next (if again then .wait 0 else .popCold)) := by
        refine .look ⟨rfl, rfl⟩ ?_ ?_
        · cases again <;> rfl
        · cases again <;> exact ⟨rfl, rfl⟩
      dsimp only at h
      split at h
      · cases h
      · next hlocked =>
        split at h
        · split at h
          · cases h
            exact .create hq (Bool.eq_false_of_not_eq_true hlocked) rfl
          · cases h
            exact hrest
          · cases h
        · cases h
          exact hrest
    | count c =>
      cases h
      exact .count hq rfl
    | popCold =>
      dsimp only at h
      split at h
      · cases h
      · split at h
        · next hcold =>
          cases h
          exact .popCold hq hcold ⟨rfl, rfl⟩
        · cases h
          exact .look ⟨rfl, rfl⟩ rfl ⟨rfl, rfl⟩
    | recvSecond => exact recvHotQueue_move hq ⟨rfl, rfl⟩ rfl h
    | reload =>
      dsimp only at h
      split at h
      · cases h
      · simp only [Option.some.injEq, Prod.mk.injEq] at h
        obtain ⟨rfl, rfl⟩ := h
        refine .look ⟨rfl, rfl⟩ ?_ ?_
        · split <;> rfl
        · split <;> exact ⟨rfl, rfl⟩
    | wait i =>
      dsimp only at h
      split at h
      · cases h
        exact .look ⟨rfl, rfl⟩ rfl trivial
      · split at h
        · split at h
          · cases h
          · exact recvHotQueue_move hq ⟨rfl, rfl⟩ rfl h
        · cases h
          exact .look ⟨rfl, rfl⟩ rfl ⟨rfl, rfl⟩
        · cases h

lemma putStep_move {pc : PutPc} {out : Option PutPc} (h : putStep s p pc = some (op, out)) :
    PutMove s p pc op out := by
  unfold putStep at h
  split at h
  · cases h
  · next q hq =>
    cases pc with
    | check c =>
      dsimp only at h
      split at h
      · cases h
      · cases h
        split
        · exact .drop (.inl rfl)
        · exact .keep rfl
    | markIdle c =>
      cases h
      exact .mark rfl
    | sendHot c =>
      dsimp only at h
      split at h
      · cases h
        exact .drop (.inr rfl)
      · split at h
        · cases h
          exact .give (.inl rfl) rfl
        · cases h
          exact .keep rfl
    | pushCold c =>
      dsimp only at h
      split at h
      · cases h
      · split at h
        · next hclosed =>
          cases h
          exact .discard hq hclosed rfl
        · cases h
          exact .give (.inr rfl) rfl

lemma getStep_isGet {pc : GetPc} {out : GetOut} (h : getStep s p pc inp = some (op, out)) :
    op.isGet = true := by
  cases getStep_move h with
  | health _ _ _ hh => exact isHealthy_isGet hh
  | look _ _ _ | recvHot _ _ _ | popCold _ _ _ | mark _ | release _ | decrement _ _ | create _ _ _
  | count _ _ => rfl

lemma putStep_isPut {pc : PutPc} {out : Option PutPc} (h : putStep s p pc = some (op, out)) :
    op.isPut = true := by
  cases putStep_move h with
  | drop hop | give hop _ => rcases hop with rfl | rfl <;> rfl
  | keep _ | mark _ | discard _ _ _ => rfl

end GetPut
end Proofs

/-! ### Steps of Invoke -/

/-- The response an Invoke has accepted. -/
def InvokePc.reply : InvokePc → Option Message
  | .settle res | .finish res => some res
  | .put _ _ result | .unwind result | .unwindPut _ _ result | .done result => result.toOption
  | _ => none

/-- The target for which a goroutine is about to make a pool if there is none yet. -/
def InvokePc.inserts : InvokePc → Option GoString
  | .insert target => some target
  | _ => none

def HeartbeatPc.inserts : HeartbeatPc → Option GoString
  | .insert target => some target
  | _ => none

def Thread.inserts : Thread T → Option GoString
  | .invoke t => t.pc.inserts
  | .heartbeat pc => pc.inserts
  | _ => none

/-- Operations that change no connection and no queue. -/
def ClientOp.isLocal : ClientOp → Bool
  | .nop | .newPool _ _ | .number _ | .unregister _ => true
  | _ => false

/-- Operations of `Client.Close` and `UpdateServers` outside `connPool.Close`. -/
def ClientOp.isLocking : ClientOp → Bool
  | .nop | .lock _ | .unlock _ | .removePool _ => true
  | _ => false

def GetPc.pastCheck : GetPc → Bool
  | .closedCheck => false
  | _ => true

def PutPc.pastCheck : PutPc → Bool
  | .check _ => false
  | _ => true

/-- The goroutine is inside `get` or `put` of pool `p` and has passed the first check. -/
def Thread.pastCheck (p : Nat) : Thread T → Bool
  | .invoke t => match t.pc with
    | .get p' g => p' == p && g.pastCheck
    | .put p' g _ | .unwindPut p' g _ => p' == p && g.pastCheck
    | _ => false
  | .heartbeat pc => match pc with
    | .get p' g => p' == p && g.pastCheck
    | .put p' g => p' == p && g.pastCheck
    | _ => false
  | _ => false

/-- Operations that only `Client.Close` and `UpdateServers` perform. -/
def ClientOp.isCloser : ClientOp → Bool
  | .lock _ | .unlock _ | .removePool _ | .closePool _ | .closeHot _ | .resetCreated _ => true
  | _ => false

/-- Operations of `Client.Close` and `UpdateServers`. -/
def ClientOp.isClosing : ClientOp → Bool
  | .nop | .close _ | .recvHot _ => true
  | op => op.isCloser

/-- Operations of `prewarmConnections`. -/
def ClientOp.isPrewarm : ClientOp → Bool
  | .nop | .dial _ | .addPrewarmed _ _ => true
  | _ => false

/-- Where a goroutine is in `get`. -/
def Thread.inGet : Thread T → Option (Nat × GetPc)
  | .invoke t => match t.pc with
    | .get p g => some (p, g)
    | _ => none
  | .heartbeat (.get p g) => some (p, g)
  | _ => none

def GetOut.inGet (p : Nat) : GetOut → Option (Nat × GetPc)
  | .next g => some (p, g)
  | .got _ | .failed _ => none

/-- Operations of `createNewConn`. -/
def ClientOp.isCreate : ClientOp → Bool
  | .create _ | .count _ _ => true
  | _ => false

/-- Where a goroutine is in `put`. -/
def Thread.inPut : Thread T → Option (Nat × PutPc)
  | .invoke t => match t.pc with
    | .put p g _ | .unwindPut p g _ => some (p, g)
    | _ => none
  | .heartbeat (.put p g) => some (p, g)
  | _ => none

/-- `Client.Close` sets `closing`, `UpdateServers` does not. -/
def CloserKind.isClose : CloserKind → Bool
  | .close => true
  | .update _ => false

/-- Points that are neither inside `get` or `put` past the first check, nor in front of `Decode`. -/
def InvokePc.isLocal : InvokePc → Bool
  | .get _ g => !g.pastCheck
  | .put _ g _ | .unwindPut _ g _ => !g.pastCheck
  | .recv => false
  | _ => true

def HeartbeatPc.isLocal : HeartbeatPc → Bool
  | .get _ g => !g.pastCheck
  | .put _ g => !g.pastCheck
  | _ => true

namespace Proofs

open Zrpc.Lib

/-- A pool is made for a target that has none, by a goroutine that stands before the insertion. -/
def Inserts (s : ClientShared) (inserts : Option GoString) (op : ClientOp) : Prop :=
  ∀ target size, op = .newPool target size →
    s.muHeld = false ∧ s.pools.lookup target = none ∧ inserts = some target

/-- A step of an Invoke outside `get`, `put` and its use of the connection. -/
structure LocalMove (s : ClientShared) (t : InvokeThread T) (op : ClientOp) (t' : InvokeThread T) :
    Prop where
  number : ∀ seq, op = .number seq → t' = t.goto (.write seq)
  inserts : Inserts s t.pc.inserts op
  op : op.isLocal = true
  outside : ∀ p pc, t.pc ≠ .get p pc
  hands : t'.hands.Sublist t.hands
  pc : t'.pc.isLocal = true
  reply : ∀ m, t'.pc.reply = some m → t.pc.reply = some m

inductive InvokeMove (cfg : ClientConfig V T) (s : ClientShared) (id : Nat) (inp : Input)
    (t : InvokeThread T) : ClientOp → InvokeThread T → Prop
  | other {op t'} (h : LocalMove s t op t') : InvokeMove cfg s id inp t op t'
  | get {p pc op out} (hpc : t.pc = .get p pc) (h : getStep s p pc inp = some (op, out)) :
    InvokeMove cfg s id inp t op (t.afterGet p out)
  | write {seq cell rest k} (hpc : t.pc = .write seq) (hcells : t.cells = cell :: rest)
    (hk : s.conns[cell.conn]? = some k) (hinp : inp = .go) :
    InvokeMove cfg s id inp t (.send cell.conn ⟨id, seq⟩) (t.goto .recv)
  | closeConn {err cell rest} (hpc : t.pc = .closeConn err) (hcells : t.cells = cell :: rest) :
    InvokeMove cfg s id inp t (.close cell.conn) (t.released.continueWith err)
  | recv {cell rest k n failure t'} (hpc : t.pc = .recv) (hcells : t.cells = cell :: rest)
    (hk : s.conns[cell.conn]? = some k) (hinp : inp = .read n failure)
    (hands : t'.hands.Sublist t.hands) (hpc' : t'.pc.isLocal = true)
    (hreply : ∀ m, t'.pc.reply = some m → (recvFrame cfg k n failure).1 = .ok m) :
    InvokeMove cfg s id inp t (.read cell.conn (recvFrame cfg k n failure).2) t'
  | put {p pc result op out} (hpc : t.pc = .put p pc result) (h : putStep s p pc = some (op, out)) :
    InvokeMove cfg s id inp t op (t.afterPutStep p result out)
  | unwindPut {p pc result op out} (hpc : t.pc = .unwindPut p pc result)
    (h : putStep s p pc = some (op, out)) :
    InvokeMove cfg s id inp t op (t.afterUnwindPut p result out)

inductive HeartbeatMove (s : ClientShared) (id : Nat) (inp : Input) (pc : HeartbeatPc) :
    ClientOp → HeartbeatPc → Prop
  | other {op pc'} (hop : op.isLocal = true) (hout : ∀ p g, pc ≠ .get p g)
    (hands : pc'.hands.Sublist pc.hands) (hpc : pc'.isLocal = true)
    (hsends : pc'.sends = true → pc.sends = true) (hnum : ∀ seq, op = .number seq → pc.sends = true)
    (hins : Inserts s pc.inserts op) : HeartbeatMove s id inp pc op pc'
  | get {p g op out} (hpc : pc = .get p g) (h : getStep s p g inp = some (op, out)) :
    HeartbeatMove s id inp pc op (HeartbeatPc.afterGet p out)
  | health {p c k h op healthy} (hpc : pc = .health p c) (hk : s.conns[c]? = some k)
    (hinp : inp = .health h) (hh : isHealthy k c h = some (op, healthy)) :
    HeartbeatMove s id inp pc op (if healthy then .send p c else .closeConn p c)
  | write {p c seq k} (hpc : pc = .write p c seq) (hk : s.conns[c]? = some k) :
    HeartbeatMove s id inp pc (.send c ⟨id, seq⟩) (.put p (.check c))
  | closeConn {p c} (hpc : pc = .closeConn p c) :
    HeartbeatMove s id inp pc (.close c) (.put p (.check c))
  | put {p g op out} (hpc : pc = .put p g) (h : putStep s p g = some (op, out)) :
    HeartbeatMove s id inp pc op (HeartbeatPc.afterPut p out)

inductive PrewarmMove (s : ClientShared) (p : Nat) (pc : PrewarmPc) : ClientOp → PrewarmPc → Prop
  | look {pc'} (hpc : pc.hands p = []) (hpc' : pc'.hands p = [])
    (hdial : ∀ left, pc' = .dial left → ∃ q, s.connPools[p]? = some q ∧ q.closed = false) :
    PrewarmMove s p pc .nop pc'
  | dial {q left} (hq : s.connPools[p]? = some q) (hpc : pc = .dial left) :
    PrewarmMove s p pc (.dial p) (.add left s.conns.length)
  | add {q left c} (hq : s.connPools[p]? = some q) (hfree : q.locked = false) (hpc : pc = .add left c) :
    PrewarmMove s p pc (.addPrewarmed p c) (.check left)

inductive CloseMove (s : ClientShared) (p : Nat) (pc : ClosePc) : ClientOp → Option ClosePc → Prop
  | already {q} (hq : s.connPools[p]? = some q) (hclosed : q.closed = true) (hpc : pc = .start) :
    CloseMove s p pc .nop none
  | closePool {q} (hq : s.connPools[p]? = some q) (hfree : q.locked = false)
    (hclosed : q.closed = false) (hpc : pc = .start) :
    CloseMove s p pc (.closePool p) (some (.closing (q.conns ++ q.coldQueue)))
  | listEnd (hpc : pc = .closing []) : CloseMove s p pc .nop (some .closeHot)
  | listed {c rest} (hpc : pc = .closing (c :: rest)) :
    CloseMove s p pc (.close c) (some (.closing rest))
  | closeHot (hpc : pc = .closeHot) : CloseMove s p pc (.closeHot p) (some .drain)
  | drain {q c rest} (hq : s.connPools[p]? = some q) (hhot : q.hotQueue = c :: rest)
    (hpc : pc = .drain) : CloseMove s p pc (.recvHot p) (some (.drained c))
  | drainEnd {q} (hq : s.connPools[p]? = some q) (hhot : q.hotQueue = []) (hpc : pc = .drain) :
    CloseMove s p pc .nop (some .reset)
  | drained {c} (hpc : pc = .drained c) : CloseMove s p pc (.close c) (some .drain)
  | reset (hpc : pc = .reset) : CloseMove s p pc (.resetCreated p) none

/-- A step of `Client.Close` or `UpdateServers` outside `connPool.Close`. -/
inductive LockMove (s : ClientShared) (kind : CloserKind) (pc : CloserPc) :
    ClientOp → CloserPc → Prop
  | refused (hpc : pc = .start) (hkind : kind = .close) (hclosing : s.closing = true) :
    LockMove s kind pc .nop .done
  | lock {order} (hpc : pc = .start) (hmu : s.muHeld = false)
    (hperm : order.Perm (kind.targets s)) :
    LockMove s kind pc (.lock kind.isClose) (.pools order)
  | finish (hpc : pc = .pools []) : LockMove s kind pc (.unlock kind.isClose) .done
  | next {target todo p} (hpc : pc = .pools (target :: todo)) (hl : s.pools.lookup target = some p) :
    LockMove s kind pc .nop (.pool target p .start todo)
  | skip {target todo} (hpc : pc = .pools (target :: todo)) (hl : s.pools.lookup target = none) :
    LockMove s kind pc .nop (.pools todo)
  | remove {target todo} (hpc : pc = .remove target todo) :
    LockMove s kind pc (.removePool target) (.pools todo)

inductive CloserMove (s : ClientShared) (kind : CloserKind) (pc : CloserPc) :
    ClientOp → CloserPc → Prop
  | other {op pc'} (h : LockMove s kind pc op pc') : CloserMove s kind pc op pc'
  | inside {target p g todo op g'} (hpc : pc = .pool target p g todo)
    (h : closeStep s p g = some (op, some g')) : CloserMove s kind pc op (.pool target p g' todo)
  | leave {target p g todo op pc'} (hpc : pc = .pool target p g todo)
    (h : closeStep s p g = some (op, none))
    (hpc' : pc' = .pools todo ∧ kind = .close ∨ pc' = .remove target todo) :
    CloserMove s kind pc op pc'

inductive ThreadMove (cfg : ClientConfig V T) (s : ClientShared) (id : Nat) (inp : Input) :
    Thread T → ClientOp → Thread T → Prop
  | invoke {t op t'} (h : invokeStep cfg s id t inp = some (op, t')) :
    ThreadMove cfg s id inp (.invoke t) op (.invoke t')
  | heartbeat {pc op pc'} (h : heartbeatStep cfg s id pc inp = some (op, pc')) :
    ThreadMove cfg s id inp (.heartbeat pc) op (.heartbeat pc')
  | prewarm {p pc op pc'} (h : prewarmStep s p pc inp = some (op, pc')) :
    ThreadMove cfg s id inp (.prewarm p pc) op (.prewarm p pc')
  | closer {kind pc op pc'} (h : closerStep s kind pc inp = some (op, pc')) :
    ThreadMove cfg s id inp (.closer kind pc) op (.closer kind pc')

/-- Which code performs the operation of a step. -/
inductive OpSource (cfg : ClientConfig V T) (s : ClientShared) (id : Nat) (inp : Input) :
    Thread T → ClientOp → Thread T → Prop
  | own {th op th'} (hop : op.isLocal = true)
    (hnumber : ∀ seq, op = .number seq →
      (∃ t, th = .invoke t ∧ th' = .invoke (t.goto (.write seq))) ∨
        ∃ pc, th = .heartbeat pc ∧ pc.sends = true)
    (hins : Inserts s th.inserts op) : OpSource cfg s id inp th op th'
  | get {th p g op out th'} (hop : op.isGet = true) (hin : th.inGet = some (p, g))
    (h : getStep s p g inp = some (op, out)) : OpSource cfg s id inp th op th'
  | put {th p g op out th'} (hop : op.isPut = true) (hin : th.inPut = some (p, g))
    (h : putStep s p g = some (op, out)) : OpSource cfg s id inp th op th'
  | health {p c k h op healthy th'} (hop : op.isGet = true) (hinp : inp = .health h)
    (hh : isHealthy k c h = some (op, healthy)) :
    OpSource cfg s id inp (.heartbeat (.health p c)) op th'
  | write {th p c seq th'} (hhands : (p, c) ∈ th.hands)
    (hth : (∃ t, th = .invoke t) ∨ ∃ pc, th = .heartbeat pc ∧ pc.sends = true) :
    OpSource cfg s id inp th (.send c ⟨id, seq⟩) th'
  | closeConn {th c th'} : OpSource cfg s id inp th (.close c) th'
  | recv {t cell rest k n failure th'} (hpc : t.pc = .recv) (hcells : t.cells = cell :: rest)
    (hk : s.conns[cell.conn]? = some k) (hinp : inp = .read n failure) :
    OpSource cfg s id inp (.invoke t) (.read cell.conn (recvFrame cfg k n failure).2) th'
  | prewarm {p pc op pc'} (hop : op.isPrewarm = true) (h : prewarmStep s p pc inp = some (op, pc')) :
    OpSource cfg s id inp (.prewarm p pc) op (.prewarm p pc')
  | closer {kind pc op pc'} (hop : op.isClosing = true)
    (h : closerStep s kind pc inp = some (op, pc')) :
    OpSource cfg s id inp (.closer kind pc) op (.closer kind pc')

/-- A goroutine in `get` takes the steps of `getStep`, and it enters `get` at the first check. -/
inductive GetSpan (s : ClientShared) (inp : Input) (th : Thread T) (op : ClientOp) (th' : Thread T) :
    Prop
  | inside {p g out} (hin : th.inGet = some (p, g)) (h : getStep s p g inp = some (op, out))
    (hin' : th'.inGet = out.inGet p) : GetSpan s inp th op th'
  | outside (hin : th.inGet = none) (hin' : ∀ x ∈ th'.inGet, x.2 = .closedCheck)
    (hop : op.isCreate = false) : GetSpan s inp th op th'

inductive ClientMove (cfg : ClientConfig V T) (s : ClientState T) :
    ClientAction T → ClientState T → Prop
  | run {i inp th op th'} (hi : s.threads[i]? = some th)
    (h : threadStep cfg s.shared i th inp = some (op, th')) :
    ClientMove cfg s (.run i inp) ⟨s.shared.apply op, s.threads.set i th' ++ spawned s.shared op⟩
  | answer {c request header body k k'} (hk : s.shared.conns[c]? = some k)
    (h : k.answer request header body = some k') :
    ClientMove cfg s (.answer c request header body)
      { s with shared := { s.shared with conns := s.shared.conns.set c k' } }
  | start (a) : ClientMove cfg s a { s with threads := s.threads ++ newThread a }

variable {cfg : ClientConfig V T} {s : ClientShared} {id : Nat} {inp : Input} {t t' : InvokeThread T}
  {op : ClientOp}

lemma hands_get {p : Nat} {g : GetPc} (h : t.pc = .get p g) :
    t.hands = g.hands p ++ deferredPuts t.cells := by
  simp [InvokeThread.hands, h]

lemma hands_put {p : Nat} {g : PutPc} {result : Except GoString Message}
    (h : t.pc = .put p g result) : t.hands = g.hands p ++ deferredPuts t.cells := by
  simp [InvokeThread.hands, h]

lemma hands_unwindPut {p : Nat} {g : PutPc} {result : Except GoString Message}
    (h : t.pc = .unwindPut p g result) : t.hands = g.hands p ++ deferredPuts t.cells := by
  simp [InvokeThread.hands, h]

lemma deferredPuts_sublist (cells : List Cell) :
    (deferredPuts cells).Sublist (usedAndDeferred cells) := by
  cases cells with
  | nil => exact List.Sublist.refl _
  | cons cell rest =>
    unfold usedAndDeferred deferredPuts
    cases h : cell.connReleased <;> simp [h]

lemma InvokeMove.local (hop : op = .nop ∨ ∃ seq, op = .unregister seq)
    (hout : ∀ p g, t.pc ≠ .get p g) (hands : t'.hands.Sublist t.hands) (hpc : t'.pc.isLocal = true)
    (hreply : t'.pc.reply = none ∨ t'.pc.reply = t.pc.reply) : InvokeMove cfg s id inp t op t' := by
  have hm : ∀ m, t'.pc.reply = some m → t.pc.reply = some m := by
    intro m hm
    cases hreply with
    | inl hr => rw [hr] at hm; cases hm
    | inr hr => rwa [hr] at hm
  rcases hop with rfl | ⟨seq, rfl⟩ <;> exact .other ⟨nofun, nofun, rfl, hout, hands, hpc, hm⟩

lemma startPut_move {result : Except GoString Message} (h : t.startPut result = some t') :
    t'.hands = usedAndDeferred t.cells ∧ t'.pc.isLocal = true ∧ t'.pc.reply = result.toOption := by
  unfold InvokeThread.startPut at h
  split at h
  · cases h
  · next cell rest hcells =>
    cases h
    simp [InvokeThread.released, hcells, InvokeThread.goto, InvokeThread.hands, PutPc.hands,
      usedAndDeferred, deferredPuts, InvokePc.isLocal, PutPc.pastCheck, InvokePc.reply]

lemma startPut_put {result : Except GoString Message} (h : t.startPut result = some t') :
    t'.retry = t.retry ∧ ∃ p g, t'.pc = .put p g result := by
  unfold InvokeThread.startPut at h
  split at h
  · cases h
  · next cell rest hcells =>
    cases h
    simp [InvokeThread.released, hcells, InvokeThread.goto]

lemma insertPool_spec {target : GoString} {p : Nat} (h : insertPool cfg s target = some (op, p)) :
    op.isLocal = true ∧ (∀ seq, op ≠ .number seq) ∧ Inserts s (some target) op := by
  unfold insertPool at h
  split at h
  · cases h
  · next hmu =>
    split at h
    · cases h
      exact ⟨rfl, nofun, nofun⟩
    · next hl =>
      cases h
      refine ⟨rfl, nofun, ?_⟩
      rintro _ _ ⟨⟩
      exact ⟨Bool.eq_false_of_not_eq_true hmu, hl, rfl⟩

/-- The response that is put back with the connection is the one that was read. -/
lemma InvokeMove.startPut {result : Except GoString Message} (hput : t.startPut result = some t')
    (hout : ∀ p g, t.pc ≠ .get p g) (hhands : t.hands = usedAndDeferred t.cells)
    (hres : result.toOption = none ∨ result.toOption = t.pc.reply) :
    InvokeMove cfg s id inp t .nop t' := by
  obtain ⟨hhands', hpc, hreply⟩ := startPut_move hput
  exact .local (.inl rfl) hout (hhands ▸ hhands' ▸ .refl _) hpc (hreply ▸ hres)

lemma invokeStep_move (h : invokeStep cfg s id t inp = some (op, t')) :
    InvokeMove cfg s id inp t op t' := by
  obtain ⟨validMethod, replyType, retry, lastErr, cells, pc⟩ := t
  cases invokeStep_turn h with
  | attempt | cancelled | exhausted | discovered | undiscovered | found | missing | named | admitted
  | prepared | unprepared | unnumbered | unwritten =>
    exact .local (.inl rfl) (by simp) (.refl _) rfl (.inl rfl)
  | misnamed | refused =>
    exact .local (.inl rfl) (by simp) (deferredPuts_sublist cells) rfl (.inl rfl)
  | insert hins =>
    obtain ⟨hop, hnum, hnew⟩ := insertPool_spec hins
    exact .other ⟨fun seq he => absurd he (hnum seq), hnew, hop, by simp, .refl _, rfl, nofun⟩
  | get hg => exact .get rfl hg
  | number =>
    refine .other ⟨?_, nofun, rfl, by simp, .refl _, rfl, nofun⟩
    rintro _ ⟨⟩
    rfl
  | write hcells hk _ hinp => exact .write rfl hcells hk hinp
  | unregister => exact .local (.inr ⟨_, rfl⟩) (by simp) (.refl _) rfl (.inl rfl)
  | closeConn hcells => exact .closeConn rfl hcells
  | recv hcells hk _ hinp hres =>
    refine .recv rfl hcells hk hinp (.refl _) rfl fun m hm => ?_
    cases hm
    exact hres
  | unreceived hcells hk _ hinp _ hput =>
    obtain ⟨hhands, hpc, hreply⟩ := startPut_move hput
    refine .recv rfl hcells hk hinp (hhands ▸ .refl _) hpc fun m hm => ?_
    rw [hreply] at hm
    cases hm
  | settled => exact .local (.inr ⟨_, rfl⟩) (by simp) (.refl _) rfl (.inr rfl)
  | unsettled _ _ hput => exact .startPut hput (by simp) rfl (.inl rfl)
  | @finish res _ hput =>
    refine .startPut hput (by simp) rfl ?_
    cases readResponse cfg.proto replyType res with
    | error err => exact .inl rfl
    | ok v => exact .inr rfl
  | put hp => exact .put rfl hp
  | unwound => exact .local (.inl rfl) (by simp) (.refl _) rfl (.inr rfl)
  | @unwind result cell rest hcells =>
    obtain rfl : cells = cell :: rest := hcells
    cases hrel : cell.connReleased with
    | true =>
      refine .local (.inl rfl) (by simp) ?_ rfl (.inr rfl)
      simp [InvokeThread.hands, hrel, deferredPuts]
    | false =>
      refine .local (.inl rfl) (by simp) ?_ rfl (.inr rfl)
      simp [InvokeThread.hands, hrel, deferredPuts, PutPc.hands]
  | unwindPut hp => exact .unwindPut rfl hp

lemma heartbeatStep_move {pc pc' : HeartbeatPc}
    (h : heartbeatStep cfg s id pc inp = some (op, pc')) : HeartbeatMove s id inp pc op pc' := by
  cases heartbeatStep_turn h with
  | discovered | undiscovered | found | missing | send | unregister =>
    exact .other rfl (by simp) (.refl _) rfl nofun nofun nofun
  | insert hins =>
    obtain ⟨hop, hnum, hnew⟩ := insertPool_spec hins
    exact .other hop (by simp) (.refl _) rfl nofun (fun seq he => absurd he (hnum seq)) hnew
  | get hg => exact .get rfl hg
  | health hk hinp hh => exact .health rfl hk hinp hh
  | unnumbered | unwritten => exact .other rfl (by simp) (.refl _) rfl (fun _ => rfl) nofun nofun
  | number => exact .other rfl (by simp) (.refl _) rfl (fun _ => rfl) (fun _ _ => rfl) nofun
  | write hk => exact .write rfl hk
  | closeConn => exact .closeConn rfl
  | put hp => exact .put rfl hp

lemma prewarmStep_move {p : Nat} {pc pc' : PrewarmPc}
    (h : prewarmStep s p pc inp = some (op, pc')) : PrewarmMove s p pc op pc' := by
  unfold prewarmStep at h
  split at h
  · cases h
  · next q hq =>
    cases pc with
    | check left =>
      cases left with
      | zero =>
        cases h
        exact .look rfl rfl nofun
      | succ left =>
        cases h
        cases hclosed : q.closed with
        | true => exact .look rfl rfl nofun
        | false => exact .look rfl rfl (fun _ _ => ⟨q, hq, hclosed⟩)
    | dial left =>
      dsimp only at h
      split at h
      · cases h
        exact .dial hq rfl
      · cases h
        exact .look rfl rfl nofun
      · cases h
    | add left c =>
      dsimp only at h
      split at h
      · cases h
      · next hlocked =>
        cases h
        exact .add hq (Bool.eq_false_of_not_eq_true hlocked) rfl
    | done => cases h

lemma closeStep_move {p : Nat} {pc : ClosePc} {out : Option ClosePc}
    (h : closeStep s p pc = some (op, out)) : CloseMove s p pc op out := by
  unfold closeStep at h
  split at h
  · cases h
  · next q hq =>
    cases pc with
    | start =>
      dsimp only at h
      split at h
      · cases h
      · next hlocked =>
        split at h
        · next hclosed =>
          cases h
          exact .already hq hclosed rfl
        · next hclosed =>
          cases h
          exact .closePool hq (Bool.eq_false_of_not_eq_true hlocked)
            (Bool.eq_false_of_not_eq_true hclosed) rfl
    | closing conns =>
      cases conns with
      | nil =>
        cases h
        exact .listEnd rfl
      | cons c rest =>
        cases h
        exact .listed rfl
    | closeHot =>
      cases h
      exact .closeHot rfl
    | drain =>
      dsimp only at h
      split at h
      · next hhot =>
        cases h
        exact .drain hq hhot rfl
      · next hhot =>
        cases h
        exact .drainEnd hq hhot rfl
    | drained c =>
      cases h
      exact .drained rfl
    | reset =>
      cases h
      exact .reset rfl

lemma LockMove.isLocking {kind : CloserKind} {pc pc' : CloserPc} (h : LockMove s kind pc op pc') :
    op.isLocking = true := by
  cases h <;> rfl

lemma closerStep_move {kind : CloserKind} {pc pc' : CloserPc}
    (h : closerStep s kind pc inp = some (op, pc')) : CloserMove s kind pc op pc' := by
  cases pc with
  | start =>
    simp only [closerStep] at h
    split at h
    · cases h
    · next hmu =>
      have hfree : s.muHeld = false := Bool.eq_false_of_not_eq_true hmu
      split at h
      · split at h
        · next hclosing =>
          cases h
          exact .other (.refused rfl rfl hclosing)
        · split at h
          · next hperm =>
            cases h
            exact .other (.lock rfl hfree hperm)
          · cases h
      · split at h
        · next hperm =>
          cases h
          exact .other (.lock rfl hfree hperm)
        · cases h
      · cases h
  | pools todo =>
    cases todo with
    | nil =>
      simp only [closerStep] at h
      split at h <;> cases h <;> exact .other (.finish rfl)
    | cons target todo =>
      simp only [closerStep] at h
      split at h
      · next hl =>
        cases h
        exact .other (.next rfl hl)
      · next hl =>
        cases h
        exact .other (.skip rfl hl)
  | pool target p g todo =>
    simp only [closerStep] at h
    split at h
    · cases h
    · next hc =>
      cases h
      exact .inside rfl hc
    · next hc =>
      split at h
      · cases h
        exact .leave rfl hc (.inl ⟨rfl, rfl⟩)
      · cases h
        exact .leave rfl hc (.inr rfl)
  | remove target todo =>
    cases h
    exact .other (.remove rfl)
  | done => cases h

lemma threadStep_move {th th' : Thread T} (h : threadStep cfg s id th inp = some (op, th')) :
    ThreadMove cfg s id inp th op th' := by
  cases th with
  | invoke t =>
    obtain ⟨r, hr, hout⟩ := Option.map_eq_some_iff.mp h
    cases hout
    exact .invoke hr
  | heartbeat pc =>
    obtain ⟨r, hr, hout⟩ := Option.map_eq_some_iff.mp h
    cases hout
    exact .heartbeat hr
  | prewarm p pc =>
    obtain ⟨r, hr, hout⟩ := Option.map_eq_some_iff.mp h
    cases hout
    exact .prewarm hr
  | closer kind pc =>
    obtain ⟨r, hr, hout⟩ := Option.map_eq_some_iff.mp h
    cases hout
    exact .closer hr

lemma inGet_cases {th : Thread T} {p : Nat} {g : GetPc} (h : th.inGet = some (p, g)) :
    (∃ t, th = .invoke t ∧ t.pc = .get p g) ∨ th = .heartbeat (.get p g) := by
  cases th with
  | invoke t =>
    simp only [Thread.inGet] at h
    split at h
    · next hpc =>
      cases h
      exact .inl ⟨t, rfl, hpc⟩
    · cases h
  | heartbeat pc =>
    cases pc with
    | get p' g' =>
      cases h
      exact .inr rfl
    | _ => cases h
  | prewarm _ _ | closer _ _ => cases h

lemma inPut_cases {th : Thread T} {p : Nat} {g : PutPc} (h : th.inPut = some (p, g)) :
    (∃ t result, th = .invoke t ∧ (t.pc = .put p g result ∨ t.pc = .unwindPut p g result)) ∨
      th = .heartbeat (.put p g) := by
  cases th with
  | invoke t =>
    simp only [Thread.inPut] at h
    split at h
    · next hpc =>
      cases h
      exact .inl ⟨t, _, rfl, .inl hpc⟩
    · next hpc =>
      cases h
      exact .inl ⟨t, _, rfl, .inr hpc⟩
    · cases h
  | heartbeat pc =>
    cases pc with
    | put p' g' =>
      cases h
      exact .inr rfl
    | _ => cases h
  | prewarm _ _ | closer _ _ => cases h

lemma hands_of_inGet {th : Thread T} {p : Nat} {g : GetPc} (h : th.inGet = some (p, g))
    {x : Nat × Nat} (hx : x ∈ g.hands p) : x ∈ th.hands := by
  rcases inGet_cases h with ⟨t, rfl, hpc⟩ | rfl
  · rw [Thread.hands, hands_get hpc]
    exact List.mem_append_left _ hx
  · exact hx

lemma hands_of_inPut {th : Thread T} {p : Nat} {g : PutPc} (h : th.inPut = some (p, g))
    {x : Nat × Nat} (hx : x ∈ g.hands p) : x ∈ th.hands := by
  rcases inPut_cases h with ⟨t, result, rfl, hpc | hpc⟩ | rfl
  · rw [Thread.hands, hands_put hpc]
    exact List.mem_append_left _ hx
  · rw [Thread.hands, hands_unwindPut hpc]
    exact List.mem_append_left _ hx
  · exact hx

lemma pastCheck_of_inGet {th : Thread T} {p : Nat} {g : GetPc} (h : th.inGet = some (p, g))
    (hg : g.pastCheck = true) : th.pastCheck p = true := by
  rcases inGet_cases h with ⟨t, rfl, hpc⟩ | rfl
  · simp [Thread.pastCheck, hpc, hg]
  · simp [Thread.pastCheck, hg]

lemma pastCheck_of_inPut {th : Thread T} {p : Nat} {g : PutPc} (h : th.inPut = some (p, g))
    (hg : g.pastCheck = true) : th.pastCheck p = true := by
  rcases inPut_cases h with ⟨t, result, rfl, hpc | hpc⟩ | rfl
  · simp [Thread.pastCheck, hpc, hg]
  · simp [Thread.pastCheck, hpc, hg]
  · simp [Thread.pastCheck, hg]

lemma closerStep_isClosing {kind : CloserKind} {pc pc' : CloserPc}
    (h : closerStep s kind pc inp = some (op, pc')) : op.isClosing = true := by
  cases closerStep_move h with
  | other hl => cases hl <;> rfl
  | inside _ hc | leave _ hc _ => cases closeStep_move hc <;> rfl

lemma threadStep_source {th th' : Thread T} (h : threadStep cfg s id th inp = some (op, th')) :
    OpSource cfg s id inp th op th' := by
  cases threadStep_move h with
  | invoke hr =>
    cases invokeStep_move hr with
    | other hl => exact .own hl.op (fun seq he => .inl ⟨_, rfl, by rw [hl.number seq he]⟩) hl.inserts
    | get hpc hg => exact .get (getStep_isGet hg) (by simp [Thread.inGet, hpc]) hg
    | @write _ cell _ _ hpc hcells _ _ =>
      refine .write (p := cell.pool) ?_ (.inl ⟨_, rfl⟩)
      simp [Thread.hands, InvokeThread.hands, hpc, hcells, usedAndDeferred]
    | closeConn _ _ => exact .closeConn
    | recv hpc hcells hk hinp _ _ _ => exact .recv hpc hcells hk hinp
    | put hpc hg => exact .put (putStep_isPut hg) (by simp [Thread.inPut, hpc]) hg
    | unwindPut hpc hg => exact .put (putStep_isPut hg) (by simp [Thread.inPut, hpc]) hg
  | heartbeat hr =>
    cases heartbeatStep_move hr with
    | other hop _ _ _ _ hnum hins => exact .own hop (fun seq he => .inr ⟨_, rfl, hnum seq he⟩) hins
    | get hpc hg => exact .get (getStep_isGet hg) (by simp [Thread.inGet, hpc]) hg
    | health hpc _ hinp hh =>
      subst hpc
      exact .health (isHealthy_isGet hh) hinp hh
    | write hpc _ =>
      subst hpc
      exact .write (List.mem_singleton_self _) (.inr ⟨_, rfl, rfl⟩)
    | closeConn _ => exact .closeConn
    | put hpc hg => exact .put (putStep_isPut hg) (by simp [Thread.inPut, hpc]) hg
  | prewarm hr =>
    refine .prewarm ?_ hr
    cases prewarmStep_move hr <;> rfl
  | closer hr => exact .closer (closerStep_isClosing hr) hr

lemma inGet_of_isLocal {t : InvokeThread T} (h : t.pc.isLocal = true) :
    ∀ x ∈ (Thread.invoke t).inGet, x.2 = .closedCheck := by
  intro x hx
  simp only [Thread.inGet] at hx
  split at hx
  · next p g hpc =>
    cases hx
    rw [hpc] at h
    cases g with
    | closedCheck => rfl
    | _ => cases h
  · cases hx

lemma inGet_of_heartbeat_isLocal {pc : HeartbeatPc} (h : pc.isLocal = true) :
    ∀ x ∈ (Thread.heartbeat (T := T) pc).inGet, x.2 = .closedCheck := by
  intro x hx
  cases pc with
  | get p g =>
    cases hx
    cases g with
    | closedCheck => rfl
    | _ => cases h
  | _ => cases hx

lemma isCreate_of_isPut (h : op.isPut = true) : op.isCreate = false := by
  cases op <;> first | rfl | cases h

lemma isCreate_of_isLocal (h : op.isLocal = true) : op.isCreate = false := by
  cases op <;> first | rfl | cases h

lemma threadStep_getSpan {th th' : Thread T} (h : threadStep cfg s id th inp = some (op, th')) :
    GetSpan s inp th op th' := by
  have hnone : ∀ {th' : Thread T}, th'.inGet = none → ∀ x ∈ th'.inGet, x.2 = .closedCheck := by
    intro th' hin x hx
    rw [hin] at hx
    cases hx
  cases threadStep_move h with
  | @invoke t _ _ hr =>
    cases invokeStep_move hr with
    | other hl =>
      refine .outside ?_ (inGet_of_isLocal hl.pc) (isCreate_of_isLocal hl.op)
      simp only [Thread.inGet]
      split
      · next hpc => exact absurd hpc (hl.outside _ _)
      · rfl
    | @get _ _ _ out hpc hg =>
      refine .inside (by simp [Thread.inGet, hpc]) hg ?_
      cases out with
      | next g => rfl
      | got c => rfl
      | failed err => rfl
    | write hpc _ _ _ => exact .outside (by simp [Thread.inGet, hpc]) (hnone rfl) rfl
    | closeConn hpc _ => exact .outside (by simp [Thread.inGet, hpc]) (hnone rfl) rfl
    | recv hpc _ _ _ _ hpc' _ =>
      exact .outside (by simp [Thread.inGet, hpc]) (inGet_of_isLocal hpc') rfl
    | @put _ _ result _ out hpc hg =>
      refine .outside (by simp [Thread.inGet, hpc]) (hnone ?_) (isCreate_of_isPut (putStep_isPut hg))
      cases out <;> cases result <;> rfl
    | @unwindPut _ _ result _ out hpc hg =>
      refine .outside (by simp [Thread.inGet, hpc]) (hnone ?_) (isCreate_of_isPut (putStep_isPut hg))
      cases out <;> rfl
  | @heartbeat pc _ _ hr =>
    cases heartbeatStep_move hr with
    | other hop hout _ hpc' _ _ =>
      refine .outside ?_ (inGet_of_heartbeat_isLocal hpc') (isCreate_of_isLocal hop)
      cases pc with
      | get p g => exact absurd rfl (hout p g)
      | _ => rfl
    | @get _ _ _ out hpc hg =>
      refine .inside (by simp [Thread.inGet, hpc]) hg ?_
      cases out <;> rfl
    | @health _ _ _ _ _ healthy hpc _ _ hh =>
      subst hpc
      refine .outside rfl (hnone ?_) ?_
      · cases healthy <;> rfl
      · rcases isHealthy_op hh with rfl | ⟨rfl, -⟩ <;> rfl
    | write hpc _ =>
      subst hpc
      exact .outside rfl (hnone rfl) rfl
    | closeConn hpc =>
      subst hpc
      exact .outside rfl (hnone rfl) rfl
    | @put _ _ _ out hpc hg =>
      subst hpc
      refine .outside rfl (hnone ?_) (isCreate_of_isPut (putStep_isPut hg))
      cases out <;> rfl
  | prewarm hr =>
    refine .outside rfl (hnone rfl) ?_
    cases prewarmStep_move hr <;> rfl
  | closer hr =>
    have hop := closerStep_isClosing hr
    refine .outside rfl (hnone rfl) ?_
    cases op <;> first | rfl | cases hop

lemma closer_of_isCloser {th th' : Thread T} (h : threadStep cfg s id th inp = some (op, th'))
    (hop : op.isCloser = true) :
    ∃ kind pc pc', th = .closer kind pc ∧ th' = .closer kind pc' ∧
      closerStep s kind pc inp = some (op, pc') := by
  cases threadStep_source h with
  | closer _ hr => exact ⟨_, _, _, rfl, rfl, hr⟩
  | own hop' _ _ | get hop' _ _ | put hop' _ _ | health hop' _ _ | prewarm hop' _ =>
    cases op <;> first | (cases hop; done) | cases hop'
  | write _ _ | closeConn | recv _ _ _ _ => cases hop

/-- What the server's answer adds. -/
lemma answer_spec {k k' : ClientConn} {request : Nat} {header : Header} {body : Bytes}
    (h : k.answer request header body = some k') :
    request < k.sent.length ∧ (∀ a ∈ k.answers, a.request ≠ request) ∧
      header.checkMagicNumber = true ∧ body.length < 2 ^ 32 ∧
      k' = { k with answers := k.answers ++ [⟨request, frameBytes header body⟩] } := by
  unfold ClientConn.answer at h
  split at h
  · cases h
  · next r hr =>
    split at h
    · next hc =>
      cases h
      exact ⟨(List.getElem?_eq_some_iff.mp hr).1, hc.1, hc.2.2.1, hc.2.2.2, rfl⟩
    · cases h

lemma clientStep_move {u u' : ClientState T} {a : ClientAction T}
    (h : clientStep cfg u a = some u') : ClientMove cfg u a u' := by
  unfold clientStep at h
  split at h
  · cases h
  · cases a with
    | run i inp =>
      dsimp only at h
      split at h
      · cases h
      · next hi =>
        split at h
        · cases h
        · next hstep =>
          cases h
          exact .run hi hstep
    | answer c request header body =>
      dsimp only at h
      split at h
      · cases h
      · next hk =>
        split at h
        · cases h
        · next hans =>
          cases h
          exact .answer hk hans
    | invoke validMethod replyType | heartbeat | close | updateServers servers =>
      cases h
      exact .start _

lemma clientStep_run {u u' : ClientState T} {j : Nat} {inp : Input}
    (h : clientStep cfg u (.run j inp) = some u') :
    ∃ th op th', u.threads[j]? = some th ∧ threadStep cfg u.shared j th inp = some (op, th') ∧
      u' = ⟨u.shared.apply op, u.threads.set j th' ++ spawned u.shared op⟩ := by
  unfold clientStep at h
  split at h
  · cases h
  · dsimp only at h
    split at h
    · cases h
    · next th hj =>
      split at h
      · cases h
      · next op th' hth =>
        cases h
        exact ⟨th, op, th', hj, hth, rfl⟩

/-- The goroutines after a step of goroutine `i`. -/
lemma thread_of_run {threads extra : List (Thread T)} {th' x : Thread T} {i j : Nat}
    (h : (threads.set i th' ++ extra)[j]? = some x) :
    (j = i ∧ x = th') ∨ (j ≠ i ∧ threads[j]? = some x) ∨ x ∈ extra := by
  rw [List.getElem?_append] at h
  split at h
  · rcases getElem?_set_cases h with ⟨hij, rfl⟩ | ⟨hij, hold⟩
    · exact .inl ⟨hij.symm, rfl⟩
    · exact .inr (.inl ⟨hij.symm, hold⟩)
  · exact .inr (.inr (List.mem_of_getElem? h))

lemma thread_run_self {threads extra : List (Thread T)} {th th' : Thread T} {i : Nat}
    (hi : threads[i]? = some th) : (threads.set i th' ++ extra)[i]? = some th' := by
  have hlt := (List.getElem?_eq_some_iff.mp hi).1
  rw [List.getElem?_append_left (by simpa using hlt)]
  exact List.getElem?_set_self hlt

lemma thread_run_ne {threads extra : List (Thread T)} {x th' : Thread T} {i j : Nat}
    (hj : threads[j]? = some x) (hne : i ≠ j) : (threads.set i th' ++ extra)[j]? = some x := by
  have hlt := (List.getElem?_eq_some_iff.mp hj).1
  rw [List.getElem?_append_left (by simpa using hlt), List.getElem?_set_ne hne]
  exact hj

lemma thread_start {threads extra : List (Thread T)} {x : Thread T} {j : Nat}
    (hj : threads[j]? = some x) : (threads ++ extra)[j]? = some x :=
  (List.getElem?_append_left (List.getElem?_eq_some_iff.mp hj).1).trans hj

end Proofs
end Zrpc
