import Zrpc.Proofs.ClientOps

/-!
# The steps of an Invoke and of a heartbeat

One case for each branch of `invokeStep` and `heartbeatStep`, with what the branch has looked at. What
the other modules say about a step is read off these cases.
-/

namespace Zrpc

variable {V T : Type}

/-- How `get` and `put` go on in a heartbeat. -/
def HeartbeatPc.afterGet (p : Nat) : GetOut → HeartbeatPc
  | .next pc => .get p pc
  | .got c => .health p c
  | .failed _ => .done

def HeartbeatPc.afterPut (p : Nat) : Option PutPc → HeartbeatPc
  | some pc => .put p pc
  | none => .done

namespace InvokeThread

variable (t : InvokeThread T)

/-- How `get` and `put` go on in an Invoke. -/
def afterGet (p : Nat) : GetOut → InvokeThread T
  | .next pc => t.goto (.get p pc)
  | .got c => { t with cells := ⟨p, c, false⟩ :: t.cells, pc := .newCall }
  | .failed err => t.continueWith err

def afterPutStep (p : Nat) (result : Except GoString Message) : Option PutPc → InvokeThread T
  | some pc => t.goto (.put p pc result)
  | none => t.afterPut result

def afterUnwindPut (p : Nat) (result : Except GoString Message) : Option PutPc → InvokeThread T
  | some pc => t.goto (.unwindPut p pc result)
  | none => t.goto (.unwind result)

end InvokeThread

namespace Proofs

/-- What an Invoke can do at a program point. -/
inductive InvokeTurn (cfg : ClientConfig V T) (s : ClientShared) (id : Nat) (inp : Input)
    (t : InvokeThread T) : InvokePc → ClientOp → InvokeThread T → Prop
  | attempt (hretry : (t.retry : Int) ≤ cfg.maxRetries) (hinp : inp = .go) :
    InvokeTurn cfg s id inp t .top .nop (t.goto .discover)
  /-- The context ends during the wait before a retry. -/
  | cancelled {err} (hretry : (t.retry : Int) ≤ cfg.maxRetries) (hpos : 0 < t.retry)
    (hinp : inp = .fail err) :
    InvokeTurn cfg s id inp t .top .nop (t.goto (.unwind (.error err)))
  | exhausted (hretry : ¬(t.retry : Int) ≤ cfg.maxRetries) :
    InvokeTurn cfg s id inp t .top .nop
      (t.goto (.unwind (.error (t.lastErr.getD errMaxRetryExceeded))))
  | discovered {target} (hinp : inp = .addr target) :
    InvokeTurn cfg s id inp t .discover .nop (t.goto (.lookup target))
  | undiscovered {err} (hinp : inp = .fail err) :
    InvokeTurn cfg s id inp t .discover .nop (t.continueWith err)
  | found {target p} (hl : lookupPool s target = some (some p)) :
    InvokeTurn cfg s id inp t (.lookup target) .nop (t.goto (.get p .closedCheck))
  | missing {target} (hl : lookupPool s target = some none) :
    InvokeTurn cfg s id inp t (.lookup target) .nop (t.goto (.insert target))
  | insert {target op p} (hins : insertPool cfg s target = some (op, p)) :
    InvokeTurn cfg s id inp t (.insert target) op (t.goto (.get p .closedCheck))
  | get {p g op out} (hg : getStep s p g inp = some (op, out)) :
    InvokeTurn cfg s id inp t (.get p g) op (t.afterGet p out)
  | named (hvalid : t.validMethod = true) :
    InvokeTurn cfg s id inp t .newCall .nop (t.goto .closingCheck)
  | misnamed (hvalid : t.validMethod = false) :
    InvokeTurn cfg s id inp t .newCall .nop
      (t.goto (.unwind (.error (str "invalid method name syntax"))))
  | refused (hmu : s.muHeld = false) (hclosing : s.closing = true) :
    InvokeTurn cfg s id inp t .closingCheck .nop (t.goto (.unwind (.error errClientConnClosing)))
  | admitted (hmu : s.muHeld = false) (hclosing : s.closing = false) :
    InvokeTurn cfg s id inp t .closingCheck .nop (t.goto .prepare)
  | prepared (hinp : inp = .go) : InvokeTurn cfg s id inp t .prepare .nop (t.goto .number)
  | unprepared {err} (hinp : inp = .fail err) :
    InvokeTurn cfg s id inp t .prepare .nop (t.goto (.closeConn err))
  | unnumbered (hmu : s.muHeld = false) (hclosing : s.closing = true) :
    InvokeTurn cfg s id inp t .number .nop (t.goto (.closeConn errClientConnClosing))
  | number (hmu : s.muHeld = false) (hclosing : s.closing = false) :
    InvokeTurn cfg s id inp t .number (.number (s.calls.sequence + 1))
      (t.goto (.write (s.calls.sequence + 1)))
  | write {seq cell rest k} (hcells : t.cells = cell :: rest) (hk : s.conns[cell.conn]? = some k)
    (hopen : k.sockClosed = false) (hinp : inp = .go) :
    InvokeTurn cfg s id inp t (.write seq) (.send cell.conn ⟨id, seq⟩) (t.goto .recv)
  | unwritten {seq err cell rest} (hcells : t.cells = cell :: rest) (hinp : inp = .fail err) :
    InvokeTurn cfg s id inp t (.write seq) .nop (t.goto (.unregister seq err))
  | unregister {seq err} (hmu : s.muHeld = false) :
    InvokeTurn cfg s id inp t (.unregister seq err) (.unregister seq) (t.goto (.closeConn err))
  | closeConn {err cell rest} (hcells : t.cells = cell :: rest) :
    InvokeTurn cfg s id inp t (.closeConn err) (.close cell.conn) (t.released.continueWith err)
  | recv {cell rest k n failure res} (hcells : t.cells = cell :: rest)
    (hk : s.conns[cell.conn]? = some k) (hopen : ¬(k.sockClosed ∧ n ≠ 0))
    (hinp : inp = .read n failure) (hres : (recvFrame cfg k n failure).1 = .ok res) :
    InvokeTurn cfg s id inp t .recv (.read cell.conn (recvFrame cfg k n failure).2)
      (t.goto (.settle res))
  | unreceived {cell rest k n failure fault t'} (hcells : t.cells = cell :: rest)
    (hk : s.conns[cell.conn]? = some k) (hopen : ¬(k.sockClosed ∧ n ≠ 0))
    (hinp : inp = .read n failure) (hres : (recvFrame cfg k n failure).1 = .error fault)
    (hput : t.startPut (.error (str "failed to decode response: " ++ fault.text)) = some t') :
    InvokeTurn cfg s id inp t .recv (.read cell.conn (recvFrame cfg k n failure).2) t'
  | settled {res pending} (hmu : s.muHeld = false)
    (htake : takePending s.calls.pending res.header.seq = .ok pending) :
    InvokeTurn cfg s id inp t (.settle res) (.unregister res.header.seq) (t.goto (.finish res))
  | unsettled {res err t'} (hmu : s.muHeld = false)
    (htake : takePending s.calls.pending res.header.seq = .error err)
    (hput : t.startPut (.error err) = some t') : InvokeTurn cfg s id inp t (.settle res) .nop t'
  | finish {res t'}
    (hput : t.startPut ((readResponse cfg.proto t.replyType res).map (fun _ => res)) = some t') :
    InvokeTurn cfg s id inp t (.finish res) .nop t'
  | put {p g result op out} (hp : putStep s p g = some (op, out)) :
    InvokeTurn cfg s id inp t (.put p g result) op (t.afterPutStep p result out)
  | unwound {result} (hcells : t.cells = []) :
    InvokeTurn cfg s id inp t (.unwind result) .nop (t.goto (.done result))
  | unwind {result cell rest} (hcells : t.cells = cell :: rest) :
    InvokeTurn cfg s id inp t (.unwind result) .nop
      { t with
        cells := rest
        pc := if cell.connReleased then .unwind result
          else .unwindPut cell.pool (.check cell.conn) result }
  | unwindPut {p g result op out} (hp : putStep s p g = some (op, out)) :
    InvokeTurn cfg s id inp t (.unwindPut p g result) op (t.afterUnwindPut p result out)

/-- What a heartbeat can do at a program point. The codec does not marshal the nil request, so it
sends nothing. -/
inductive HeartbeatTurn (cfg : ClientConfig V T) (s : ClientShared) (id : Nat) (inp : Input) :
    HeartbeatPc → ClientOp → HeartbeatPc → Prop
  | discovered {target} (hinp : inp = .addr target) :
    HeartbeatTurn cfg s id inp .discover .nop (.lookup target)
  | undiscovered {err} (hinp : inp = .fail err) : HeartbeatTurn cfg s id inp .discover .nop .done
  | found {target p} (hl : lookupPool s target = some (some p)) :
    HeartbeatTurn cfg s id inp (.lookup target) .nop (.get p .closedCheck)
  | missing {target} (hl : lookupPool s target = some none) :
    HeartbeatTurn cfg s id inp (.lookup target) .nop (.insert target)
  | insert {target op p} (hins : insertPool cfg s target = some (op, p)) :
    HeartbeatTurn cfg s id inp (.insert target) op (.get p .closedCheck)
  | get {p g op out} (hg : getStep s p g inp = some (op, out)) :
    HeartbeatTurn cfg s id inp (.get p g) op (HeartbeatPc.afterGet p out)
  | health {p c k h op healthy} (hk : s.conns[c]? = some k) (hinp : inp = .health h)
    (hh : isHealthy k c h = some (op, healthy)) :
    HeartbeatTurn cfg s id inp (.health p c) op (if healthy then .send p c else .closeConn p c)
  | send {p c left} (hinp : inp = .deadline left) :
    HeartbeatTurn cfg s id inp (.send p c) .nop (.closeConn p c)
  | unnumbered {p c} (hmu : s.muHeld = false) (hclosing : s.closing = true) :
    HeartbeatTurn cfg s id inp (.number p c) .nop (.closeConn p c)
  | number {p c} (hmu : s.muHeld = false) (hclosing : s.closing = false) :
    HeartbeatTurn cfg s id inp (.number p c) (.number (s.calls.sequence + 1))
      (.write p c (s.calls.sequence + 1))
  | write {p c seq k} (hk : s.conns[c]? = some k) (hopen : k.sockClosed = false)
    (hinp : inp = .go) :
    HeartbeatTurn cfg s id inp (.write p c seq) (.send c ⟨id, seq⟩) (.put p (.check c))
  | unwritten {p c seq k err} (hk : s.conns[c]? = some k) (hinp : inp = .fail err) :
    HeartbeatTurn cfg s id inp (.write p c seq) .nop (.unregister p c seq)
  | unregister {p c seq} (hmu : s.muHeld = false) :
    HeartbeatTurn cfg s id inp (.unregister p c seq) (.unregister seq) (.closeConn p c)
  | closeConn {p c} : HeartbeatTurn cfg s id inp (.closeConn p c) (.close c) (.put p (.check c))
  | put {p g op out} (hp : putStep s p g = some (op, out)) :
    HeartbeatTurn cfg s id inp (.put p g) op (HeartbeatPc.afterPut p out)

variable {cfg : ClientConfig V T} {s : ClientShared} {id : Nat} {inp : Input} {t t' : InvokeThread T}
  {op : ClientOp}

lemma invokeStep_turn (h : invokeStep cfg s id t inp = some (op, t')) :
    InvokeTurn cfg s id inp t t.pc op t' := by
  obtain ⟨validMethod, replyType, retry, lastErr, cells, pc⟩ := t
  cases pc with
  | top =>
    simp only [invokeStep] at h
    split at h
    · next hretry =>
      split at h
      · cases h
        exact .attempt hretry rfl
      · split at h <;> cases h
        next hpos => exact .cancelled hretry hpos rfl
      · cases h
    · next hretry =>
      cases h
      exact .exhausted hretry
  | discover =>
    simp only [invokeStep] at h
    split at h <;> cases h
    · exact .discovered rfl
    · exact .undiscovered rfl
  | lookup target =>
    simp only [invokeStep] at h
    split at h <;> cases h
    · next hl => exact .found hl
    · next hl => exact .missing hl
  | insert target =>
    simp only [invokeStep] at h
    split at h <;> cases h
    next hins => exact .insert hins
  | get p g =>
    simp only [invokeStep] at h
    split at h <;> cases h
    · next hg => exact .get hg
    · next hg => exact .get hg
    · next hg => exact .get hg
  | newCall =>
    simp only [invokeStep] at h
    split at h <;> cases h
    · next hvalid => exact .named hvalid
    · next hvalid => exact .misnamed (Bool.eq_false_of_not_eq_true hvalid)
  | closingCheck =>
    simp only [invokeStep] at h
    split at h
    · cases h
    · next hmu =>
      have hmu := Bool.eq_false_of_not_eq_true hmu
      split at h <;> cases h
      · next hclosing => exact .refused hmu hclosing
      · next hclosing => exact .admitted hmu (Bool.eq_false_of_not_eq_true hclosing)
  | prepare =>
    simp only [invokeStep] at h
    split at h <;> cases h
    · exact .prepared rfl
    · exact .unprepared rfl
  | number =>
    simp only [invokeStep] at h
    split at h
    · cases h
    · next hmu =>
      have hmu := Bool.eq_false_of_not_eq_true hmu
      split at h <;> cases h
      · next hclosing => exact .unnumbered hmu hclosing
      · next hclosing => exact .number hmu (Bool.eq_false_of_not_eq_true hclosing)
  | write seq =>
    simp only [invokeStep] at h
    split at h
    · split at h
      · next hk =>
        split at h <;> cases h
        next hopen => exact .write rfl hk (Bool.eq_false_of_not_eq_true hopen) rfl
      · cases h
    · cases h
      exact .unwritten rfl rfl
    · cases h
  | unregister seq err =>
    simp only [invokeStep] at h
    split at h <;> cases h
    next hmu => exact .unregister (Bool.eq_false_of_not_eq_true hmu)
  | closeConn err =>
    simp only [invokeStep] at h
    split at h <;> cases h
    exact .closeConn rfl
  | recv =>
    simp only [invokeStep] at h
    split at h
    · split at h
      · cases h
      · next hk =>
        split at h
        · cases h
        · next hopen =>
          split at h
          · next hres =>
            cases h
            exact .recv rfl hk hopen rfl hres
          · next hres =>
            obtain ⟨u, hput, hout⟩ := Option.map_eq_some_iff.mp h
            cases hout
            exact .unreceived rfl hk hopen rfl hres hput
    · cases h
  | settle res =>
    simp only [invokeStep] at h
    split at h
    · cases h
    · next hmu =>
      have hmu := Bool.eq_false_of_not_eq_true hmu
      split at h
      · next htake =>
        obtain ⟨u, hput, hout⟩ := Option.map_eq_some_iff.mp h
        cases hout
        exact .unsettled hmu htake hput
      · next htake =>
        cases h
        exact .settled hmu htake
  | finish res =>
    obtain ⟨u, hput, hout⟩ := Option.map_eq_some_iff.mp h
    cases hout
    exact .finish hput
  | put p g result =>
    simp only [invokeStep] at h
    split at h <;> cases h
    · next hp => exact .put hp
    · next hp => exact .put hp
  | unwind result =>
    simp only [invokeStep] at h
    split at h <;> cases h
    · exact .unwound rfl
    · exact .unwind rfl
  | unwindPut p g result =>
    simp only [invokeStep] at h
    split at h <;> cases h
    · next hp => exact .unwindPut hp
    · next hp => exact .unwindPut hp
  | done result => cases h

/-- The codec has no encoding of the nil request. -/
lemma heartbeatMessage_eq (cfg : ClientConfig V T) (left : Int) :
    heartbeatMessage cfg left = fail errInvalidProtoMessage := rfl

lemma heartbeatStep_turn {pc pc' : HeartbeatPc}
    (h : heartbeatStep cfg s id pc inp = some (op, pc')) : HeartbeatTurn cfg s id inp pc op pc' := by
  cases pc with
  | discover =>
    simp only [heartbeatStep] at h
    split at h <;> cases h
    · exact .discovered rfl
    · exact .undiscovered rfl
  | lookup target =>
    simp only [heartbeatStep] at h
    split at h <;> cases h
    · next hl => exact .found hl
    · next hl => exact .missing hl
  | insert target =>
    simp only [heartbeatStep] at h
    split at h <;> cases h
    next hins => exact .insert hins
  | get p g =>
    simp only [heartbeatStep] at h
    split at h <;> cases h
    · next hg => exact .get hg
    · next hg => exact .get hg
    · next hg => exact .get hg
  | health p c =>
    simp only [heartbeatStep] at h
    split at h
    · next hk =>
      split at h <;> cases h
      next hh => exact .health hk rfl hh
    · cases h
  | send p c =>
    simp only [heartbeatStep] at h
    split at h
    · rw [heartbeatMessage_eq] at h
      cases h
      exact .send rfl
    · cases h
  | number p c =>
    simp only [heartbeatStep] at h
    split at h
    · cases h
    · next hmu =>
      have hmu := Bool.eq_false_of_not_eq_true hmu
      split at h <;> cases h
      · next hclosing => exact .unnumbered hmu hclosing
      · next hclosing => exact .number hmu (Bool.eq_false_of_not_eq_true hclosing)
  | write p c seq =>
    simp only [heartbeatStep] at h
    split at h
    · next hk =>
      split at h <;> cases h
      next hopen => exact .write hk (Bool.eq_false_of_not_eq_true hopen) rfl
    · next hk =>
      cases h
      exact .unwritten hk rfl
    · cases h
  | unregister p c seq =>
    simp only [heartbeatStep] at h
    split at h <;> cases h
    next hmu => exact .unregister (Bool.eq_false_of_not_eq_true hmu)
  | closeConn p c =>
    cases h
    exact .closeConn
  | put p g =>
    simp only [heartbeatStep] at h
    split at h <;> cases h
    · next hp => exact .put hp
    · next hp => exact .put hp
  | done => cases h

end Proofs

end Zrpc
