import Zrpc.Proofs.Answer
import Zrpc.WorkerPool

/-!
# What can crash a server

`serveRequest` runs in a bare goroutine. It panics exactly when it looks up a token that is not
there, or when it sends into a channel that `stop` has closed. The first needs a request that came
without a token, or one whose token lies in a pooled buffer that somebody fills before `auth` looks;
the second needs a channel that is closed before every request has been dispatched.
-/

namespace Zrpc

def ConnPc.isReading : ConnPc → Bool
  | .reading => true
  | .checking | .gone => false

def RequestPc.ended : RequestPc → Bool
  | .finished _ => true
  | .started | .dispatching _ => false

/-- This round of `stop`'s goroutine closes the channel. -/
def ServeState.closesNow (s : ServeState) (k : Nat) (timeout : Bool) : Bool :=
  decide (s.stops[k]? = some .draining) && (timeout || s.queue.isEmpty)

end Zrpc

namespace Zrpc.Proofs

open Zrpc.Lib

variable {V T : Type}

/-- No token is looked up, or there is one. -/
def TokenPresent (opt : ServerOption) (req : Message) : Prop :=
  req.header.isHeartBeat = true ∨ opt.authFunc.isNone = true ∨ req.metadata.values authKey ≠ []

instance (opt : ServerOption) (req : Message) : Decidable (TokenPresent opt req) :=
  inferInstanceAs (Decidable (_ ∨ _ ∨ _))

/-- A rejected request is answered: neither `handleError` nor `sendResponse` fails. -/
lemma reject_ok (E : Env) (P : Proto V T) (S : Server V T) (c : ∀ md, EncodeChoice md)
    (req : Message) (e : GoString) : ∃ sent, S.reject E P c req e = .ok sent := by
  obtain ⟨res, herr, -, hpay, -⟩ := handleError_eq E S.opt (responseOf req) e
  obtain ⟨res', frame, hsent, -⟩ := sendResponse_kept E P S.opt c (some e) req res none
    (hpay.trans rfl) (.inl (by simp))
  refine ⟨⟨res', frame⟩, ?_⟩
  unfold Server.reject
  rw [herr]
  exact hsent

lemma auth_ne_panic_iff (opt : ServerOption) (ctx : Ctx) (req : Message) :
    opt.auth ctx req ≠ .error .panic ↔
      opt.authFunc.isNone = true ∨ req.metadata.values authKey ≠ [] := by
  unfold ServerOption.auth
  cases opt.authFunc with
  | none => simp
  | some authFunc =>
    cases req.metadata.values authKey with
    | nil => simp [index, Bind.bind, Except.bind]
    | cons token rest =>
      have hi : index (token :: rest) 0 = .ok token := rfl
      simp only [hi, Bind.bind, Except.bind]
      cases authFunc ctx req token <;> simp [fail]

/-- The verdict decides: only the panic of `auth` is a panic of the goroutine. -/
lemma authorize_ok_iff (E : Env) (P : Proto V T) (S : Server V T) (c : ∀ md, EncodeChoice md)
    (req : Message) : (∃ r, S.authorize E P c req = .ok r) ↔ TokenPresent S.opt req := by
  obtain ⟨ctx, hctx⟩ := requestCtx_ok E req
  unfold Server.authorize TokenPresent
  simp only [hctx, Bind.bind, Except.bind]
  by_cases hb : req.header.isHeartBeat = true
  · simp [hb, pure, Except.pure]
  rw [or_iff_right hb, ← auth_ne_panic_iff S.opt ctx req]
  simp only [hb]
  cases h : S.opt.auth ctx req with
  | ok u => simp [pure, Except.pure]
  | error e =>
    cases e with
    | panic => simp
    | error text =>
      obtain ⟨sent, hsent⟩ := reject_ok E P S c req text
      simp [hsent, Functor.map, Except.map]

/-! ### Steps of the server's goroutines -/

/-- What the `select` of `serveRequest` can do. -/
inductive DispatchMove (opt : ServerOption) (s : ServeState) (i : Nat) : ServeState → Prop
  | crash (hpool : opt.enableWorkerPool = true) (hclosed : s.chanClosed = true) :
    DispatchMove opt s i s.crash
  | send (hsends : s.sends opt = true) : DispatchMove opt s i { s with queue := s.queue ++ [i] }
  | direct (hsends : s.sends opt = false)
    (hopen : opt.enableWorkerPool = false ∨ s.chanClosed = false) :
    DispatchMove opt s i { s with executed := s.executed ++ [i] }

/-- What a step of a server can do. -/
inductive ServeMove (E : Env) (P : Proto V T) (S : Server V T) (c : ∀ md, EncodeChoice md)
    (s : ServeState) : ServeAction → ServeState → Prop
  | accept : ServeMove E P S c s .accept { s with conns := s.conns ++ [.checking] }
  | check {i} (hi : s.conns[i]? = some .checking) :
    ServeMove E P S c s (.check i)
      { s with conns := s.conns.set i (if s.inShutdown then .gone else .reading) }
  | read {i req dataLen} (hi : s.conns[i]? = some .reading) :
    ServeMove E P S c s (.read i req dataLen)
      { s with
        conns := s.conns.set i .checking
        requests := s.requests ++ [⟨req, dataLen, .started⟩] }
  | overwrite {i r serviceName serviceMethod metadata} (hr : s.requests[i]? = some r)
    (hpooled : ownFrame r.dataLen = false) :
    ServeMove E P S c s (.overwrite i serviceName serviceMethod metadata)
      (s.setRequest i (r.overwrite serviceName serviceMethod metadata))
  | hangUp {i} (hi : s.conns[i]? = some .reading) :
    ServeMove E P S c s (.hangUp i) { s with conns := s.conns.set i .gone }
  | letIn {i req dataLen ctx} (hr : s.requests[i]? = some ⟨req, dataLen, .started⟩)
    (hauth : S.authorize E P c req = .ok (.inl ctx)) :
    ServeMove E P S c s (.authorize i) (s.setRequest i ⟨req, dataLen, .dispatching ctx⟩)
  | refuse {i req dataLen sent} (hr : s.requests[i]? = some ⟨req, dataLen, .started⟩)
    (hauth : S.authorize E P c req = .ok (.inr sent)) :
    ServeMove E P S c s (.authorize i) (s.setRequest i ⟨req, dataLen, .finished none⟩)
  | panic {i req dataLen e} (hr : s.requests[i]? = some ⟨req, dataLen, .started⟩)
    (hauth : S.authorize E P c req = .error e) : ServeMove E P S c s (.authorize i) s.crash
  | dispatch {i req dataLen ctx t} (hr : s.requests[i]? = some ⟨req, dataLen, .dispatching ctx⟩)
    (h : DispatchMove S.opt (s.setRequest i ⟨req, dataLen, .finished (some ctx)⟩) i t) :
    ServeMove E P S c s (.dispatch i) t
  | work {i queue} (hq : s.queue = i :: queue) :
    ServeMove E P S c s .work { s with queue := queue, executed := s.executed ++ [i] }
  | stop : ServeMove E P S c s .stop { s with inShutdown := true, stops := s.stops ++ [.flagged] }
  | startDrain {k timeout} (hk : s.stops[k]? = some .flagged) :
    ServeMove E P S c s (.drain k timeout)
      { s with stops := s.stops.set k (if S.opt.enableWorkerPool then .draining else .closed) }
  | discard {k i queue} (hk : s.stops[k]? = some .draining) (hq : s.queue = i :: queue) :
    ServeMove E P S c s (.drain k false) { s with queue := queue }
  | close {k timeout} (hk : s.stops[k]? = some .draining)
    (hnow : s.closesNow k timeout = true) :
    ServeMove E P S c s (.drain k timeout)
      { s with chanClosed := true, stops := s.stops.set k .closed }
  /-- A closed channel delivers a zero value. -/
  | spin {k} (hk : s.stops[k]? = some .draining) (hq : s.queue = [])
    (hclosed : s.chanClosed = true) : ServeMove E P S c s (.drain k false) s

section Step

variable {E : Env} {P : Proto V T} {S : Server V T} {c : ∀ md, EncodeChoice md} {s t : ServeState}
  {a : ServeAction}

lemma not_sends_of_closed {opt : ServerOption} (h : s.chanClosed = true) : s.sends opt = false := by
  simp [ServeState.sends, h]

lemma open_of_sends {opt : ServerOption} (h : s.sends opt = true) : s.chanClosed = false :=
  Bool.eq_false_of_not_eq_true fun hclosed => by simp [not_sends_of_closed hclosed] at h

lemma dispatch_move (opt : ServerOption) (s : ServeState) (i : Nat) :
    DispatchMove opt s i (s.dispatch opt i) := by
  unfold ServeState.dispatch
  split
  · next hpool =>
    split
    · next hclosed => exact .crash hpool hclosed
    · next hopen =>
      have hopen := Bool.eq_false_of_not_eq_true hopen
      split
      · next hroom => exact .send (by simp [ServeState.sends, hpool, hopen, hroom])
      · next hfull => exact .direct (by simp [ServeState.sends, hfull]) (.inr hopen)
  · next hpool =>
    have hpool := Bool.eq_false_of_not_eq_true hpool
    exact .direct (by simp [ServeState.sends, hpool]) (.inl hpool)

lemma drain_move {k : Nat} {timeout : Bool} (hk : s.stops[k]? = some .draining) :
    ServeMove E P S c s (.drain k timeout) (s.drain k timeout) := by
  unfold ServeState.drain
  split
  · next htimeout => exact .close hk (by simp [ServeState.closesNow, hk, htimeout])
  · next htimeout =>
    obtain rfl := Bool.eq_false_of_not_eq_true htimeout
    split
    · next hq => exact .discard hk hq
    · next hq =>
      split
      · next hclosed => exact .spin hk hq hclosed
      · exact .close hk (by simp [ServeState.closesNow, hk, hq])

lemma serveStep_alive (h : serveStep E P S c s a = some t) : s.crashed = false := by
  unfold serveStep at h
  cases hs : s.crashed with
  | false => rfl
  | true => simp [hs] at h

lemma serveStep_move (h : serveStep E P S c s a = some t) : ServeMove E P S c s a t := by
  have hs := serveStep_alive h
  unfold serveStep at h
  rw [if_neg (by simp [hs])] at h
  cases a with
  | accept =>
    cases h
    exact .accept
  | stop =>
    cases h
    exact .stop
  | check i =>
    dsimp only at h
    split at h <;> cases h
    next hi => exact .check hi
  | read i req dataLen =>
    dsimp only at h
    split at h <;> cases h
    next hi => exact .read hi
  | hangUp i =>
    dsimp only at h
    split at h <;> cases h
    next hi => exact .hangUp hi
  | overwrite i serviceName serviceMethod metadata =>
    dsimp only at h
    split at h
    · next r hr =>
      split at h <;> cases h
      next hpooled => exact .overwrite hr (Bool.eq_false_of_not_eq_true hpooled)
    · cases h
  | authorize i =>
    dsimp only at h
    split at h
    · next hr =>
      split at h <;> cases h
      · next hauth => exact .letIn hr hauth
      · next hauth => exact .refuse hr hauth
      · next hauth => exact .panic hr hauth
    · cases h
  | dispatch i =>
    dsimp only at h
    split at h <;> cases h
    next hr => exact .dispatch hr (dispatch_move _ _ _)
  | work =>
    dsimp only at h
    split at h <;> cases h
    next hq => exact .work hq
  | drain k timeout =>
    dsimp only at h
    split at h <;> cases h
    · next hk => exact .startDrain hk
    · next hk => exact drain_move hk

end Step

/-- The condition under which a step of a server does not crash it. -/
def StepSafe (opt : ServerOption) (s : ServeState) : ServeAction → Prop
  | .authorize i => ∀ t ∈ s.requests[i]?, TokenPresent opt t.req
  | .dispatch _ => opt.enableWorkerPool = false ∨ s.chanClosed = false
  | _ => True

lemma serveStep_crashed {E : Env} {P : Proto V T} {S : Server V T} {c : ∀ md, EncodeChoice md}
    {s t : ServeState} {a : ServeAction} (h : serveStep E P S c s a = some t) :
    t.crashed = false ↔ StepSafe S.opt s a := by
  have hs := serveStep_alive h
  cases serveStep_move h with
  | letIn hr hauth | refuse hr hauth =>
    refine iff_of_true hs fun x hx => ?_
    cases hr.symm.trans hx
    exact (authorize_ok_iff E P S c _).mp ⟨_, hauth⟩
  | panic hr hauth =>
    refine iff_of_false (by simp [ServeState.crash]) fun hsafe => ?_
    obtain ⟨verdict, hok⟩ := (authorize_ok_iff E P S c _).mpr (hsafe _ hr)
    rw [hauth] at hok
    cases hok
  | dispatch hr hd =>
    cases hd with
    | crash hpool hclosed =>
      have hclosed : s.chanClosed = true := hclosed
      exact iff_of_false (by simp [ServeState.crash]) (by simp [StepSafe, hpool, hclosed])
    | send hsends => exact iff_of_true hs (.inr (open_of_sends hsends))
    | direct _ hopen => exact iff_of_true hs hopen
  | _ => exact iff_of_true hs trivial

/-! ### Conditions at the cause -/

/-- No token is looked up, or there is one in memory that nobody else fills. -/
def TokenKept (opt : ServerOption) (req : Message) (dataLen : Nat) : Prop :=
  req.header.isHeartBeat = true ∨ opt.authFunc.isNone = true ∨
    (req.metadata.values authKey ≠ [] ∧ ownFrame dataLen = true)

instance (opt : ServerOption) (req : Message) (dataLen : Nat) : Decidable (TokenKept opt req dataLen) :=
  inferInstanceAs (Decidable (_ ∨ _ ∨ _))

/-- Every request is read with a token that stays, if `auth` asks for one, and the channel is closed
only when no read loop waits for a request and every request has been dispatched or refused. -/
def CrashFree (opt : ServerOption) (s : ServeState) : ServeAction → Prop
  | .read _ req dataLen => TokenKept opt req dataLen
  | .drain k timeout => s.closesNow k timeout = true →
      (∀ conn ∈ s.conns, conn.isReading = false) ∧ ∀ r ∈ s.requests, r.pc.ended = true
  | _ => True

instance (opt : ServerOption) (s : ServeState) : ∀ a, Decidable (CrashFree opt s a)
  | .read _ req dataLen => inferInstanceAs (Decidable (TokenKept opt req dataLen))
  | .drain _ _ => inferInstanceAs (Decidable (_ → _ ∧ _))
  | .accept | .check _ | .overwrite _ _ _ _ | .hangUp _ | .authorize _ | .dispatch _ | .work
  | .stop => isTrue trivial

structure Unharmed (opt : ServerOption) (s : ServeState) : Prop where
  alive : s.crashed = false
  tokens : ∀ r ∈ s.requests, TokenKept opt r.req r.dataLen
  stopped : s.stops ≠ [] → s.inShutdown = true
  closed : s.chanClosed = true → s.inShutdown = true ∧
    (∀ conn ∈ s.conns, conn.isReading = false) ∧ ∀ r ∈ s.requests, r.pc.ended = true

section Unharmed

variable {E : Env} {P : Proto V T} {S : Server V T} {c : ∀ md, EncodeChoice md} {opt : ServerOption}
  {s t : ServeState}

lemma tokenPresent_of_kept {req : Message} {dataLen : Nat} (h : TokenKept opt req dataLen) :
    TokenPresent opt req := h.imp id (fun h => h.imp id And.left)

lemma tokenKept_overwrite {r : RequestThread} (hpooled : ownFrame r.dataLen = false)
    (h : TokenKept opt r.req r.dataLen) (serviceName serviceMethod : GoString) (metadata : MD) :
    TokenKept opt (r.overwrite serviceName serviceMethod metadata).req r.dataLen := by
  rcases h with hb | hnone | ⟨-, hown⟩
  · exact .inl hb
  · exact .inr (.inl hnone)
  · rw [hpooled] at hown
    cases hown

lemma ended_overwrite (pc : RequestPc) (metadata : MD) : (pc.overwrite metadata).ended = pc.ended := by
  cases pc <;> rfl

/-- A request that is not over keeps the channel open. -/
lemma Unharmed.open_of_request (hs : Unharmed opt s) {i : Nat} {r : RequestThread}
    (hr : s.requests[i]? = some r) (hpc : r.pc.ended = false) : s.chanClosed = false := by
  refine Bool.eq_false_of_not_eq_true fun hclosed => ?_
  rw [(hs.closed hclosed).2.2 r (List.mem_of_getElem? hr)] at hpc
  cases hpc

lemma Unharmed.safe (hs : Unharmed S.opt s) {a : ServeAction}
    (h : serveStep E P S c s a = some t) : StepSafe S.opt s a := by
  cases serveStep_move h with
  | letIn | refuse | panic =>
    intro r hr
    exact tokenPresent_of_kept (hs.tokens r (List.mem_of_getElem? hr))
  | dispatch hr => exact .inr (hs.open_of_request hr rfl)
  | _ => trivial

/-- A goroutine of `serveRequest` moves on with its request, while the channel is open. -/
lemma Unharmed.setRequest (hs : Unharmed opt s) {i : Nat} {r r' : RequestThread}
    (hr : s.requests[i]? = some r) (hpc : r.pc.ended = false) (hreq : r'.req = r.req)
    (hlen : r'.dataLen = r.dataLen) : Unharmed opt (s.setRequest i r') := by
  have hopen := hs.open_of_request hr hpc
  refine ⟨hs.alive, fun x hx => ?_, hs.stopped, fun hclosed => ?_⟩
  · rcases List.mem_or_eq_of_mem_set hx with hold | rfl
    · exact hs.tokens x hold
    · rw [hreq, hlen]
      exact hs.tokens r (List.mem_of_getElem? hr)
  · rw [show (s.setRequest i r').chanClosed = s.chanClosed from rfl, hopen] at hclosed
    cases hclosed

lemma Unharmed.setConn (hs : Unharmed opt s) (i : Nat) {pc : ConnPc}
    (hpc : s.chanClosed = true → pc.isReading = false) :
    Unharmed opt { s with conns := s.conns.set i pc } := by
  refine ⟨hs.alive, hs.tokens, hs.stopped, fun hclosed => ?_⟩
  obtain ⟨hdown, hconns, hrequests⟩ := hs.closed hclosed
  refine ⟨hdown, fun conn hmem => ?_, hrequests⟩
  rcases List.mem_or_eq_of_mem_set hmem with hold | rfl
  · exact hconns conn hold
  · exact hpc hclosed

lemma unharmed_step {a : ServeAction} (hs : Unharmed S.opt s) (hok : CrashFree S.opt s a)
    (h : serveStep E P S c s a = some t) : Unharmed S.opt t := by
  have hlive : t.crashed = false := (serveStep_crashed h).mpr (hs.safe h)
  have hdown : ∀ {k : Nat} {pc : StopPc}, s.stops[k]? = some pc → s.inShutdown = true := by
    intro k pc hk
    refine hs.stopped fun hnil => ?_
    rw [hnil] at hk
    cases hk
  cases serveStep_move h with
  | accept =>
    refine ⟨hlive, hs.tokens, hs.stopped, fun hclosed => ?_⟩
    obtain ⟨hdown, hconns, hrequests⟩ := hs.closed hclosed
    refine ⟨hdown, fun conn hmem => ?_, hrequests⟩
    rcases List.mem_append.mp hmem with hold | hnew
    · exact hconns conn hold
    · rw [List.mem_singleton.mp hnew]
      rfl
  | check =>
    refine hs.setConn _ fun hclosed => ?_
    rw [(hs.closed hclosed).1]
    rfl
  | hangUp => exact hs.setConn _ fun _ => rfl
  | read hreading =>
    -- a read loop that waits for a request keeps the channel open
    have hopen : s.chanClosed ≠ true := by
      intro hclosed
      cases (hs.closed hclosed).2.1 _ (List.mem_of_getElem? hreading)
    refine ⟨hlive, fun r hr => ?_, hs.stopped, fun hclosed => absurd hclosed hopen⟩
    rcases List.mem_append.mp hr with hold | hnew
    · exact hs.tokens r hold
    · rw [List.mem_singleton.mp hnew]
      exact hok
  | @overwrite i r _ _ metadata hr hpooled =>
    have hmem := List.mem_of_getElem? hr
    refine ⟨hlive, fun x hx => ?_, hs.stopped, fun hclosed => ?_⟩
    · rcases List.mem_or_eq_of_mem_set hx with hold | rfl
      · exact hs.tokens x hold
      · exact tokenKept_overwrite hpooled (hs.tokens r hmem) _ _ _
    · obtain ⟨hdown, hconns, hrequests⟩ := hs.closed hclosed
      refine ⟨hdown, hconns, fun x hx => ?_⟩
      rcases List.mem_or_eq_of_mem_set hx with hold | rfl
      · exact hrequests x hold
      · exact (ended_overwrite r.pc metadata).trans (hrequests r hmem)
  | letIn hr | refuse hr => exact hs.setRequest hr rfl rfl rfl
  | panic => cases hlive
  | @dispatch i req dataLen ctx _ hr hd =>
    have hset : Unharmed S.opt (s.setRequest i ⟨req, dataLen, .finished (some ctx)⟩) :=
      hs.setRequest hr rfl rfl rfl
    cases hd with
    | crash => cases hlive
    | send | direct => exact ⟨hlive, hset.tokens, hset.stopped, hset.closed⟩
  | work | discard => exact ⟨hlive, hs.tokens, hs.stopped, hs.closed⟩
  | spin => exact hs
  | stop => exact ⟨hlive, hs.tokens, fun _ => rfl, fun hclosed => ⟨rfl, (hs.closed hclosed).2⟩⟩
  | startDrain hk => exact ⟨hlive, hs.tokens, fun _ => hdown hk, hs.closed⟩
  | close hk hnow =>
    exact ⟨hlive, hs.tokens, fun _ => hdown hk, fun _ => ⟨hdown hk, hok hnow⟩⟩

lemma unharmed_init (opt : ServerOption) : Unharmed opt .init :=
  ⟨rfl, fun _ hr => (by cases hr), fun hne => absurd rfl hne, fun hclosed => (by cases hclosed)⟩

end Unharmed

/-- A server does not crash in a run in which every request that `auth` asks for a token comes with
one, in a frame whose memory is its own, and in which the channel of the worker pool is closed only
when no read loop waits for a request and no request is still to be dispatched. -/
theorem serve_crash_free (E : Env) (P : Proto V T) (S : Server V T) (c : ∀ md, EncodeChoice md)
    (as : List ServeAction) (s : ServeState) (h : exec (serveStep E P S c) .init as = some s)
    (hok : Guarded (serveStep E P S c) (CrashFree S.opt) .init as) : s.crashed = false :=
  (exec_invariant_guarded (Unharmed S.opt) (fun _ _ _ hs ha ht => unharmed_step hs ha ht)
    (unharmed_init S.opt) hok h).alive

/-- A server with a worker pool that lets every token in. -/
def pooledOption : ServerOption := ⟨some fun _ _ _ => none, none, 0, true, 8⟩

/-- A request that carries a token. -/
def authorizedRequest : Message :=
  { sampleRequest with metadata := ⟨[⟨authKey, [str "token"]⟩], List.nodupKeys_singleton _⟩ }

/-- A request is admitted, queued and worked off before the server stops; the client hangs up before
the channel is closed. -/
def servedThenStopped : List ServeAction :=
  [.accept, .check 0, .read 0 authorizedRequest 49, .authorize 0, .dispatch 0, .work, .check 0,
    .hangUp 0, .stop, .drain 0 false, .drain 0 false]

theorem serve_crash_free_servedThenStopped : ∃ s,
    exec (serveStep storedEnv bytesProto (echoServer pooledOption) .plain) .init
      servedThenStopped = some s ∧ s.chanClosed = true ∧ s.executed = [0] ∧ s.crashed = false :=
  ⟨_, rfl, rfl, rfl, serve_crash_free storedEnv bytesProto (echoServer pooledOption) .plain
    servedThenStopped _ rfl (by decide)⟩

/-- A request without a token crashes a server that asks for one; so does a request whose token lies
in a pooled buffer that is filled before `auth` looks; and a request that is dispatched after the
drainer has closed the channel crashes a server with a worker pool. -/
theorem serve_crash :
    (exec (serveStep storedEnv bytesProto (echoServer pooledOption) .plain) .init
      [.accept, .check 0, .read 0 sampleRequest 49, .authorize 0]).map ServeState.crashed =
        some true ∧
    (exec (serveStep storedEnv bytesProto (echoServer pooledOption) .plain) .init
      [.accept, .check 0, .read 0 authorizedRequest 2048,
        .overwrite 0 sampleRequest.serviceName sampleRequest.serviceMethod ∅,
        .authorize 0]).map ServeState.crashed = some true ∧
    (exec (serveStep storedEnv bytesProto (echoServer pooledOption) .plain) .init
      [.accept, .check 0, .read 0 authorizedRequest 49, .authorize 0, .stop, .drain 0 false,
        .drain 0 false, .dispatch 0]).map ServeState.crashed = some true :=
  ⟨by decide, by decide, by decide⟩

end Zrpc.Proofs
