import Zrpc.Proofs.ClientUsable

/-!
# `get` and `put` during `connPool.Close`

`get` and `put` look at the pool or at the connection first, and mark and queue the connection in
later steps. This is safe as long as the pool is not closed between the look and the last of these
steps.
-/

namespace Zrpc

variable {V T : Type}

/-- The pool that a goroutine is about to close. -/
def Thread.startsClose : Thread T → Option Nat
  | .closer _ (.pool _ p .start _) => some p
  | _ => none

/-- The pool and the connection that `put` is about to check. -/
def Thread.returns : Thread T → Option (Nat × Nat)
  | .invoke t => match t.pc with
    | .put p (.check c) _ | .unwindPut p (.check c) _ => some (p, c)
    | _ => none
  | .heartbeat (.put p (.check c)) => some (p, c)
  | _ => none

namespace Proofs

open Zrpc.Lib

/-- A pool is closed only while no goroutine is inside its `get` or `put` past the first check, and
`put` on a closed pool finds the connection closed. -/
def CalmClose (s : ClientState T) : ClientAction T → Prop
  | .run i _ => ∀ th ∈ s.threads[i]?,
      (∀ p ∈ th.startsClose, ∀ q ∈ s.shared.connPools[p]?, q.closed = false →
        ∀ other ∈ s.threads, other.pastCheck p = false) ∧
      ∀ x ∈ th.returns, ∀ q ∈ s.shared.connPools[x.1]?, q.closed = true →
        ∀ k ∈ s.shared.conns[x.2]?, k.status = .closed
  | _ => True

instance (s : ClientState T) : ∀ a, Decidable (CalmClose s a)
  | .run i _ => inferInstanceAs (Decidable (∀ th ∈ s.threads[i]?, _ ∧ _))
  | .invoke _ _ | .heartbeat | .close | .updateServers _ | .answer _ _ _ _ => isTrue trivial

/-! ### Steps of a goroutine -/

section Steps

variable {cfg : ClientConfig V T} {s : ClientShared} {op : ClientOp} {p id : Nat} {inp : Input}

lemma getStep_enters {p' : Nat} {g g' : GetPc} (h : getStep s p' g inp = some (op, .next g'))
    (hg : g.pastCheck = false) : ∃ q, s.connPools[p']? = some q ∧ q.closed = false := by
  cases g with
  | closedCheck =>
    unfold getStep at h
    split at h
    · cases h
    · next q hq =>
      cases hclosed : q.closed with
      | true => simp [hclosed] at h
      | false => exact ⟨q, hq, hclosed⟩
  | _ => cases hg

lemma putStep_enters {p' : Nat} {g g' : PutPc} (h : putStep s p' g = some (op, some g'))
    (hg : g.pastCheck = false) : ∃ c k, g = .check c ∧ s.conns[c]? = some k ∧ k.status ≠ .closed := by
  cases g with
  | check c =>
    unfold putStep at h
    split at h
    · cases h
    · dsimp only at h
      split at h
      · cases h
      · next k hk =>
        refine ⟨c, k, rfl, hk, fun hst => ?_⟩
        simp [hst] at h
  | _ => cases hg

/-- A goroutine gets past the first check of `get` while the pool is not closed, and past the one of
`put` while the connection is not. -/
def Enters (s : ClientShared) (p : Nat) (th : Thread T) : Prop :=
  (∃ q, s.connPools[p]? = some q ∧ q.closed = false) ∨
    ∃ c k, th.returns = some (p, c) ∧ s.conns[c]? = some k ∧ k.status ≠ .closed

lemma pastCheck_of_isLocal {t : InvokeThread T} (h : t.pc.isLocal = true) :
    (Thread.invoke t).pastCheck p = false := by
  cases hpc : t.pc with
  | get p' g | put p' g result | unwindPut p' g result =>
    rw [hpc] at h
    have hg : g.pastCheck = false := by simpa [InvokePc.isLocal] using h
    simp [Thread.pastCheck, hpc, hg]
  | _ => simp [Thread.pastCheck, hpc]

lemma invokeStep_enters {t t' : InvokeThread T} (h : invokeStep cfg s id t inp = some (op, t'))
    (hpc : (Thread.invoke t).pastCheck p = false) (hpc' : (Thread.invoke t').pastCheck p = true) :
    Enters s p (.invoke t) := by
  cases invokeStep_move h with
  | other hl =>
    rw [pastCheck_of_isLocal hl.pc] at hpc'
    cases hpc'
  | @get p' g _ out hg hget =>
    cases out with
    | next g' =>
      simp only [Thread.pastCheck, InvokeThread.afterGet, InvokeThread.goto, Bool.and_eq_true,
        beq_iff_eq] at hpc'
      obtain ⟨rfl, _⟩ := hpc'
      exact .inl (getStep_enters hget (by simpa [Thread.pastCheck, hg] using hpc))
    | got c | failed err => cases hpc'
  | write _ _ _ _ | closeConn _ _ => cases hpc'
  | recv _ _ _ _ _ hlocal _ =>
    rw [pastCheck_of_isLocal hlocal] at hpc'
    cases hpc'
  | @put p' g result _ out hg hput | @unwindPut p' g result _ out hg hput =>
    cases out with
    | some g' =>
      simp only [Thread.pastCheck, InvokeThread.afterPutStep, InvokeThread.afterUnwindPut,
        InvokeThread.goto, Bool.and_eq_true, beq_iff_eq] at hpc'
      obtain ⟨rfl, _⟩ := hpc'
      obtain ⟨c, k, rfl, hk, hst⟩ :=
        putStep_enters hput (by simpa [Thread.pastCheck, hg] using hpc)
      exact .inr ⟨c, k, by simp [Thread.returns, hg], hk, hst⟩
    | none => cases result <;> cases hpc'

lemma heartbeatStep_enters {pc pc' : HeartbeatPc}
    (h : heartbeatStep cfg s id pc inp = some (op, pc'))
    (hpc : (Thread.heartbeat (T := T) pc).pastCheck p = false)
    (hpc' : (Thread.heartbeat (T := T) pc').pastCheck p = true) :
    Enters s p (.heartbeat (T := T) pc) := by
  cases heartbeatStep_move h with
  | other _ _ _ hlocal _ _ _ =>
    cases pc' with
    | get p' g | put p' g =>
      have hg : g.pastCheck = false := by simpa [HeartbeatPc.isLocal] using hlocal
      simp [Thread.pastCheck, hg] at hpc'
    | _ => cases hpc'
  | @get p' g _ out hg hget =>
    subst hg
    cases out with
    | next g' =>
      simp only [Thread.pastCheck, HeartbeatPc.afterGet, Bool.and_eq_true, beq_iff_eq] at hpc'
      obtain ⟨rfl, _⟩ := hpc'
      exact .inl (getStep_enters hget (by simpa [Thread.pastCheck] using hpc))
    | got c | failed err => cases hpc'
  | @health _ _ _ _ _ healthy _ _ _ _ => cases healthy <;> cases hpc'
  | write _ _ | closeConn _ =>
    simp [Thread.pastCheck, PutPc.pastCheck] at hpc'
  | @put p' g _ out hg hput =>
    subst hg
    cases out with
    | some g' =>
      simp only [Thread.pastCheck, HeartbeatPc.afterPut, Bool.and_eq_true, beq_iff_eq] at hpc'
      obtain ⟨rfl, _⟩ := hpc'
      obtain ⟨c, k, rfl, hk, hst⟩ := putStep_enters hput (by simpa [Thread.pastCheck] using hpc)
      exact .inr ⟨c, k, rfl, hk, hst⟩
    | none => cases hpc'

lemma threadStep_enters {th th' : Thread T} (h : threadStep cfg s id th inp = some (op, th'))
    (hpc : th.pastCheck p = false) (hpc' : th'.pastCheck p = true) : Enters s p th := by
  cases threadStep_move h with
  | invoke hr => exact invokeStep_enters hr hpc hpc'
  | heartbeat hr => exact heartbeatStep_enters hr hpc hpc'
  | prewarm _ => cases hpc'
  | closer _ => cases hpc'

lemma putStep_panic {p' : Nat} {g : PutPc} {out : Option PutPc}
    (h : putStep s p' g = some (.panic, out)) :
    g.pastCheck = true ∧ ∃ q, s.connPools[p']? = some q ∧ q.hotClosed = true := by
  unfold putStep at h
  split at h
  · cases h
  · next q hq =>
    cases g with
    | check c =>
      dsimp only at h
      split at h <;> cases h
    | markIdle c => cases h
    | sendHot c =>
      dsimp only at h
      split at h
      · next hhot => exact ⟨rfl, q, hq, hhot⟩
      · split at h <;> cases h
    | pushCold c =>
      dsimp only at h
      split at h
      · cases h
      · split at h <;> cases h

/-- Only `put` panics, past its check and on a closed channel. -/
lemma threadStep_panic {th th' : Thread T} (h : threadStep cfg s id th inp = some (.panic, th')) :
    ∃ p q, th.pastCheck p = true ∧ s.connPools[p]? = some q ∧ q.hotClosed = true := by
  cases threadStep_source h with
  | put _ hin hg =>
    obtain ⟨hpast, q, hq, hhot⟩ := putStep_panic hg
    exact ⟨_, q, pastCheck_of_inPut hin hpast, hq, hhot⟩
  | own hop _ _ | get hop _ _ | health hop _ _ | prewarm hop _ | closer hop _ => cases hop

lemma closer_of_closeHot {th th' : Thread T}
    (h : threadStep cfg s id th inp = some (.closeHot p, th')) :
    ∃ kind target todo, th = .closer kind (.pool target p .closeHot todo) := by
  obtain ⟨kind, pc, pc', rfl, rfl, hr⟩ := closer_of_isCloser h rfl
  cases closerStep_move hr with
  | other hl => cases hl
  | @inside target p' g todo _ g' hpc hc =>
    cases closeStep_move hc with
    | closeHot hg =>
      rw [hpc, hg]
      exact ⟨kind, target, todo, rfl⟩
  | leave _ hc _ => cases closeStep_move hc

lemma panicked_apply (h : (s.apply op).panicked = true) : s.panicked = true ∨ op = .panic := by
  cases op with
  | panic => exact .inr rfl
  | _ => exact .inl h

end Steps

/-! ### Whole runs -/

structure Calm (s : ClientState T) : Prop where
  sound : Sound s
  running : s.shared.panicked = false
  closed : ∀ (c : Nat) (k : ClientConn), s.shared.conns[c]? = some k → k.sockClosed = true →
    k.status = .closed
  hot : ∀ (p : Nat) (q : ConnPool), s.shared.connPools[p]? = some q → q.hotClosed = true →
    q.closed = true
  outside : ∀ p, ¬ Alive s.shared p → ∀ th ∈ s.threads, th.pastCheck p = false

section Runs

variable {cfg : ClientConfig V T} {s : ClientState T} {i : Nat} {inp : Input} {th th' : Thread T}
  {op : ClientOp}

lemma running_run (hs : Calm s) (hi : s.threads[i]? = some th)
    (h : threadStep cfg s.shared i th inp = some (op, th')) :
    (s.shared.apply op).panicked = false := by
  by_contra hne
  rcases panicked_apply (Bool.eq_true_of_not_eq_false hne) with hold | rfl
  · rw [hs.running] at hold
    cases hold
  · obtain ⟨p, q, hpast, hq, hhot⟩ := threadStep_panic h
    rw [hs.outside p (not_alive_of_closed hq (hs.hot p q hq hhot)) th
      (List.mem_of_getElem? hi)] at hpast
    cases hpast

/-- A connection is marked only in a pool that is not closed, and there it is open. -/
lemma closed_run (hs : Calm s) (hi : s.threads[i]? = some th)
    (h : threadStep cfg s.shared i th inp = some (op, th')) {c : Nat} {k : ClientConn}
    (hk : (s.shared.apply op).conns[c]? = some k) : k.sockClosed = true → k.status = .closed := by
  refine conn_cases (P := fun k => k.sockClosed = true → k.status = .closed) (hs.closed c) ?_ ?_ hk
  · intro p hsock
    cases hsock
  · intro k₀ k' hk₀ hold hm
    cases hm with
    | same he | send _ he | read _ he =>
      subst he
      exact hold
    | close _ he =>
      subst he
      exact fun _ => status_close k₀
    | mark hop he =>
      subst hop he
      obtain ⟨_, p, hpast, hc⟩ := threadStep_mark h
      have halive : Alive s.shared p := by
        by_contra hclosed
        rw [hs.outside p hclosed th (List.mem_of_getElem? hi)] at hpast
        cases hpast
      intro hsock
      rcases open_of_hands hs.sound halive hi hc hk₀ with ho | ⟨_, rfl⟩
      · rw [ho.1] at hsock
        cases hsock
      · simp [Thread.pastCheck, PutPc.pastCheck] at hpast

lemma hot_run (hs : Calm s) (hi : s.threads[i]? = some th)
    (h : threadStep cfg s.shared i th inp = some (op, th')) {p : Nat} {q : ConnPool}
    (hq : (s.shared.apply op).connPools[p]? = some q) : q.hotClosed = true → q.closed = true := by
  refine pool_cases (P := fun q => q.hotClosed = true → q.closed = true) (hs.hot p) ?_ ?_ hq
  · intro target size _ _ hhot
    cases hhot
  · intro q₀ q' hq₀ hold hm
    cases hm with
    | same he | queues he | counter he | create _ he | count _ he | add _ he =>
      subst he
      exact hold
    | closePool _ he =>
      subst he
      exact fun _ => rfl
    | closeHot hop he =>
      subst hop he
      intro _
      obtain ⟨kind, target, todo, rfl⟩ := closer_of_closeHot h
      rcases hs.sound.closers kind target p _ todo (List.mem_of_getElem? hi) with hg | ⟨q₁, hq₁, hc⟩
      · cases hg
      · cases hq₀.symm.trans hq₁
        exact hc

/-- Where no goroutine is at some point of pool `p` when the pool is closed, and none gets there
afterwards, none is there as long as the pool is closed. -/
lemma off_closed_run (inside : Thread T → Bool) {p : Nat} (hi : s.threads[i]? = some th)
    (h : threadStep cfg s.shared i th inp = some (op, th'))
    (hcloser : ∀ kind pc, inside (.closer kind pc) = false)
    (hspawned : ∀ x ∈ spawned s.shared op, inside x = false)
    (hstart : ∀ q, th.startsClose = some p → s.shared.connPools[p]? = some q → q.closed = false →
      ∀ x ∈ s.threads, inside x = false)
    (hold : ¬ Alive s.shared p → ∀ x ∈ s.threads, inside x = false)
    (hstay : ¬ Alive s.shared p → inside th = false → inside th' = false)
    (hclosed : ¬ Alive (s.shared.apply op) p) {x : Thread T}
    (hx : x ∈ s.threads.set i th' ++ spawned s.shared op) : inside x = false := by
  have hboth : (∀ y ∈ s.threads, inside y = false) ∧ inside th' = false := by
    by_cases halive : Alive s.shared p
    · -- the pool is closed in this very step
      have hop : op = .closePool p := by
        by_contra hne
        exact hclosed (closed_apply hne halive)
      subst hop
      obtain ⟨kind, target, todo, q, rfl, hq, hopen, rfl⟩ := closer_of_closePool h
      exact ⟨hstart q rfl hq hopen, hcloser _ _⟩
    · exact ⟨hold halive, hstay halive (hold halive th (List.mem_of_getElem? hi))⟩
  rcases List.mem_append.mp hx with hset | hsp
  · rcases List.mem_or_eq_of_mem_set hset with hmem | rfl
    · exact hboth.1 x hmem
    · exact hboth.2
  · exact hspawned x hsp

lemma outside_run (hs : Calm s) (hi : s.threads[i]? = some th)
    (h : threadStep cfg s.shared i th inp = some (op, th')) (hok : CalmClose s (.run i inp))
    {p : Nat} (hclosed : ¬ Alive (s.shared.apply op) p) {x : Thread T}
    (hx : x ∈ s.threads.set i th' ++ spawned s.shared op) : x.pastCheck p = false := by
  obtain ⟨hstart, hreturn⟩ := hok th hi
  refine off_closed_run (Thread.pastCheck p) hi h (fun _ _ => rfl) ?_
    (fun q hth => hstart p hth q) (hs.outside p) ?_ hclosed hx
  · intro y hy
    cases op <;> simp [spawned] at hy
    rw [hy]
    rfl
  · intro hdead hbefore
    by_contra hpast
    rcases threadStep_enters h hbefore (Bool.eq_true_of_not_eq_false hpast) with
      ⟨q, hq, hopen⟩ | ⟨c, k, hret, hk, hst⟩
    · refine hdead (fun q' hq' => ?_)
      cases hq.symm.trans hq'
      exact hopen
    · simp only [Alive, not_forall, Bool.not_eq_false] at hdead
      obtain ⟨q, hq, hc⟩ := hdead
      exact hst (hreturn (p, c) hret q hq hc k hk)

lemma calm_step {t : ClientState T} {a : ClientAction T} (hs : Calm s) (hok : CalmClose s a)
    (h : clientStep cfg s a = some t) : Calm t := by
  have hsound := sound_step hs.sound h
  cases clientStep_move h with
  | run hi hstep =>
    exact ⟨hsound, running_run hs hi hstep, fun _ _ hk => closed_run hs hi hstep hk,
      fun _ _ hq => hot_run hs hi hstep hq,
      fun _ hclosed _ hx => outside_run hs hi hstep hok hclosed hx⟩
  | answer hk hans =>
    refine ⟨hsound, hs.running, ?_, hs.hot, hs.outside⟩
    intro c l hl
    obtain ⟨l', hl', _, hst, hsock⟩ := conns_answer hk hans hl
    rw [hst, hsock]
    exact hs.closed c l' hl'
  | start a =>
    refine ⟨hsound, hs.running, hs.closed, hs.hot, ?_⟩
    intro p hclosed th hth
    rcases List.mem_append.mp hth with hold | hnew
    · exact hs.outside p hclosed th hold
    · cases a <;> simp [newThread] at hnew <;> rw [hnew] <;> rfl

lemma calm_init : Calm (.init : ClientState T) := by
  refine ⟨sound_init, rfl, ?_, ?_, ?_⟩
  · intro c k hk
    cases hk
  · intro p q hq
    cases hq
  · intro p _ th hth
    cases hth

end Runs

/-- In a run that closes a pool only while no goroutine is inside its `get` or `put` past the first
check, and in which `put` on a closed pool finds its connection closed, `put` never sends on the
closed channel, and a connection that has been closed is neither idle nor in use. -/
theorem close_safe (cfg : ClientConfig V T) (acts : List (ClientAction T)) (s : ClientState T)
    (h : exec (clientStep cfg) .init acts = some s)
    (hok : Guarded (clientStep cfg) CalmClose .init acts) :
    s.shared.panicked = false ∧ ∀ k ∈ s.shared.conns, k.sockClosed = true → k.status = .closed := by
  have hs := exec_invariant_guarded Calm (fun _ _ _ hs ho hstep => calm_step hs ho hstep) calm_init
    hok h
  refine ⟨hs.running, fun k hk => ?_⟩
  obtain ⟨c, hc⟩ := List.getElem?_of_mem hk
  exact hs.closed c k hc

/-- The client is closed while an Invoke waits for its response; the Invoke then returns. -/
def closedWaiting : List (ClientAction Unit) :=
  dialOnly ++ [.run 0 .go, .close, .run 2 (.targets [str "s"])] ++ steps 2 8 ++
    [.run 0 (.read 0 (str "use of closed network connection"))] ++ steps 0 4

theorem close_safe_closedWaiting : ∃ s : ClientState Unit,
    exec (clientStep smallClient) .init closedWaiting = some s ∧
      (∃ k ∈ s.shared.conns, k.sockClosed = true) ∧ s.shared.panicked = false ∧
      ∀ k ∈ s.shared.conns, k.sockClosed = true → k.status = .closed :=
  ⟨_, rfl, by decide, close_safe smallClient closedWaiting _ rfl (by decide +kernel)⟩

/-- The client is closed after `put` has checked the connection. -/
def closedReturning : List (ClientAction Unit) :=
  dialOnly ++ [.run 0 .go, .run 0 (.read 0 (str "i/o timeout")), .run 0 .go, .close,
    .run 2 (.targets [str "s"])] ++ steps 2 4 ++ steps 0 1 ++ steps 2 1 ++ steps 0 1

theorem closedReturning_panics : ∃ s : ClientState Unit,
    exec (clientStep smallClient) .init closedReturning = some s ∧ s.shared.panicked = true ∧
      ∃ k ∈ s.shared.conns, k.sockClosed = true ∧ k.status = .idle :=
  ⟨_, rfl, rfl, by decide⟩

end Proofs
end Zrpc
