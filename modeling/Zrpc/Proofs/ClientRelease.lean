import Zrpc.Proofs.ClientClosing
import Zrpc.Proofs.ClientMutex

/-!
# What `Client.Close` releases

`Client.Close` closes the connections that are in the lists of the pools of its map. A connection
escapes if it is dialled for a pool whose list has been taken already, or for a pool that is made
after `Close`: `createNewConn`, `prewarmConnections` and the code that makes pools do not look at
`closing`.
-/

namespace Zrpc

variable {V T : Type}

/-- The goroutine has dialled connection `c` and enters it into the list of pool `p` next. -/
def Thread.Enlists (p c : Nat) (th : Thread T) : Prop :=
  (∃ left, th = .prewarm p (.add left c)) ∨ th.inGet = some (p, .count c)

/-- The goroutine is inside `get` of pool `p` past the first check, or in `prewarmConnections` between
its check and the entry in the pool's list. -/
def Thread.dialing (p : Nat) : Thread T → Bool
  | .invoke t => match t.pc with
    | .get p' g => p' == p && g.pastCheck
    | _ => false
  | .heartbeat pc => match pc with
    | .get p' g => p' == p && g.pastCheck
    | _ => false
  | .prewarm p' pc => match pc with
    | .dial _ | .add _ _ => p' == p
    | _ => false
  | .closer _ _ => false

def Thread.finished : Thread T → Bool
  | .invoke t => match t.pc with
    | .done _ => true
    | _ => false
  | .heartbeat .done | .prewarm _ .done | .closer _ .done => true
  | _ => false

namespace Proofs

open Zrpc.Lib

/-- A pool is closed only while no goroutine is dialling for it, and no pool is made once the client
is closing. -/
def CleanClose (s : ClientState T) : ClientAction T → Prop
  | .run i _ => ∀ th ∈ s.threads[i]?,
      (∀ p ∈ th.startsClose, ∀ q ∈ s.shared.connPools[p]?, q.closed = false →
        ∀ other ∈ s.threads, other.dialing p = false) ∧
      ∀ target ∈ th.inserts, s.shared.closing = true →
        (s.shared.pools.lookup target).isSome = true
  | _ => True

instance (s : ClientState T) : ∀ a, Decidable (CleanClose s a)
  | .run i _ => inferInstanceAs (Decidable (∀ th ∈ s.threads[i]?, _ ∧ _))
  | .invoke _ _ | .heartbeat | .close | .updateServers _ | .answer _ _ _ _ => isTrue trivial

/-- A connection is closed, or in the list of a pool that is not closed, or in what a `Close` of its
pool has still to close, or about to be entered into the list. -/
def Retained (s : ClientState T) (c : Nat) (k : ClientConn) : Prop :=
  k.sockClosed = true ∨
    (∃ q, s.shared.connPools[k.pool]? = some q ∧ q.closed = false ∧ c ∈ q.conns) ∨
    (∃ kind target p l todo,
      Thread.closer kind (.pool target p (.closing l) todo) ∈ s.threads ∧ c ∈ l) ∨
    ∃ p, ∃ th ∈ s.threads, th.Enlists p c

structure Releases (s : ClientState T) : Prop where
  sound : Sound s
  locked : Locked s
  drained : s.shared.closing = true → (∀ p, ¬ OpenPool s.shared p) ∨
    ∃ pc, Thread.closer .close pc ∈ s.threads ∧ pc.holdsMu = true
  quiet : ∀ p, ¬ Alive s.shared p → ∀ th ∈ s.threads, th.dialing p = false
  retained : ∀ (c : Nat) (k : ClientConn), s.shared.conns[c]? = some k → Retained s c k

/-! ### Steps of a goroutine -/

section Steps

variable {cfg : ClientConfig V T} {s : ClientShared} {op : ClientOp} {p id : Nat} {inp : Input}

lemma pastCheck_of_dialing {t : InvokeThread T} (h : (Thread.invoke t).dialing p = true) :
    (Thread.invoke t).pastCheck p = true := by
  simp only [Thread.dialing] at h
  split at h
  · next hpc => simpa [Thread.pastCheck, hpc] using h
  · cases h

lemma invokeStep_dialing {t t' : InvokeThread T} (h : invokeStep cfg s id t inp = some (op, t'))
    (hd : (Thread.invoke t).dialing p = false) (hd' : (Thread.invoke t').dialing p = true) :
    OpenPool s p := by
  cases invokeStep_move h with
  | other hl =>
    have hpast := pastCheck_of_dialing hd'
    rw [pastCheck_of_isLocal hl.pc] at hpast
    cases hpast
  | @get p' g _ out hg hget =>
    cases out with
    | next g' =>
      simp only [Thread.dialing, InvokeThread.afterGet, InvokeThread.goto, Bool.and_eq_true,
        beq_iff_eq] at hd'
      obtain ⟨rfl, _⟩ := hd'
      exact getStep_enters hget (by simpa [Thread.dialing, hg] using hd)
    | got c | failed err => cases hd'
  | write _ _ _ _ | closeConn _ _ => cases hd'
  | recv _ _ _ _ _ hlocal _ =>
    have hpast := pastCheck_of_dialing hd'
    rw [pastCheck_of_isLocal hlocal] at hpast
    cases hpast
  | @put p' g result _ out _ _ => cases out <;> cases result <;> cases hd'
  | @unwindPut p' g result _ out _ _ => cases out <;> cases hd'

lemma heartbeatStep_dialing {pc pc' : HeartbeatPc}
    (h : heartbeatStep cfg s id pc inp = some (op, pc'))
    (hd : (Thread.heartbeat (T := T) pc).dialing p = false)
    (hd' : (Thread.heartbeat (T := T) pc').dialing p = true) : OpenPool s p := by
  cases heartbeatStep_move h with
  | other _ _ _ hlocal _ _ _ =>
    cases pc' with
    | get p' g =>
      have hg : g.pastCheck = false := by simpa [HeartbeatPc.isLocal] using hlocal
      simp [Thread.dialing, hg] at hd'
    | _ => cases hd'
  | @get p' g _ out hg hget =>
    subst hg
    cases out with
    | next g' =>
      simp only [Thread.dialing, HeartbeatPc.afterGet, Bool.and_eq_true, beq_iff_eq] at hd'
      obtain ⟨rfl, _⟩ := hd'
      exact getStep_enters hget (by simpa [Thread.dialing] using hd)
    | got c | failed err => cases hd'
  | @health _ _ _ _ _ healthy _ _ _ _ => cases healthy <;> cases hd'
  | write _ _ | closeConn _ => cases hd'
  | @put _ _ _ out _ _ => cases out <;> cases hd'

/-- A goroutine begins to dial for a pool only while the pool is not closed. -/
lemma threadStep_dialing {th th' : Thread T} (h : threadStep cfg s id th inp = some (op, th'))
    (hd : th.dialing p = false) (hd' : th'.dialing p = true) : OpenPool s p := by
  cases threadStep_move h with
  | invoke hr => exact invokeStep_dialing hr hd hd'
  | heartbeat hr => exact heartbeatStep_dialing hr hd hd'
  | @prewarm p' pc _ pc' hr =>
    cases prewarmStep_move hr with
    | look _ hhands hdial =>
      cases pc' with
      | dial left =>
        have hp : p' = p := by simpa [Thread.dialing] using hd'
        exact hp ▸ hdial left rfl
      | add left c => cases hhands
      | check left | done => cases hd'
    | dial _ hpc =>
      subst hpc
      simp only [Thread.dialing] at hd hd'
      rw [hd] at hd'
      cases hd'
    | add _ _ _ => cases hd'
  | closer _ => cases hd'

lemma dialing_of_inGet {th : Thread T} {g : GetPc} (h : th.inGet = some (p, g))
    (hg : g.pastCheck = true) : th.dialing p = true := by
  rcases inGet_cases h with ⟨t, rfl, hpc⟩ | rfl
  · simp [Thread.dialing, hpc, hg]
  · simp [Thread.dialing, hg]

/-- Whoever dials for a pool enters the connection into its list next. -/
lemma threadStep_create {th th' : Thread T}
    (h : threadStep cfg s id th inp = some (.create p, th')) : th'.Enlists p s.conns.length := by
  cases threadStep_getSpan h with
  | inside _ hg hin' =>
    cases getStep_move hg with
    | health _ _ _ hh => rcases isHealthy_op hh with hop | ⟨hop, -⟩ <;> cases hop
    | create _ _ _ => exact .inr hin'
  | outside _ _ hop => cases hop

lemma threadStep_dial {th th' : Thread T} (h : threadStep cfg s id th inp = some (.dial p, th')) :
    th'.Enlists p s.conns.length := by
  cases threadStep_source h with
  | prewarm _ hr =>
    cases prewarmStep_move hr with
    | @dial _ left _ _ => exact .inl ⟨left, rfl⟩
  | own hop _ _ | get hop _ _ | put hop _ _ | health hop _ _ | closer hop _ => cases hop

lemma hands_of_enlists {th : Thread T} {c : Nat} (h : th.Enlists p c) : (p, c) ∈ th.hands := by
  rcases h with ⟨left, rfl⟩ | hin
  · exact List.mem_singleton_self _
  · exact hands_of_inGet hin (List.mem_singleton_self _)

lemma dialing_of_enlists {th : Thread T} {c : Nat} (h : th.Enlists p c) : th.dialing p = true := by
  rcases h with ⟨left, rfl⟩ | hin
  · simp [Thread.dialing]
  · exact dialing_of_inGet hin rfl

lemma threadStep_enlists {th th' : Thread T} {c : Nat} (hth : th.Enlists p c)
    (h : threadStep cfg s id th inp = some (op, th')) :
    ∃ q q', s.connPools[p]? = some q ∧ (s.apply op).connPools[p]? = some q' ∧
      q'.closed = q.closed ∧ c ∈ q'.conns := by
  rcases hth with ⟨left, rfl⟩ | hin
  · cases threadStep_move h with
    | prewarm hr =>
      cases prewarmStep_move hr with
      | look hhands _ _ => cases hhands
      | dial _ hpc => cases hpc
      | @add q _ _ hq _ hpc =>
        cases hpc
        refine ⟨q, { q with
          conns := q.conns ++ [c], created := q.created + 1, coldQueue := q.coldQueue ++ [c] },
          hq, ?_, rfl, by simp⟩
        simp [ClientShared.apply, ClientShared.onPool, hq]
  · cases threadStep_getSpan h with
    | outside hnone _ _ =>
      rw [hin] at hnone
      cases hnone
    | inside hin₁ hg _ =>
      cases hin.symm.trans hin₁
      have hq : ∃ q, s.connPools[p]? = some q := by
        unfold getStep at hg
        split at hg
        · cases hg
        · next q hq => exact ⟨q, hq⟩
      obtain ⟨q, hq⟩ := hq
      have hop : op = .count p c := by
        simp only [getStep, hq, Option.some.injEq, Prod.mk.injEq] at hg
        exact hg.1.symm
      subst hop
      refine ⟨q, { q with conns := q.conns ++ [c], created := q.created + 1, locked := false },
        hq, ?_, rfl, by simp⟩
      simp [ClientShared.apply, ClientShared.onPool, hq]

end Steps

/-! ### Whole runs -/

section Runs

variable {cfg : ClientConfig V T} {s : ClientState T} {i : Nat} {inp : Input} {th th' : Thread T}
  {op : ClientOp}

/-- When `Client.Close` comes to the end of its list, no pool is open. -/
lemma not_openPool_of_finish (hs : Locked s)
    (hcl : Thread.closer .close (.pools []) ∈ s.threads) (p : Nat) : ¬ OpenPool s.shared p := by
  intro hopen
  obtain ⟨target, hl⟩ := hs.mapped p hopen
  cases (hs.closers .close _ hcl).remaining rfl rfl target p hl hopen

/-- `Client.Close` holds the mutex until no pool is open. -/
lemma closerStep_drains (hs : Locked s) {pc pc' : CloserPc}
    (hcl : Thread.closer .close pc ∈ s.threads) (hmu : pc.holdsMu = true)
    (h : closerStep s.shared .close pc inp = some (op, pc')) :
    pc'.holdsMu = true ∨ ∀ p, ¬ OpenPool (s.shared.apply op) p := by
  cases closerStep_move h with
  | other hl =>
    cases hl with
    | refused hpc _ _ | lock hpc _ _ =>
      subst hpc
      cases hmu
    | finish hpc =>
      subst hpc
      exact .inr (not_openPool_of_finish hs hcl)
    | next _ _ | skip _ _ | remove _ => exact .inl rfl
  | inside _ _ => exact .inl rfl
  | leave _ _ hpc' => rcases hpc' with ⟨rfl, _⟩ | rfl <;> exact .inl rfl

lemma closer_of_lock (h : threadStep cfg s.shared i th inp = some (.lock true, th')) :
    ∃ pc, th' = .closer .close pc ∧ pc.holdsMu = true := by
  obtain ⟨kind, pc, pc', rfl, rfl, hr⟩ := closer_of_isCloser h rfl
  have hm := closerStep_move hr
  cases kind with
  | close =>
    cases hm with
    | other hl =>
      cases hl
      exact ⟨_, rfl, rfl⟩
    | inside _ hc | leave _ hc _ => cases closeStep_move hc
  | update servers =>
    cases hm with
    | other hl => cases hl
    | inside _ hc | leave _ hc _ => cases closeStep_move hc

lemma lock_of_closing {sh : ClientShared} (hold : sh.closing = false)
    (h : (sh.apply op).closing = true) : op = .lock true := by
  cases op with
  | lock closing =>
    have hc : closing = true := by simpa [ClientShared.apply, hold] using h
    rw [hc]
  | _ =>
    rw [show sh.closing = true from h] at hold
    cases hold

lemma drained_run (hs : Releases s) (hi : s.threads[i]? = some th)
    (h : threadStep cfg s.shared i th inp = some (op, th')) (hok : CleanClose s (.run i inp))
    (hclosing : (s.shared.apply op).closing = true) : (∀ p, ¬ OpenPool (s.shared.apply op) p) ∨
      ∃ pc, Thread.closer .close pc ∈ s.threads.set i th' ++ spawned s.shared op ∧
        pc.holdsMu = true := by
  have hself : th' ∈ s.threads.set i th' ++ spawned s.shared op :=
    List.mem_of_getElem? (thread_run_self hi)
  by_cases hold : s.shared.closing = true
  · have hnew : ∀ target size, op ≠ .newPool target size := by
      rintro target size rfl
      obtain ⟨_, hnone, hins⟩ := threadStep_newPool h
      have hsome := (hok th hi).2 target hins hold
      rw [hnone] at hsome
      cases hsome
    rcases hs.drained hold with hshut | ⟨pc, hpc, hmu⟩
    · exact .inl (fun p hopen => hshut p (openPool_of_apply hnew hopen))
    · obtain ⟨j, hj⟩ := List.getElem?_of_mem hpc
      by_cases hij : i = j
      · subst hij
        cases hi.symm.trans hj
        cases threadStep_move h with
        | closer hr =>
          rcases closerStep_drains hs.locked hpc hmu hr with hmu' | hshut
          · exact .inr ⟨_, hself, hmu'⟩
          · exact .inl hshut
      · exact .inr ⟨pc, List.mem_of_getElem? (thread_run_ne hj hij), hmu⟩
  · -- the client begins to close in this very step
    obtain rfl := lock_of_closing (Bool.eq_false_of_not_eq_true hold) hclosing
    obtain ⟨pc, rfl, hmu⟩ := closer_of_lock h
    exact .inr ⟨pc, hself, hmu⟩

lemma alive_of_openPool {sh : ClientShared} {p : Nat} (h : OpenPool sh p) : Alive sh p := by
  obtain ⟨q, hq, hopen⟩ := h
  intro q' hq'
  cases hq.symm.trans hq'
  exact hopen

lemma quiet_run (hs : Releases s) (hi : s.threads[i]? = some th)
    (h : threadStep cfg s.shared i th inp = some (op, th')) (hok : CleanClose s (.run i inp))
    {p : Nat} (hclosed : ¬ Alive (s.shared.apply op) p) {x : Thread T}
    (hx : x ∈ s.threads.set i th' ++ spawned s.shared op) : x.dialing p = false := by
  refine off_closed_run (Thread.dialing p) hi h (fun _ _ => rfl) ?_
    (fun q hth => (hok th hi).1 p hth q) (hs.quiet p) ?_ hclosed hx
  · intro y hy
    cases op <;> simp [spawned] at hy
    rw [hy]
    rfl
  · intro hdead hbefore
    by_contra hdial
    exact hdead (alive_of_openPool
      (threadStep_dialing h hbefore (Bool.eq_true_of_not_eq_false hdial)))

lemma openPool_of_dialing (hs : Releases s) (hi : s.threads[i]? = some th) {p : Nat}
    (hd : th.dialing p = true) {q : ConnPool} (hq : s.shared.connPools[p]? = some q) :
    q.closed = false := by
  by_contra hclosed
  rw [hs.quiet p (not_alive_of_closed hq (Bool.eq_true_of_not_eq_false hclosed)) th
    (List.mem_of_getElem? hi)] at hd
  cases hd

/-- A new connection is about to be entered into the list of its pool. -/
lemma retained_new (hi : s.threads[i]? = some th)
    (h : threadStep cfg s.shared i th inp = some (op, th')) {c : Nat} {k : ClientConn}
    (hnone : s.shared.conns[c]? = none) (hk : (s.shared.apply op).conns[c]? = some k) :
    Retained ⟨s.shared.apply op, s.threads.set i th' ++ spawned s.shared op⟩ c k := by
  obtain ⟨p, rfl, rfl, hop⟩ := conns_apply_new hnone hk
  have hth : th'.Enlists p s.shared.conns.length := by
    rcases hop with rfl | rfl
    · exact threadStep_dial h
    · exact threadStep_create h
  exact .inr (.inr (.inr ⟨p, th', List.mem_of_getElem? (thread_run_self hi), hth⟩))

/-- The list of a pool keeps its connections until it is given to `Close`. -/
lemma retained_listed (hi : s.threads[i]? = some th)
    (h : threadStep cfg s.shared i th inp = some (op, th')) {c : Nat} {k : ClientConn} {q : ConnPool}
    (hq : s.shared.connPools[k.pool]? = some q) (hopen : q.closed = false) (hc : c ∈ q.conns) :
    Retained ⟨s.shared.apply op, s.threads.set i th' ++ spawned s.shared op⟩ c k := by
  obtain ⟨q', hq', hm⟩ := pool_move op hq
  cases hm with
  | same he | queues he | counter he | create _ he | closeHot _ he =>
    exact .inr (.inl ⟨q', hq', by rw [he]; exact hopen, by rw [he]; exact hc⟩)
  | count _ he | add _ he =>
    refine .inr (.inl ⟨q', hq', by rw [he]; exact hopen, ?_⟩)
    rw [he]
    exact List.mem_append_left _ hc
  | closePool hop _ =>
    subst hop
    obtain ⟨kind, target, todo, q₀, rfl, hq₀, _, rfl⟩ := closer_of_closePool h
    cases hq.symm.trans hq₀
    exact .inr (.inr (.inl ⟨kind, target, _, _, todo, List.mem_of_getElem? (thread_run_self hi),
      List.mem_append_left _ hc⟩))

/-- `Close` takes a connection off its list by closing it. -/
lemma retained_closing (hs : Releases s) (hi : s.threads[i]? = some th)
    (h : threadStep cfg s.shared i th inp = some (op, th')) {c : Nat} {k k' : ClientConn}
    (hk : s.shared.conns[c]? = some k) (hk' : (s.shared.apply op).conns[c]? = some k')
    {kind : CloserKind} {target : GoString} {p : Nat} {l : List Nat} {todo : List GoString}
    (hcl : Thread.closer kind (.pool target p (.closing l) todo) ∈ s.threads) (hc : c ∈ l) :
    Retained ⟨s.shared.apply op, s.threads.set i th' ++ spawned s.shared op⟩ c k' := by
  obtain ⟨j, hj⟩ := List.getElem?_of_mem hcl
  by_cases hij : i = j
  · subst hij
    cases hi.symm.trans hj
    cases threadStep_move h with
    | closer hr =>
      cases closerStep_move hr with
      | other hl =>
        cases hl with
        | refused hpc _ _ | lock hpc _ _ | finish hpc | next hpc _ | skip hpc _ | remove hpc =>
          cases hpc
      | inside hpc hstep =>
        cases hpc
        cases closeStep_move hstep with
        | listEnd hg =>
          cases hg
          cases hc
        | @listed d rest hg =>
          cases hg
          rcases List.mem_cons.mp hc with rfl | hmem
          · have hclose : (s.shared.apply (.close c)).conns[c]? = some k.close := by
              simp [ClientShared.apply, ClientShared.onConn, hk]
            cases hclose.symm.trans hk'
            exact .inl (sockClosed_close (hs.sound.socks c k hk))
          · exact .inr (.inr (.inl ⟨kind, target, p, rest, todo,
              List.mem_of_getElem? (thread_run_self hi), hmem⟩))
        | closePool _ _ _ hg | closeHot hg | drain _ _ hg | drainEnd _ _ hg | drained hg => cases hg
      | leave hpc hstep _ =>
        cases hpc
        cases closeStep_move hstep with
        | already _ _ hg | reset hg => cases hg
  · exact .inr (.inr (.inl ⟨kind, target, p, l, todo,
      List.mem_of_getElem? (thread_run_ne hj hij), hc⟩))

/-- A dialled connection is entered into the list of a pool that is not closed. -/
lemma retained_adding (hs : Releases s) (hi : s.threads[i]? = some th)
    (h : threadStep cfg s.shared i th inp = some (op, th')) {c : Nat} {k k' : ClientConn}
    (hk : s.shared.conns[c]? = some k) (hpool : k'.pool = k.pool) {p : Nat} {x : Thread T}
    (hx : x ∈ s.threads) (hadd : x.Enlists p c) :
    Retained ⟨s.shared.apply op, s.threads.set i th' ++ spawned s.shared op⟩ c k' := by
  obtain ⟨j, hj⟩ := List.getElem?_of_mem hx
  by_cases hij : i = j
  · subst hij
    cases hi.symm.trans hj
    obtain ⟨k₀, hk₀, hp⟩ := hs.sound.tagged (p, c) (.inl (placed_of_hands hx (hands_of_enlists hadd)))
    cases hk.symm.trans hk₀
    obtain ⟨q, q', hq, hq', hclosed, hmem⟩ := threadStep_enlists hadd h
    have hopen := openPool_of_dialing hs hi (dialing_of_enlists hadd) hq
    have hpool' : k'.pool = p := hpool.trans hp
    rw [← hpool'] at hq'
    exact .inr (.inl ⟨q', hq', hclosed.trans hopen, hmem⟩)
  · exact .inr (.inr (.inr ⟨p, x, List.mem_of_getElem? (thread_run_ne hj hij), hadd⟩))

lemma retained_run (hs : Releases s) (hi : s.threads[i]? = some th)
    (h : threadStep cfg s.shared i th inp = some (op, th')) {c : Nat} {k' : ClientConn}
    (hk' : (s.shared.apply op).conns[c]? = some k') :
    Retained ⟨s.shared.apply op, s.threads.set i th' ++ spawned s.shared op⟩ c k' := by
  cases hk : s.shared.conns[c]? with
  | none => exact retained_new hi h hk hk'
  | some k =>
    obtain ⟨k₁, hk₁, hm⟩ := conn_apply op hk
    cases hk₁.symm.trans hk'
    have hpool : k'.pool = k.pool := by
      cases hm with
      | same he | mark _ he | send _ he | read _ he => rw [he]
      | close _ he => rw [he, (close_fields k).1]
    rcases hs.retained c k hk with hsock | ⟨q, hq, hopen, hmem⟩ | ⟨_, _, _, _, _, hcl, hmem⟩ |
      ⟨p, x, hx, hadd⟩
    · exact .inl (sockClosed_move hm hsock)
    · rw [← hpool] at hq
      exact retained_listed hi h hq hopen hmem
    · exact retained_closing hs hi h hk hk' hcl hmem
    · exact retained_adding hs hi h hk hpool hx hadd

lemma releases_step {t : ClientState T} {a : ClientAction T} (hs : Releases s)
    (hok : CleanClose s a) (h : clientStep cfg s a = some t) : Releases t := by
  have hsound := sound_step hs.sound h
  have hlocked := locked_step hs.sound hs.locked h
  cases clientStep_move h with
  | run hi hstep =>
    exact ⟨hsound, hlocked, drained_run hs hi hstep hok,
      fun _ hclosed _ hx => quiet_run hs hi hstep hok hclosed hx,
      fun _ _ hk => retained_run hs hi hstep hk⟩
  | answer hk hans =>
    refine ⟨hsound, hlocked, hs.drained, hs.quiet, ?_⟩
    intro c l hl
    obtain ⟨l', hl', hpool, _, hsock⟩ := conns_answer hk hans hl
    unfold Retained
    rw [hsock, hpool]
    exact hs.retained c l' hl'
  | start a =>
    refine ⟨hsound, hlocked, ?_, ?_, ?_⟩
    · intro hclosing
      rcases hs.drained hclosing with hshut | ⟨pc, hpc, hmu⟩
      · exact .inl hshut
      · exact .inr ⟨pc, List.mem_append_left _ hpc, hmu⟩
    · intro p hclosed th hth
      rcases List.mem_append.mp hth with hold | hnew
      · exact hs.quiet p hclosed th hold
      · cases a <;> simp [newThread] at hnew <;> rw [hnew] <;> rfl
    · intro c k hk
      rcases hs.retained c k hk with hsock | hlist | ⟨kind, target, p, l, todo, hcl, hmem⟩ |
        ⟨p, x, hx, hadd⟩
      · exact .inl hsock
      · exact .inr (.inl hlist)
      · exact .inr (.inr (.inl ⟨kind, target, p, l, todo, List.mem_append_left _ hcl, hmem⟩))
      · exact .inr (.inr (.inr ⟨p, x, List.mem_append_left _ hx, hadd⟩))

lemma releases_init : Releases (.init : ClientState T) := by
  refine ⟨sound_init, locked_init, ?_, ?_, ?_⟩
  · intro hclosing
    cases hclosing
  · intro p _ th hth
    cases hth
  · intro c k hk
    cases hk

lemma finished_of_dialing {p : Nat} (h : th.dialing p = true) : th.finished = false := by
  cases th with
  | invoke t =>
    simp only [Thread.dialing] at h
    split at h
    · next hpc => simp [Thread.finished, hpc]
    · cases h
  | heartbeat pc =>
    cases pc with
    | get p' g => rfl
    | _ => cases h
  | prewarm p' pc =>
    cases pc with
    | dial left | add left c => rfl
    | _ => cases h
  | closer kind pc => cases h

end Runs

/-- In a run that closes a pool only while no goroutine is dialling for it, and that makes no pool
once the client is closing: when `Client.Close` has returned and every operation has finished, every
connection ever dialled is closed. -/
theorem close_releases (cfg : ClientConfig V T) (acts : List (ClientAction T)) (s : ClientState T)
    (h : exec (clientStep cfg) .init acts = some s)
    (hok : Guarded (clientStep cfg) CleanClose .init acts)
    (hclose : Thread.closer .close .done ∈ s.threads)
    (hfinished : ∀ th ∈ s.threads, th.finished = true) :
    ∀ k ∈ s.shared.conns, k.sockClosed = true := by
  have hs := exec_invariant_guarded Releases (fun _ _ _ hs ho hstep => releases_step hs ho hstep)
    releases_init hok h
  have hclosing := (hs.locked.closers .close .done hclose).closing rfl nofun
  have hshut : ∀ p, ¬ OpenPool s.shared p := by
    rcases hs.drained hclosing with hshut | ⟨pc, hpc, hmu⟩
    · exact hshut
    · have hdone := hfinished _ hpc
      cases pc with
      | done => cases hmu
      | _ => cases hdone
  intro k hk
  obtain ⟨c, hc⟩ := List.getElem?_of_mem hk
  rcases hs.retained c k hc with hsock | ⟨q, hq, hopen, _⟩ | ⟨_, _, _, _, _, hcl, _⟩ |
    ⟨p, x, hx, hadd⟩
  · exact hsock
  · exact absurd ⟨q, hq, hopen⟩ (hshut k.pool)
  · cases hfinished _ hcl
  · have hdone := hfinished x hx
    rw [finished_of_dialing (dialing_of_enlists hadd)] at hdone
    cases hdone

theorem close_releases_closedWaiting : ∃ s : ClientState Unit,
    exec (clientStep smallClient) .init closedWaiting = some s ∧ s.shared.conns.length = 1 ∧
      Thread.closer .close .done ∈ s.threads ∧ (∀ th ∈ s.threads, th.finished = true) ∧
      ∀ k ∈ s.shared.conns, k.sockClosed = true := by
  have hclose : ∃ s, exec (clientStep smallClient) .init closedWaiting = some s ∧
      s.shared.conns.length = 1 ∧ s.threads[2]? = some (.closer .close .done) ∧
      ∀ th ∈ s.threads, th.finished = true := ⟨_, rfl, rfl, rfl, by decide⟩
  obtain ⟨s, hs, hone, hdone, hfinished⟩ := hclose
  have hmem := List.mem_of_getElem? hdone
  exact ⟨s, hs, hone, hmem, hfinished,
    close_releases smallClient closedWaiting s hs (by decide +kernel) hmem hfinished⟩

/-- `prewarmConnections` stands before its dial while the client is closed. -/
def closedPrewarming : List (ClientAction Unit) :=
  [.invoke true ()] ++ findPool 0 ++ steps 0 1 ++ steps 1 1 ++
    [.close, .run 2 (.targets [str "s"])] ++ steps 2 7 ++ steps 1 3 ++ steps 0 3

theorem closedPrewarming_leaks : ∃ s : ClientState Unit,
    exec (clientStep smallClient) .init closedPrewarming = some s ∧
      s.threads[2]? = some (.closer .close .done) ∧ (∀ th ∈ s.threads, th.finished = true) ∧
      ∃ k ∈ s.shared.conns, k.sockClosed = false :=
  ⟨_, rfl, rfl, by decide, by decide⟩

end Proofs
end Zrpc
