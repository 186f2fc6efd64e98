import Zrpc.Proofs.ClientTags

/-!
# Connections a pool can hand out

While a pool is not closed, every connection that is queued in it or that a goroutine has in its
hands for it is open. The exception is a heartbeat that has closed its connection and is about to
return it; `put` drops that one.
-/

namespace Zrpc.Proofs

open Zrpc.Lib

variable {V T : Type}

def OpenConn (k : ClientConn) : Prop := k.sockClosed = false ∧ k.status ≠ .closed

/-- Pool `p` is not closed. -/
def Alive (s : ClientShared) (p : Nat) : Prop := ∀ q, s.connPools[p]? = some q → q.closed = false

/-- A heartbeat has closed connection `c` and stands before the check of `put`. -/
def Doomed (s : ClientState T) (p c : Nat) (k : ClientConn) : Prop :=
  k.status = .closed ∧ Thread.heartbeat (.put p (.check c)) ∈ s.threads

structure Sound (s : ClientState T) : Prop where
  owned : Owned s
  tagged : Tagged s
  socks : ∀ (c : Nat) (k : ClientConn), s.shared.conns[c]? = some k → k.status = .closed →
    k.sockClosed = true
  closers : ∀ kind target p g todo, Thread.closer kind (.pool target p g todo) ∈ s.threads →
    g = .start ∨ ∃ q, s.shared.connPools[p]? = some q ∧ q.closed = true
  usable : ∀ p c k, Alive s.shared p → Placed s (p, c) → s.shared.conns[c]? = some k →
    OpenConn k ∨ Doomed s p c k

/-! ### Marks and closed pools -/

section Steps

variable {cfg : ClientConfig V T} {s : ClientShared} {op : ClientOp} {p c id : Nat} {inp : Input}
  {status : ConnStatus}

lemma getStep_mark {g : GetPc} {out : GetOut} (h : getStep s p g inp = some (.mark c status, out)) :
    status ≠ .closed ∧ g.pastCheck = true := by
  cases getStep_move h with
  | health _ _ _ hh => rcases isHealthy_op hh with hop | ⟨hop, -⟩ <;> cases hop
  | mark hg =>
    rw [hg]
    exact ⟨by simp, rfl⟩

lemma putStep_mark {g : PutPc} {out : Option PutPc}
    (h : putStep s p g = some (.mark c status, out)) : status ≠ .closed ∧ g.pastCheck = true := by
  cases putStep_move h with
  | drop hop => rcases hop with hop | hop <;> cases hop
  | give hop _ => rcases hop with hop | hop <;> cases hop
  | mark hg =>
    rw [hg]
    exact ⟨by simp, rfl⟩

/-- Only `get` and `put` past their checks mark a connection, as in use or as idle. -/
lemma threadStep_mark {th th' : Thread T}
    (h : threadStep cfg s id th inp = some (.mark c status, th')) :
    status ≠ .closed ∧ ∃ p, th.pastCheck p = true ∧ (p, c) ∈ th.hands := by
  cases threadStep_source h with
  | get _ hin hg =>
    obtain ⟨hst, hpast⟩ := getStep_mark hg
    exact ⟨hst, _, pastCheck_of_inGet hin hpast, hands_of_inGet hin (getStep_used hg rfl)⟩
  | put _ hin hg =>
    obtain ⟨hst, hpast⟩ := putStep_mark hg
    exact ⟨hst, _, pastCheck_of_inPut hin hpast, hands_of_inPut hin (putStep_used hg rfl)⟩
  | health _ _ hh => rcases isHealthy_op hh with hop | ⟨hop, -⟩ <;> cases hop
  | own hop _ _ | prewarm hop _ | closer hop _ => cases hop

lemma closer_of_closePool {th th' : Thread T}
    (h : threadStep cfg s id th inp = some (.closePool p, th')) :
    ∃ kind target todo q, th = .closer kind (.pool target p .start todo) ∧
      s.connPools[p]? = some q ∧ q.closed = false ∧
      th' = .closer kind (.pool target p (.closing (q.conns ++ q.coldQueue)) todo) := by
  obtain ⟨kind, pc, pc', rfl, rfl, hr⟩ := closer_of_isCloser h rfl
  cases closerStep_move hr with
  | other hl => cases hl
  | @inside target p' g todo _ g' hpc hc =>
    cases closeStep_move hc with
    | @closePool q hq _ hclosed hg =>
      rw [hpc, hg]
      exact ⟨kind, target, todo, q, rfl, hq, hclosed, rfl⟩
  | leave _ hc _ => cases closeStep_move hc

lemma closed_mono (op : ClientOp) {q : ConnPool} (hq : s.connPools[p]? = some q)
    (hclosed : q.closed = true) : ∃ q', (s.apply op).connPools[p]? = some q' ∧ q'.closed = true := by
  obtain ⟨q', hq', hm⟩ := pool_move op hq
  refine ⟨q', hq', ?_⟩
  cases hm with
  | same he | queues he | counter he | create _ he | count _ he | add _ he | closeHot _ he =>
    rw [he]
    exact hclosed
  | closePool _ he => rw [he]

lemma not_alive_of_closed {q : ConnPool} (hq : s.connPools[p]? = some q) (hclosed : q.closed = true) :
    ¬ Alive s p := by
  intro ha
  rw [ha q hq] at hclosed
  cases hclosed

lemma alive_of_apply {op : ClientOp} (h : Alive (s.apply op) p) : Alive s p := by
  intro q hq
  by_contra hclosed
  obtain ⟨q', hq', hclosed'⟩ := closed_mono op hq (Bool.eq_true_of_not_eq_false hclosed)
  rw [h q' hq'] at hclosed'
  cases hclosed'

/-- A step after which pool `p` is not closed does not close it. -/
lemma ne_closePool_of_alive {th th' : Thread T} (h : threadStep cfg s id th inp = some (op, th'))
    (ha : Alive (s.apply op) p) : op ≠ .closePool p := by
  rintro rfl
  obtain ⟨_, _, _, q, _, hq, _, _⟩ := closer_of_closePool h
  have hclosed := ha { q with closed := true, conns := [], coldQueue := [] }
    (by simp [ClientShared.apply, ClientShared.onPool, hq])
  cases hclosed

end Steps

/-! ### Steps of the invariant -/

section Sound

variable {cfg : ClientConfig V T} {s : ClientState T} {p : Nat}

lemma threadStep_counts (hs : Sound s) (ha : Alive s.shared p) {i : Nat} {inp : Input}
    {th th' : Thread T} {op : ClientOp} (hi : s.threads[i]? = some th)
    (h : threadStep cfg s.shared i th inp = some (op, th')) (hop : op ≠ .closePool p) :
    CountMove (Known s) p s.shared th op th' := by
  have hth := List.mem_of_getElem? hi
  have hK : ∀ x ∈ th.hands, Known s x := fun x hx => .inl (placed_of_hands hth hx)
  cases threadStep_move h with
  | invoke hr => exact invokeStep_counts hr hK ha
  | heartbeat hr => exact heartbeatStep_counts hr hK ha
  | prewarm hr => exact prewarmStep_counts hr
  | @closer kind pc _ _ hr =>
    refine closerStep_counts hr hK ?_ ?_ hop
    · intro target p' l todo hpc c hc
      exact .inr (.inr ⟨kind, target, l, todo, hpc ▸ hth, hc⟩)
    · intro target g todo hpc
      rcases hs.closers kind target p g todo (hpc ▸ hth) with hg | ⟨q, hq, hclosed⟩
      · exact hg
      · rw [ha q hq] at hclosed
        cases hclosed

lemma closes_of_spares {op : ClientOp} (h : op.spares p = true) (c : Nat) : op.closes c = false := by
  cases op with
  | mark c' status =>
    have hst : status ≠ .closed := by simpa [ClientOp.spares] using h
    simp [ClientOp.closes, hst]
  | close c' | closeCounted p' c' => cases h
  | _ => rfl

lemma openConn_apply {sh : ClientShared} {op : ClientOp} {c : Nat} {k k' : ClientConn}
    (hk : sh.conns[c]? = some k) (ho : OpenConn k) (hop : op.closes c = false)
    (hk' : (sh.apply op).conns[c]? = some k') : OpenConn k' := by
  obtain ⟨k₁, hk₁, hm⟩ := conn_apply op hk
  have he : k₁ = k' := Option.some.inj (hk₁.symm.trans hk')
  subst he
  cases hm with
  | same he | send _ he | read _ he =>
    subst he
    exact ho
  | mark hmark he =>
    subst hmark he
    exact ⟨ho.1, by simpa [ClientOp.closes] using hop⟩
  | close hclose _ => rcases hclose with rfl | ⟨p', rfl⟩ <;> simp [ClientOp.closes] at hop

lemma tally_run (f : Thread T → Nat) {i : Nat} {th : Thread T} (hi : s.threads[i]? = some th)
    (th' : Thread T) (op : ClientOp) (hsp : tally (fun _ => f) (spawned s.shared op) = 0) :
    tally (fun _ => f) (s.threads.set i th' ++ spawned s.shared op) + f th =
      tally (fun _ => f) s.threads + f th' := by
  have hset := tally_set (f := fun _ => f) hi th'
  rw [tally_append, hsp]
  omega

lemma placed_point_le (p c : Nat) (s : ClientState T) :
    placed (point (p, c)) s ≤ placed (single c) s := by
  have hw : ∀ l, weigh (point (p, c)) l ≤ weigh (single c) l := by
    intro l
    refine List.sum_le_sum (fun x _ => ?_)
    unfold point single
    split
    · next hx => simp [hx]
    · exact Nat.zero_le _
  exact Nat.add_le_add (tally_mono (fun p q => hw (ConnPool.queued p q)) _)
    (tally_mono (fun _ th => hw (Thread.hands th)) _)

/-- A connection that its goroutine lets go of in a step that leaves the queues alone has no place
any more. -/
lemma not_placed_of_drop (hs : Sound s) {i c : Nat} {th th' : Thread T} {op : ClientOp}
    (hi : s.threads[i]? = some th) (hop : op = .nop ∨ op = .close c)
    (hands : ∀ w, weigh w th'.hands + w (p, c) = weigh w th.hands) :
    ¬ Placed ⟨s.shared.apply op, s.threads.set i th' ++ spawned s.shared op⟩ (p, c) := by
  have hone := (hs.owned c).1
  have hle := placed_point_le p c s
  have hsp : tally (fun _ th => weigh (point (p, c)) (Thread.hands th))
      (spawned s.shared op : List (Thread T)) = 0 := inHands_spawned op s.shared
  have hset := tally_run (fun th => weigh (point (p, c)) (Thread.hands th)) hi th' op hsp
  have hw := hands (point (p, c))
  have hpt : point (p, c) (p, c) = 1 := by simp [point]
  have hq : inQueues (point (p, c)) (s.shared.apply op).connPools =
      inQueues (point (p, c)) s.shared.connPools := by
    rcases hop with rfl | rfl <;> rfl
  unfold Placed
  have he : placed (point (p, c)) ⟨s.shared.apply op,
      s.threads.set i th' ++ spawned s.shared op⟩ + 1 = placed (point (p, c)) s := by
    unfold placed inHands
    rw [hq]
    dsimp only
    omega
  omega

/-- `put` drops the connection that a heartbeat has closed. -/
lemma doomed_step {sh : ClientShared} {id c : Nat} {k : ClientConn} {inp : Input} {op : ClientOp}
    {th' : Thread T}
    (h : threadStep cfg sh id (.heartbeat (.put p (.check c))) inp = some (op, th'))
    (hk : sh.conns[c]? = some k) (hst : k.status = .closed) : op = .nop ∧ th' = .heartbeat .done := by
  cases hq : sh.connPools[p]? with
  | none => simp [threadStep, heartbeatStep, putStep, hq] at h
  | some q =>
    simp [threadStep, heartbeatStep, putStep, hq, hk, hst] at h
    exact ⟨h.1.symm, h.2.symm⟩

/-- What a goroutine has in its hands for a pool that is not closed is open, unless `put` is about
to drop it. -/
lemma open_of_hands (hs : Sound s) (ha : Alive s.shared p) {i c : Nat} {th : Thread T}
    {k : ClientConn} (hi : s.threads[i]? = some th) (hc : (p, c) ∈ th.hands)
    (hk : s.shared.conns[c]? = some k) :
    OpenConn k ∨ k.status = .closed ∧ th = .heartbeat (.put p (.check c)) := by
  rcases hs.usable p c k ha (placed_of_hands (List.mem_of_getElem? hi) hc) hk with ho | ⟨hst, hmem⟩
  · exact .inl ho
  · obtain ⟨j, hj⟩ := List.getElem?_of_mem hmem
    have hij := eq_of_hands hs.owned hi hj hc (List.mem_singleton_self _)
    subst hij
    exact .inr ⟨hst, Option.some.inj (hi.symm.trans hj)⟩

lemma status_close (k : ClientConn) : k.close.status = .closed := by
  unfold ClientConn.close
  split
  · assumption
  · rfl

lemma sockClosed_close {k : ClientConn} (h : k.status = .closed → k.sockClosed = true) :
    k.close.sockClosed = true := by
  unfold ClientConn.close
  split
  · next hst => exact h hst
  · rfl

lemma sockClosed_move {op : ClientOp} {c : Nat} {k k' : ClientConn} (hm : ConnMove op c k k')
    (h : k.sockClosed = true) : k'.sockClosed = true := by
  cases hm with
  | same he | mark _ he | send _ he | read _ he =>
    rw [he]
    exact h
  | close _ he =>
    rw [he]
    exact sockClosed_close (fun _ => h)

lemma socks_run (hs : Sound s) {i : Nat} {inp : Input} {th th' : Thread T} {op : ClientOp}
    (h : threadStep cfg s.shared i th inp = some (op, th')) {c : Nat} {k : ClientConn}
    (hk : (s.shared.apply op).conns[c]? = some k) : k.status = .closed → k.sockClosed = true := by
  refine conn_cases (P := fun k => k.status = .closed → k.sockClosed = true) (hs.socks c) ?_ ?_ hk
  · intro p hst
    cases hst
  · intro k k' _ hold hm
    cases hm with
    | same he | send _ he | read _ he =>
      subst he
      exact hold
    | mark hop he =>
      subst hop he
      exact fun hst => absurd hst (threadStep_mark h).1
    | close _ he =>
      subst he
      exact fun _ => sockClosed_close hold

lemma closers_run (hs : Sound s) {i : Nat} {inp : Input} {th th' : Thread T} {op : ClientOp}
    (hi : s.threads[i]? = some th) (h : threadStep cfg s.shared i th inp = some (op, th'))
    {kind : CloserKind} {target : GoString} {p : Nat} {g : ClosePc} {todo : List GoString}
    (hcl : Thread.closer kind (.pool target p g todo) ∈ s.threads.set i th' ++ spawned s.shared op) :
    g = .start ∨ ∃ q, (s.shared.apply op).connPools[p]? = some q ∧ q.closed = true := by
  have hstay : ∀ {g}, Thread.closer kind (.pool target p g todo) ∈ s.threads → g ≠ .start →
      ∃ q, (s.shared.apply op).connPools[p]? = some q ∧ q.closed = true := by
    intro g hmem hg
    obtain hstart | ⟨q, hq, hclosed⟩ := hs.closers kind target p g todo hmem
    · exact absurd hstart hg
    · exact closed_mono op hq hclosed
  have hmv := threadStep_move h
  rcases List.mem_append.mp hcl with hset | hsp
  · rcases List.mem_or_eq_of_mem_set hset with hold | hnew
    · by_cases hg : g = .start
      · exact .inl hg
      · exact .inr (hstay hold hg)
    · rw [← hnew] at hmv
      cases hmv with
      | closer hc =>
        cases closerStep_move hc with
        | other hl =>
          cases hl
          exact .inl rfl
        | @inside _ _ g' _ _ _ hpc hc' =>
          have hmem := List.mem_of_getElem? hi
          rw [hpc] at hmem
          refine .inr ?_
          cases closeStep_move hc' with
          | closePool hq _ _ =>
            exact ⟨_, by simp [ClientShared.apply, ClientShared.onPool, hq]; rfl, rfl⟩
          | listEnd hg | listed hg | closeHot hg | drain _ _ hg | drainEnd _ _ hg | drained hg =>
            exact hstay hmem (by simp [hg])
        | leave _ _ hpc' => rcases hpc' with ⟨h, -⟩ | h <;> cases h
  · cases op <;> simp [spawned] at hsp

section Usable

variable {i c : Nat} {inp : Input} {th th' : Thread T} {op : ClientOp} {k : ClientConn}

/-- A step that closes an open connection of pool `p` takes it out of its goroutine's hands, or leaves
it to a heartbeat whose `put` drops it. -/
lemma usable_of_open (hs : Sound s) (hi : s.threads[i]? = some th)
    (h : threadStep cfg s.shared i th inp = some (op, th')) (ha : Alive (s.shared.apply op) p)
    (hc : Placed ⟨s.shared.apply op, s.threads.set i th' ++ spawned s.shared op⟩ (p, c))
    {k₀ : ClientConn} (hk₀ : s.shared.conns[c]? = some k₀) (hpool : k₀.pool = p)
    (hopen : OpenConn k₀) (hk : (s.shared.apply op).conns[c]? = some k) :
    OpenConn k ∨ Doomed ⟨s.shared.apply op, s.threads.set i th' ++ spawned s.shared op⟩ p c k := by
  have hkeep : op.closes c = false → OpenConn k := fun hop => openConn_apply hk₀ hopen hop hk
  cases threadStep_counts hs (alive_of_apply ha) hi h (ne_closePool_of_alive h ha) with
  | neutral hop _ _ => exact .inl (hkeep (closes_of_spares hop c))
  | @foreign _ _ p' c' hop hp' hK _ _ =>
    obtain ⟨k₁, hk₁, hpool₁⟩ := hs.tagged _ hK
    have hne : c' ≠ c := by
      rintro rfl
      have he : k₀ = k₁ := Option.some.inj (hk₀.symm.trans hk₁)
      exact hp' (hpool₁.symm.trans (he ▸ hpool))
    exact .inl (hkeep (by rcases hop with rfl | rfl <;> simp [ClientOp.closes, hne]))
  | @release _ c' _ hands _ _ =>
    have hne : c' ≠ c := by
      rintro rfl
      exact not_placed_of_drop hs hi (.inr rfl) hands hc
    exact .inl (hkeep (by simp [ClientOp.closes, hne]))
  | @discard _ c' _ _ hands _ _ =>
    by_cases hne : c' = c
    · subst hne
      rcases hands with hands | rfl
      · exact absurd hc (not_placed_of_drop hs hi (.inr rfl) hands)
      · have hk' : (s.shared.apply (.close c')).conns[c']? = some k₀.close := by
          simp [ClientShared.apply, ClientShared.onConn, hk₀]
        have he : k₀.close = k := Option.some.inj (hk'.symm.trans hk)
        refine .inr ⟨he ▸ status_close k₀, List.mem_append_left _ ?_⟩
        exact List.mem_set (List.getElem?_eq_some_iff.mp hi).1 _
    · exact .inl (hkeep (by simp [ClientOp.closes, hne]))
  | dial hop _ _ => exact .inl (hkeep (by rcases hop with rfl | rfl <;> rfl))
  | add _ hop _ _ => exact .inl (hkeep (by rcases hop with rfl | rfl <;> rfl))
  | decrement _ _ _ => exact .inl (hkeep rfl)

/-- Only the heartbeat has a doomed connection in its hands, so nobody else marks it. -/
lemma doomed_run (hs : Sound s) (hi : s.threads[i]? = some th)
    (h : threadStep cfg s.shared i th inp = some (op, th'))
    (hc : Placed ⟨s.shared.apply op, s.threads.set i th' ++ spawned s.shared op⟩ (p, c))
    {k₀ : ClientConn} (hk₀ : s.shared.conns[c]? = some k₀) (hd : Doomed s p c k₀)
    (hk : (s.shared.apply op).conns[c]? = some k) :
    Doomed ⟨s.shared.apply op, s.threads.set i th' ++ spawned s.shared op⟩ p c k := by
  obtain ⟨hst, hmem⟩ := hd
  obtain ⟨j, hj⟩ := List.getElem?_of_mem hmem
  by_cases hij : i = j
  · subst hij
    cases hi.symm.trans hj
    obtain ⟨rfl, rfl⟩ := doomed_step h hk₀ hst
    refine absurd hc (not_placed_of_drop hs hi (.inl rfl) (fun w => ?_))
    simp [Thread.hands, HeartbeatPc.hands, PutPc.hands]
  · refine ⟨?_, List.mem_append_left _ (List.mem_of_getElem? ((List.getElem?_set_ne hij).trans hj))⟩
    obtain ⟨k₁, hk₁, hm⟩ := conn_apply op hk₀
    have he : k₁ = k := Option.some.inj (hk₁.symm.trans hk)
    subst he
    cases hm with
    | same he | send _ he | read _ he =>
      rw [he]
      exact hst
    | mark hop _ =>
      subst hop
      obtain ⟨p', hp'⟩ := threadStep_used h rfl
      exact absurd (eq_of_hands hs.owned hi hj hp' (List.mem_singleton_self _)) hij
    | close _ he =>
      rw [he]
      exact status_close k₀

lemma usable_run (hs : Sound s) (hi : s.threads[i]? = some th)
    (h : threadStep cfg s.shared i th inp = some (op, th')) (ha : Alive (s.shared.apply op) p)
    (hc : Placed ⟨s.shared.apply op, s.threads.set i th' ++ spawned s.shared op⟩ (p, c))
    (hk : (s.shared.apply op).conns[c]? = some k) :
    OpenConn k ∨ Doomed ⟨s.shared.apply op, s.threads.set i th' ++ spawned s.shared op⟩ p c k := by
  by_cases hd : 0 < dialled (point (p, c)) s.shared op
  · have hnew := conns_of_dials (dials_of_dialled hd)
    rw [hk] at hnew
    cases hnew
    exact .inl ⟨rfl, by simp [ClientConn.new]⟩
  have hp := placed_run (w := point (p, c)) hi h
  have hold : Placed s (p, c) := by
    unfold Placed at *
    omega
  obtain ⟨k₀, hk₀, hpool⟩ := hs.tagged _ (.inl hold)
  rcases hs.usable p c k₀ (alive_of_apply ha) hold hk₀ with hopen | hdoomed
  · exact usable_of_open hs hi h ha hc hk₀ hpool hopen hk
  · exact .inr (doomed_run hs hi h hc hk₀ hdoomed hk)

end Usable

lemma sound_step {t : ClientState T} {a : ClientAction T} (hs : Sound s)
    (h : clientStep cfg s a = some t) : Sound t := by
  have howned := owned_step hs.owned h
  have htagged := tagged_step hs.tagged h
  cases clientStep_move h with
  | @run i inp th op th' hi hstep =>
    exact ⟨howned, htagged, fun _ _ hk => socks_run hs hstep hk,
      fun _ _ _ _ _ hcl => closers_run hs hi hstep hcl,
      fun _ _ _ ha hc hk => usable_run hs hi hstep ha hc hk⟩
  | @answer c _ _ _ k k' hk hans =>
    refine ⟨howned, htagged, ?_, hs.closers, ?_⟩
    · intro c' l hl
      obtain ⟨l', hl', _, hst, hsock⟩ := conns_answer hk hans hl
      rw [hst, hsock]
      exact hs.socks c' l' hl'
    · intro p c' l ha hplaced hl
      obtain ⟨l', hl', _, hst, hsock⟩ := conns_answer hk hans hl
      unfold OpenConn Doomed
      rw [hst, hsock]
      exact hs.usable p c' l' ha hplaced hl'
  | start a =>
    refine ⟨howned, htagged, hs.socks, ?_, ?_⟩
    · intro kind target p g todo hcl
      rcases List.mem_append.mp hcl with hold | hmem
      · exact hs.closers kind target p g todo hold
      · cases a <;> simp [newThread] at hmem
    · intro p c k ha hplaced hk
      unfold Placed at hplaced
      rw [placed_start] at hplaced
      rcases hs.usable p c k ha hplaced hk with ho | ⟨hst, hmem⟩
      · exact .inl ho
      · exact .inr ⟨hst, List.mem_append_left _ hmem⟩

lemma sound_init : Sound (.init : ClientState T) := by
  refine ⟨owned_init, ?_, ?_, ?_, ?_⟩
  · rintro x (hp | ⟨q, hq, _⟩ | ⟨_, _, _, _, hcl, _⟩)
    · exact absurd hp (lt_irrefl 0)
    · cases hq
    · cases hcl
  · intro c k hk
    cases hk
  · intro _ _ _ _ _ hcl
    cases hcl
  · intro p c k _ _ hk
    cases hk

lemma sound_of_exec {acts : List (ClientAction T)} (h : exec (clientStep cfg) .init acts = some s) :
    Sound s :=
  exec_invariant Sound (fun _ _ _ hs hstep => sound_step hs hstep) sound_init h

end Sound

end Zrpc.Proofs
