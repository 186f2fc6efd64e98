import Zrpc.Proofs.ClientPoolLock

/-!
# Which connections belong to which pool

Every connection that a pool or a goroutine names for a pool was dialled for that pool.
-/

namespace Zrpc.Proofs

open Zrpc.Lib

variable {V T : Type}

def point (x : Nat × Nat) : Nat × Nat → Nat := fun y => if y = x then 1 else 0

/-- Connection `x.2` is queued in pool `x.1`, or in a goroutine's hands for it. -/
def Placed (s : ClientState T) (x : Nat × Nat) : Prop := 0 < placed (point x) s

/-- Connection `x.2` is in the list of pool `x.1`, or in what a `Close` of the pool has still to
close. -/
def Listed (s : ClientState T) (x : Nat × Nat) : Prop :=
  (∃ q, s.shared.connPools[x.1]? = some q ∧ x.2 ∈ q.conns) ∨
    ∃ kind target l todo, Thread.closer kind (.pool target x.1 (.closing l) todo) ∈ s.threads ∧
      x.2 ∈ l

def Known (s : ClientState T) (x : Nat × Nat) : Prop := Placed s x ∨ Listed s x

variable {cfg : ClientConfig V T} {s : ClientState T} {x : Nat × Nat}

lemma weigh_point_pos {l : List (Nat × Nat)} : 0 < weigh (point x) l ↔ x ∈ l := by
  induction l with
  | nil => simp
  | cons y l ih =>
    rw [weigh_cons, List.mem_cons, ← ih]
    by_cases hy : y = x
    · simp [point, hy]
    · simp [point, hy, Ne.symm hy]

lemma placed_of_hands {th : Thread T} (hth : th ∈ s.threads) (h : x ∈ th.hands) : Placed s x := by
  obtain ⟨i, hi⟩ := List.getElem?_of_mem hth
  have hle := le_tally (f := fun _ th => weigh (point x) (Thread.hands th)) hi
  have hpos := weigh_point_pos.mpr h
  unfold Placed placed inHands
  omega

lemma placed_of_queued {p c : Nat} {q : ConnPool} (hq : s.shared.connPools[p]? = some q)
    (h : c ∈ q.hotQueue ++ q.coldQueue) : Placed s (p, c) := by
  have hle := le_tally (f := fun i q => weigh (point (p, c)) (ConnPool.queued i q)) hq
  have hpos : 0 < weigh (point (p, c)) (q.queued p) :=
    weigh_point_pos.mpr (List.mem_map.mpr ⟨c, h, rfl⟩)
  unfold Placed placed inQueues
  omega

/-- The operation dials connection `x.2` for pool `x.1`. -/
def Dials (s : ClientShared) (op : ClientOp) (x : Nat × Nat) : Prop :=
  x.2 = s.conns.length ∧ (op = .dial x.1 ∨ op = .create x.1)

lemma dials_of_dialled {sh : ClientShared} {op : ClientOp} (h : 0 < dialled (point x) sh op) :
    Dials sh op x := by
  have hx : ∀ p, 0 < point x (p, sh.conns.length) → x = (p, sh.conns.length) := by
    intro p hp
    by_contra hne
    simp [point, Ne.symm hne] at hp
  cases op with
  | dial p =>
    rw [hx p h]
    exact ⟨rfl, .inl rfl⟩
  | create p =>
    rw [hx p h]
    exact ⟨rfl, .inr rfl⟩
  | _ => exact absurd h (lt_irrefl 0)

/-- What a pool's list of connections gains. -/
lemma conns_apply {sh : ClientShared} {op : ClientOp} {q : ConnPool}
    (hq : (sh.apply op).connPools[x.1]? = some q) (hx : x.2 ∈ q.conns) :
    (∃ q, sh.connPools[x.1]? = some q ∧ x.2 ∈ q.conns) ∨ op = .count x.1 x.2 ∨
      op = .addPrewarmed x.1 x.2 := by
  cases hold : sh.connPools[x.1]? with
  | none =>
    obtain ⟨_, _, _, rfl, _⟩ := pool_new hold hq
    cases hx
  | some q₀ =>
    obtain ⟨q₁, hq₁, hm⟩ := pool_move op hold
    cases hq₁.symm.trans hq
    cases hm with
    | same he | queues he | counter he | create _ he | closeHot _ he =>
      rw [he] at hx
      exact .inl ⟨q₀, rfl, hx⟩
    | count hop he =>
      subst he
      rcases List.mem_append.mp hx with hmem | hnew
      · exact .inl ⟨q₀, rfl, hmem⟩
      · exact .inr (.inl (by rw [hop, List.mem_singleton.mp hnew]))
    | add hop he =>
      subst he
      rcases List.mem_append.mp hx with hmem | hnew
      · exact .inl ⟨q₀, rfl, hmem⟩
      · exact .inr (.inr (by rw [hop, List.mem_singleton.mp hnew]))
    | closePool _ he =>
      subst he
      cases hx

/-- Where the list of a closing pool comes from. -/
lemma closing_of_closerStep {sh : ClientShared} {kind : CloserKind} {pc : CloserPc} {inp : Input}
    {op : ClientOp} {target : GoString} {p : Nat} {l : List Nat} {todo : List GoString}
    (h : closerStep sh kind pc inp = some (op, .pool target p (.closing l) todo)) :
    (∃ q, sh.connPools[p]? = some q ∧ l = q.conns ++ q.coldQueue) ∨
      ∃ c, pc = .pool target p (.closing (c :: l)) todo := by
  cases closerStep_move h with
  | other hl => cases hl
  | inside hpc hc =>
    cases closeStep_move hc with
    | @closePool q hq _ _ _ => exact .inl ⟨q, hq, rfl⟩
    | @listed c _ hg =>
      rw [hg] at hpc
      exact .inr ⟨c, hpc⟩
  | leave _ _ hpc' => rcases hpc' with ⟨h, -⟩ | h <;> cases h

lemma hands_of_addPrewarmed {sh : ClientShared} {id : Nat} {th th' : Thread T} {inp : Input}
    {p c : Nat} (h : threadStep cfg sh id th inp = some (.addPrewarmed p c, th')) :
    (p, c) ∈ th.hands := by
  have hm := threadStep_moves (w := point (p, c)) h
  have hone : given (point (p, c)) (.addPrewarmed p c) = 1 := by simp [given, point]
  simp only [Moves, hone, taken, dialled] at hm
  exact weigh_point_pos.mp (by omega)

/-- A connection is new to a pool only when it is dialled for it. -/
lemma known_run {i : Nat} {inp : Input} {th th' : Thread T} {op : ClientOp}
    (hi : s.threads[i]? = some th) (h : threadStep cfg s.shared i th inp = some (op, th'))
    (hx : Known ⟨s.shared.apply op, s.threads.set i th' ++ spawned s.shared op⟩ x) :
    Known s x ∨ Dials s.shared op x := by
  have hth := List.mem_of_getElem? hi
  rcases hx with hplaced | ⟨q, hq, hmem⟩ | ⟨kind, target, l, todo, hcl, hmem⟩
  · by_cases hd : 0 < dialled (point x) s.shared op
    · exact .inr (dials_of_dialled hd)
    · have hp := placed_run (w := point x) hi h
      unfold Placed at hplaced
      exact .inl (.inl (show 0 < placed (point x) s by omega))
  · rcases conns_apply hq hmem with hold | rfl | rfl
    · exact .inl (.inr (.inl hold))
    · exact .inl (.inl (placed_of_hands hth (hands_of_count h)))
    · exact .inl (.inl (placed_of_hands hth (hands_of_addPrewarmed h)))
  · have hmv := threadStep_move h
    rcases List.mem_append.mp hcl with hset | hsp
    · rcases List.mem_or_eq_of_mem_set hset with hold | hnew
      · exact .inl (.inr (.inr ⟨kind, target, l, todo, hold, hmem⟩))
      · rw [← hnew] at hmv
        cases hmv with
        | closer hc =>
          rcases closing_of_closerStep hc with ⟨q, hq, rfl⟩ | ⟨c, hpc⟩
          · rcases List.mem_append.mp hmem with hconns | hcold
            · exact .inl (.inr (.inl ⟨q, hq, hconns⟩))
            · exact .inl (.inl (placed_of_queued hq (List.mem_append_right _ hcold)))
          · refine .inl (.inr (.inr ⟨kind, target, c :: l, todo, ?_, List.mem_cons_of_mem _ hmem⟩))
            rw [← hpc]
            exact hth
    · cases op <;> simp [spawned] at hsp

/-- Every connection a pool or goroutine names for pool `p` was dialled for it. -/
def Tagged (s : ClientState T) : Prop :=
  ∀ x, Known s x → ∃ k, s.shared.conns[x.2]? = some k ∧ k.pool = x.1

lemma pool_apply {sh : ClientShared} (op : ClientOp) {c : Nat} {k : ClientConn}
    (hk : sh.conns[c]? = some k) : ∃ k', (sh.apply op).conns[c]? = some k' ∧ k'.pool = k.pool := by
  obtain ⟨k', hk', hm⟩ := conn_apply op hk
  refine ⟨k', hk', ?_⟩
  cases hm with
  | same he | mark _ he | send _ he | read _ he => rw [he]
  | close _ he => rw [he, (close_fields k).1]

lemma conns_of_dials {sh : ClientShared} {op : ClientOp} (h : Dials sh op x) :
    (sh.apply op).conns[x.2]? = some (.new x.1) := by
  obtain ⟨hlen, hop⟩ := h
  rcases hop with rfl | rfl <;>
    simp [ClientShared.apply, ClientShared.addConn, ClientShared.onPool, hlen]

lemma pool_answer {k k' : ClientConn} {request : Nat} {header : Header} {body : Bytes}
    (h : k.answer request header body = some k') :
    k'.pool = k.pool ∧ k'.status = k.status ∧ k'.sockClosed = k.sockClosed := by
  obtain ⟨_, _, _, _, rfl⟩ := answer_spec h
  exact ⟨rfl, rfl, rfl⟩

/-- After an answer on `c`, connection `c'` has the same pool and status. -/
lemma conns_answer {sh : ClientShared} {c c' : Nat} {k k' l : ClientConn} {request : Nat}
    {header : Header} {body : Bytes} (hk : sh.conns[c]? = some k)
    (h : k.answer request header body = some k') (hl : (sh.conns.set c k')[c']? = some l) :
    ∃ l', sh.conns[c']? = some l' ∧ l.pool = l'.pool ∧ l.status = l'.status ∧
      l.sockClosed = l'.sockClosed := by
  rcases getElem?_set_cases hl with ⟨rfl, rfl⟩ | ⟨-, hold⟩
  · exact ⟨k, hk, pool_answer h⟩
  · exact ⟨l, hold, rfl, rfl, rfl⟩

lemma known_start (a : ClientAction T)
    (h : Known { s with threads := s.threads ++ newThread a } x) : Known s x := by
  rcases h with hplaced | hlist | ⟨kind, target, l, todo, hcl, hmem⟩
  · unfold Placed at hplaced
    rw [placed_start] at hplaced
    exact .inl hplaced
  · exact .inr (.inl hlist)
  · rcases List.mem_append.mp hcl with hold | hnew
    · exact .inr (.inr ⟨kind, target, l, todo, hold, hmem⟩)
    · cases a <;> simp [newThread] at hnew

lemma tagged_step {t : ClientState T} {a : ClientAction T} (hs : Tagged s)
    (h : clientStep cfg s a = some t) : Tagged t := by
  intro x hx
  cases clientStep_move h with
  | @run i inp th op th' hi hstep =>
    rcases known_run hi hstep hx with hold | hnew
    · obtain ⟨k, hk, hpool⟩ := hs x hold
      obtain ⟨k', hk', hpool'⟩ := pool_apply op hk
      exact ⟨k', hk', hpool'.trans hpool⟩
    · exact ⟨_, conns_of_dials hnew, rfl⟩
  | @answer c _ _ _ k k' hk hans =>
    obtain ⟨l, hl, hpool⟩ := hs x hx
    by_cases hc : c = x.2
    · subst hc
      rw [hk] at hl
      cases hl
      have hlt := (List.getElem?_eq_some_iff.mp hk).1
      exact ⟨k', List.getElem?_set_self hlt, (pool_answer hans).1.trans hpool⟩
    · exact ⟨l, (List.getElem?_set_ne hc).trans hl, hpool⟩
  | start a => exact hs x (known_start a hx)

end Zrpc.Proofs
