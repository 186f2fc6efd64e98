import Zrpc.ClientRun

/-!
# What an operation does to a connection and to a pool

Every operation leaves a connection or a pool as it is, or changes it in one of a few ways. An
invariant of each connection, or of each pool, is checked against these ways.
-/

namespace Zrpc.Proofs

variable {s : ClientShared} {op : ClientOp}

/-! ### Operations on a connection -/

/-- What an operation makes of connection `c`. -/
inductive ConnMove (o : ClientOp) (c : Nat) (k k' : ClientConn) : Prop
  | same (hk : k' = k)
  | mark {status} (hop : o = .mark c status) (hk : k' = { k with status := status })
  | close (hop : o = .close c ∨ ∃ p, o = .closeCounted p c) (hk : k' = k.close)
  | send {r} (hop : o = .send c r) (hk : k' = { k with sent := k.sent ++ [r] })
  | read {n} (hop : o = .read c n) (hk : k' = { k with pos := k.pos + n })

lemma conn_apply (op : ClientOp) {c : Nat} {k : ClientConn} (hk : s.conns[c]? = some k) :
    ∃ k', (s.apply op).conns[c]? = some k' ∧ ConnMove op c k k' := by
  have hon : ∀ (c' : Nat) (f : ClientConn → ClientConn), (c' = c → ConnMove op c k (f k)) →
      ∃ k', (s.onConn c' f).conns[c]? = some k' ∧ ConnMove op c k k' := by
    intro c' f hf
    refine ⟨if c' = c then f k else k, ?_, ?_⟩
    · simp [ClientShared.onConn, List.getElem?_modify, hk]
    · split
      · next hc => exact hf hc
      · exact .same rfl
  have hadd : ∀ p, ∃ k', (s.addConn p).conns[c]? = some k' ∧ ConnMove op c k k' := by
    intro p
    have hlt := (List.getElem?_eq_some_iff.mp hk).1
    exact ⟨k, (List.getElem?_append_left hlt).trans hk, .same rfl⟩
  cases op with
  | dial p => exact hadd p
  | create p => exact hadd p
  | mark c' status => exact hon c' _ (fun hc => .mark (by rw [hc]) rfl)
  | close c' => exact hon c' _ (fun hc => .close (.inl (by rw [hc])) rfl)
  | closeCounted p c' => exact hon c' _ (fun hc => .close (.inr ⟨p, by rw [hc]⟩) rfl)
  | send c' r => exact hon c' _ (fun hc => .send (by rw [hc]) rfl)
  | read c' n => exact hon c' _ (fun hc => .read (by rw [hc]) rfl)
  | _ => exact ⟨k, hk, .same rfl⟩

lemma conns_apply_new {c : Nat} {k' : ClientConn} (hk : s.conns[c]? = none)
    (hk' : (s.apply op).conns[c]? = some k') :
    ∃ p, k' = .new p ∧ c = s.conns.length ∧ (op = .dial p ∨ op = .create p) := by
  have hle := List.getElem?_eq_none_iff.mp hk
  have hon : ∀ (c' : Nat) (f : ClientConn → ClientConn), (s.onConn c' f).conns[c]? ≠ some k' := by
    intro c' f h
    simp [ClientShared.onConn, List.getElem?_modify, hk] at h
  have hadd : ∀ p, (s.addConn p).conns[c]? = some k' → k' = .new p ∧ c = s.conns.length := by
    intro p h
    simp only [ClientShared.addConn] at h
    rw [List.getElem?_append_right hle, List.getElem?_singleton] at h
    split at h <;> cases h
    exact ⟨rfl, by omega⟩
  have hold : s.conns[c]? ≠ some k' := by
    rw [hk]
    exact nofun
  cases op with
  | dial p => exact ⟨p, (hadd p hk').1, (hadd p hk').2, .inl rfl⟩
  | create p => exact ⟨p, (hadd p hk').1, (hadd p hk').2, .inr rfl⟩
  | mark c' status | close c' | closeCounted p c' | send c' r | read c' n =>
    exact absurd hk' (hon c' _)
  | _ => exact absurd hk' hold

/-- An invariant of each connection needs to be checked on new connections and on the moves. -/
lemma conn_cases {P : ClientConn → Prop} {c : Nat} (hold : ∀ k, s.conns[c]? = some k → P k)
    (hnew : ∀ p, P (.new p)) (hmove : ∀ k k', s.conns[c]? = some k → P k → ConnMove op c k k' → P k')
    {k' : ClientConn} (hk' : (s.apply op).conns[c]? = some k') : P k' := by
  cases hk : s.conns[c]? with
  | none =>
    obtain ⟨p, rfl, -⟩ := conns_apply_new hk hk'
    exact hnew p
  | some k =>
    obtain ⟨k₁, hk₁, hm⟩ := conn_apply op hk
    have he : k₁ = k' := Option.some.inj (hk₁.symm.trans hk')
    exact he ▸ hmove k k₁ hk (hold k hk) hm

/-! ### Operations on a pool -/

/-- What an operation makes of pool `p`. -/
inductive ConnPoolMove (o : ClientOp) (p : Nat) (q q' : ConnPool) : Prop
  | same (hq : q' = q)
  | queues {hot cold} (hq : q' = { q with hotQueue := hot, coldQueue := cold })
  | counter {created} (hq : q' = { q with created := created })
  | create (hop : o = .create p) (hq : q' = { q with locked := true })
  | count {c} (hop : o = .count p c)
    (hq : q' = { q with conns := q.conns ++ [c], created := q.created + 1, locked := false })
  | add {c} (hop : o = .addPrewarmed p c)
    (hq : q' = { q with
      conns := q.conns ++ [c], created := q.created + 1, coldQueue := q.coldQueue ++ [c] })
  | closePool (hop : o = .closePool p)
    (hq : q' = { q with closed := true, conns := [], coldQueue := [] })
  | closeHot (hop : o = .closeHot p) (hq : q' = { q with hotClosed := true })

lemma pool_move (op : ClientOp) {p : Nat} {q : ConnPool} (hq : s.connPools[p]? = some q) :
    ∃ q', (s.apply op).connPools[p]? = some q' ∧ ConnPoolMove op p q q' := by
  have hon : ∀ (u : ClientShared) (p' : Nat) (f : ConnPool → ConnPool), u.connPools = s.connPools →
      (p' = p → ConnPoolMove op p q (f q)) →
      ∃ q', (u.onPool p' f).connPools[p]? = some q' ∧ ConnPoolMove op p q q' := by
    intro u p' f hu hf
    refine ⟨if p' = p then f q else q, ?_, ?_⟩
    · simp [ClientShared.onPool, List.getElem?_modify, hu, hq]
    · split
      · next hp => exact hf hp
      · exact .same rfl
  cases op with
  | recvHot p' | sendHot p' c | popCold p' | pushCold p' c =>
    exact hon s p' _ rfl (fun _ => .queues rfl)
  | decrement p' | resetCreated p' => exact hon s p' _ rfl (fun _ => .counter rfl)
  | closeCounted p' c => exact hon (s.onConn c ClientConn.close) p' _ rfl (fun _ => .counter rfl)
  | create p' => exact hon (s.addConn p') p' _ rfl (fun hp => .create (by rw [hp]) rfl)
  | count p' c => exact hon s p' _ rfl (fun hp => .count (by rw [hp]) rfl)
  | addPrewarmed p' c => exact hon s p' _ rfl (fun hp => .add (by rw [hp]) rfl)
  | closePool p' => exact hon s p' _ rfl (fun hp => .closePool (by rw [hp]) rfl)
  | closeHot p' => exact hon s p' _ rfl (fun hp => .closeHot (by rw [hp]) rfl)
  | newPool target size =>
    have hlt := (List.getElem?_eq_some_iff.mp hq).1
    exact ⟨q, (List.getElem?_append_left hlt).trans hq, .same rfl⟩
  | _ => exact ⟨q, hq, .same rfl⟩

lemma pool_new {p : Nat} {q : ConnPool} (hp : s.connPools[p]? = none)
    (hq : (s.apply op).connPools[p]? = some q) :
    ∃ target size, op = .newPool target size ∧ q = newConnPool size ∧ p = s.connPools.length := by
  have hon : ∀ (u : ClientShared) (p' : Nat) (f : ConnPool → ConnPool), u.connPools = s.connPools →
      (u.onPool p' f).connPools[p]? ≠ some q := by
    intro u p' f hu h
    simp [ClientShared.onPool, List.getElem?_modify, hu, hp] at h
  have hold : s.connPools[p]? ≠ some q := by
    rw [hp]
    exact nofun
  cases op with
  | newPool target size =>
    simp only [ClientShared.apply] at hq
    rw [List.getElem?_append_right (List.getElem?_eq_none_iff.mp hp), List.getElem?_singleton] at hq
    split at hq <;> cases hq
    have hle := List.getElem?_eq_none_iff.mp hp
    exact ⟨target, size, rfl, rfl, by omega⟩
  | recvHot p' | sendHot p' c | popCold p' | pushCold p' c | addPrewarmed p' c | decrement p'
  | count p' c | closePool p' | closeHot p' | resetCreated p' => exact absurd hq (hon s p' _ rfl)
  | create p' => exact absurd hq (hon (s.addConn p') p' _ rfl)
  | closeCounted p' c => exact absurd hq (hon (s.onConn c ClientConn.close) p' _ rfl)
  | _ => exact absurd hq hold

/-- An invariant of each pool needs to be checked on new pools and on the moves. -/
lemma pool_cases {P : ConnPool → Prop} {p : Nat} (hold : ∀ q, s.connPools[p]? = some q → P q)
    (hnew : ∀ target size, op = .newPool target size → p = s.connPools.length →
      P (newConnPool size))
    (hmove : ∀ q q', s.connPools[p]? = some q → P q → ConnPoolMove op p q q' → P q')
    {q' : ConnPool} (hq' : (s.apply op).connPools[p]? = some q') : P q' := by
  cases hq : s.connPools[p]? with
  | none =>
    obtain ⟨target, size, hop, rfl, hp⟩ := pool_new hq hq'
    exact hnew target size hop hp
  | some q =>
    obtain ⟨q₁, hq₁, hm⟩ := pool_move op hq
    have he : q₁ = q' := Option.some.inj (hq₁.symm.trans hq')
    exact he ▸ hmove q q₁ hq (hold q hq) hm

lemma close_fields (k : ClientConn) : k.close.pool = k.pool ∧ k.close.sent = k.sent ∧
    k.close.answers = k.answers ∧ k.close.pos = k.pos := by
  unfold ClientConn.close
  split <;> exact ⟨rfl, rfl, rfl, rfl⟩

end Zrpc.Proofs
