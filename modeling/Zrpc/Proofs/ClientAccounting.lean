import Zrpc.Proofs.ClientUsable

/-!
# The counter of open connections

While a pool is not closed and none of its connections is closed without counting, `created` is the
number of its open connections whenever no operation on the pool is in progress. The connections of a
pool stay within its size as long as nobody dials when `size` connections are counted or about to be
counted: `createNewConn` does not see what `prewarmConnections` has dialled and not yet counted, and
`prewarmConnections` looks neither at `size` nor at what `createNewConn` has dialled under `p.mu`.
-/

namespace Zrpc.Proofs

open Zrpc.Lib

variable {V T : Type}

/-- The step neither closes pool `p` nor closes one of its connections without counting. -/
def CountedStep (p : Nat) (s : ClientState T) : ClientAction T → Prop
  | .run i _ => ∀ th ∈ s.threads[i]?, th.closesUncounted p = false ∧ th.closesPool p = false
  | _ => True

instance (p : Nat) (s : ClientState T) : ∀ a, Decidable (CountedStep p s a)
  | .run i _ => inferInstanceAs (Decidable (∀ th ∈ s.threads[i]?, _))
  | .invoke _ _ | .heartbeat | .close | .updateServers _ | .answer _ _ _ _ => isTrue trivial

def adding (p : Nat) (threads : List (Thread T)) : Nat := tally (fun _ => Thread.adding p) threads

def uncounted (p : Nat) (threads : List (Thread T)) : Nat :=
  tally (fun _ => Thread.uncounted p) threads

structure Accounts (p : Nat) (s : ClientState T) : Prop where
  sound : Sound s
  alive : Alive s.shared p
  balance : createdOf p s.shared + adding p s.threads = openConns p s.shared + uncounted p s.threads
  locked : PoolLocked s

section Accounts

variable {cfg : ClientConfig V T} {s : ClientState T} {p : Nat}

/-- A step adds the same to both sides of the balance, at most one; a goroutine that closes a
connection without counting only makes the right side smaller. -/
lemma balance_run (hs : Sound s) (ha : Alive s.shared p) {i : Nat} {inp : Input} {th th' : Thread T}
    {op : ClientOp} (hi : s.threads[i]? = some th)
    (h : threadStep cfg s.shared i th inp = some (op, th')) (hclose : op ≠ .closePool p) :
    ∃ d : Int, createdOf p (s.shared.apply op) +
          adding p (s.threads.set i th' ++ spawned s.shared op) =
        createdOf p s.shared + adding p s.threads + d ∧
      (0 < d → d = 1 ∧ (op = .create p ∨ op = .dial p)) ∧
      ((openConns p (s.shared.apply op) : Int) +
            uncounted p (s.threads.set i th' ++ spawned s.shared op) =
          openConns p s.shared + uncounted p s.threads + d ∨
        th.closesUncounted p = true ∧ (openConns p (s.shared.apply op) : Int) +
            uncounted p (s.threads.set i th' ++ spawned s.shared op) ≤
          openConns p s.shared + uncounted p s.threads + d) := by
  have hadd := tally_run (Thread.adding p) hi th' op (by cases op <;> rfl)
  have hunc := tally_run (Thread.uncounted p) hi th' op (by cases op <;> rfl)
  unfold adding uncounted
  cases threadStep_counts hs ha hi h hclose with
  | neutral hop hu ha =>
    rw [createdOf_of_spares hop, openConns_of_spares hop]
    exact ⟨0, by omega, by omega, .inl (by omega)⟩
  | @foreign _ _ p' c hop hp hK hu ha =>
    obtain ⟨k, hk, hpool⟩ := hs.tagged _ hK
    have hopen : openConns p (s.shared.onConn c ClientConn.close) = openConns p s.shared := by
      refine openConns_onConn_same (fun l hl => openShare_close ?_)
      have he : k = l := Option.some.inj (hk.symm.trans hl)
      rw [← he, hpool]
      exact hp
    rcases hop with rfl | rfl
    · have hcr : createdOf p (s.shared.apply (.close c)) = createdOf p s.shared := rfl
      have hop : openConns p (s.shared.apply (.close c)) = openConns p s.shared := hopen
      exact ⟨0, by omega, by omega, .inl (by omega)⟩
    · have hcr : createdOf p (s.shared.apply (.closeCounted p' c)) = createdOf p s.shared :=
        createdOf_onPool_same (fun he => absurd he hp)
      have hop : openConns p (s.shared.apply (.closeCounted p' c)) = openConns p s.shared := hopen
      exact ⟨0, by omega, by omega, .inl (by omega)⟩
  | dial hdial hu ha =>
    have hcr : createdOf p (s.shared.apply op) = createdOf p s.shared := by
      rcases hdial with rfl | rfl
      · rfl
      · exact createdOf_onPool_same (s := s.shared.addConn p) (fun _ _ => rfl)
    have hop : openConns p (s.shared.apply op) = openConns p s.shared + 1 := by
      rcases hdial with rfl | rfl <;> exact (openConns_addConn p).trans (by simp)
    exact ⟨1, by omega, fun _ => ⟨rfl, hdial.symm⟩, .inl (by omega)⟩
  | add hq hadded hu ha =>
    have hcr : createdOf p (s.shared.apply op) = createdOf p s.shared + 1 := by
      rcases hadded with rfl | rfl <;>
      · refine (createdOf_onPool hq _).trans ?_
        simp [createdOf, hq]
    have hop : openConns p (s.shared.apply op) = openConns p s.shared := by
      rcases hadded with rfl | rfl <;> rfl
    exact ⟨0, by omega, by omega, .inl (by omega)⟩
  | @release _ c hc hands hu had =>
    obtain ⟨k, hk, hpool⟩ := hs.tagged _ (.inl (placed_of_hands (List.mem_of_getElem? hi) hc))
    have hcr : createdOf p (s.shared.apply (.close c)) = createdOf p s.shared := rfl
    have hop : openConns p (s.shared.apply (.close c)) + openShare p k =
        openConns p s.shared + openShare p k.close := openConns_onConn hk ClientConn.close
    rcases open_of_hands hs ha hi hc hk with ⟨hsock, hst⟩ | ⟨hst, rfl⟩
    · have h1 : openShare p k = 1 := by simp [openShare, hpool, hsock]
      have h0 : openShare p k.close = 0 := by simp [openShare, ClientConn.close, hst]
      exact ⟨0, by omega, by omega, .inl (by omega)⟩
    · cases (doomed_step h hk hst).1
  | decrement hq hu ha =>
    have hcr : createdOf p (s.shared.apply (.decrement p)) = createdOf p s.shared - 1 := by
      refine (createdOf_onPool hq _).trans ?_
      simp [createdOf, hq]
    have hop : openConns p (s.shared.apply (.decrement p)) = openConns p s.shared := rfl
    exact ⟨-1, by omega, by omega, .inl (by omega)⟩
  | @discard _ c hth hc hands hu ha =>
    obtain ⟨k, hk, _⟩ := hs.tagged _ (.inl (placed_of_hands (List.mem_of_getElem? hi) hc))
    have hcr : createdOf p (s.shared.apply (.close c)) = createdOf p s.shared := rfl
    have hop : openConns p (s.shared.apply (.close c)) + openShare p k =
        openConns p s.shared + openShare p k.close := openConns_onConn hk ClientConn.close
    have hle := openShare_close_le p k
    exact ⟨0, by omega, by omega, .inr ⟨hth, by omega⟩⟩

lemma openConns_answer {c request : Nat} {header : Header} {body : Bytes} {k k' : ClientConn}
    (hk : s.shared.conns[c]? = some k) (hans : k.answer request header body = some k') :
    openConns p { s.shared with conns := s.shared.conns.set c k' } = openConns p s.shared := by
  have hset := tally_set (f := fun _ => openShare p) hk k'
  have hshare : openShare p k' = openShare p k := by
    simp only [openShare, (pool_answer hans).1, (pool_answer hans).2.2]
  rw [openConns_eq, openConns_eq]
  dsimp only
  omega

lemma adding_start (a : ClientAction T) : adding p (s.threads ++ newThread a) = adding p s.threads := by
  unfold adding
  rw [tally_append]
  cases a <;> rfl

lemma uncounted_start (a : ClientAction T) :
    uncounted p (s.threads ++ newThread a) = uncounted p s.threads := by
  unfold uncounted
  rw [tally_append]
  cases a <;> rfl

lemma closesPool_of_closePool {sh : ClientShared} {id : Nat} {inp : Input} {th th' : Thread T}
    (h : threadStep cfg sh id th inp = some (.closePool p, th')) : th.closesPool p = true := by
  obtain ⟨kind, target, todo, q, rfl, _⟩ := closer_of_closePool h
  simp [Thread.closesPool]

lemma accounts_step {t : ClientState T} {a : ClientAction T} (hs : Accounts p s)
    (hok : CountedStep p s a) (h : clientStep cfg s a = some t) : Accounts p t := by
  have hsound := sound_step hs.sound h
  have hlocked := poolLocked_step hs.locked h
  have hb := hs.balance
  cases clientStep_move h with
  | @run i inp th op th' hi hstep =>
    obtain ⟨hcount, hpool⟩ := hok th hi
    have hop : op ≠ .closePool p := by
      rintro rfl
      rw [closesPool_of_closePool hstep] at hpool
      cases hpool
    obtain ⟨d, hcr, _, hopen | ⟨hdiscard, _⟩⟩ := balance_run hs.sound hs.alive hi hstep hop
    · exact ⟨hsound, closed_apply hop hs.alive, by dsimp only; omega, hlocked⟩
    · rw [hcount] at hdiscard
      cases hdiscard
  | answer hk hans =>
    refine ⟨hsound, hs.alive, ?_, hlocked⟩
    rw [openConns_answer hk hans]
    exact hb
  | start a =>
    refine ⟨hsound, hs.alive, ?_, hlocked⟩
    rw [adding_start, uncounted_start]
    exact hb

lemma accounts_init : Accounts p (.init : ClientState T) := by
  refine ⟨sound_init, ?_, rfl, poolLocked_init⟩
  intro q hq
  cases hq

end Accounts

/-- No operation on pool `p` is in progress. -/
def Quiet (p : Nat) (s : ClientState T) : Prop := ∀ th ∈ s.threads, th.quiet p = true

instance (p : Nat) (s : ClientState T) : Decidable (Quiet p s) :=
  inferInstanceAs (Decidable (∀ th ∈ s.threads, th.quiet p = true))

lemma getShare_of_quiet {f : GetPc → Bool} {p : Nat} {th : Thread T} (h : th.quiet p = true) :
    getShare f p th.inGet = 0 := by
  cases hin : th.inGet with
  | none => rfl
  | some x =>
    obtain ⟨p', g⟩ := x
    have hp : p' ≠ p := by
      rcases inGet_cases hin with ⟨t, rfl, hpc⟩ | rfl
      · simpa [Thread.quiet, hpc] using h
      · simpa [Thread.quiet] using h
    simp [getShare, hp]

lemma uncounted_of_quiet {p : Nat} {th : Thread T} (h : th.quiet p = true) : th.uncounted p = 0 :=
  getShare_of_quiet h

lemma adding_of_quiet {p : Nat} {th : Thread T} (h : th.quiet p = true) : th.adding p = 0 := by
  cases th with
  | prewarm p' pc =>
    cases pc with
    | add left c =>
      have hp : p' ≠ p := by simpa [Thread.quiet] using h
      simp [Thread.adding, PrewarmPc.adding, hp]
    | _ => rfl
  | _ => exact getShare_of_quiet (f := GetPc.adding) h

lemma tally_eq_zero_of_quiet {p : Nat} {s : ClientState T} (hq : Quiet p s) {f : Thread T → Nat}
    (hf : ∀ th, th.quiet p = true → f th = 0) : tally (fun _ => f) s.threads = 0 := by
  by_contra hne
  obtain ⟨i, th, hi, hpos⟩ := exists_of_tally_pos (Nat.pos_of_ne_zero hne)
  rw [hf th (hq th (List.mem_of_getElem? hi))] at hpos
  exact absurd hpos (lt_irrefl 0)

lemma mayCreate_of_lt {q : ConnPool} (hsize : q.size < 2 ^ 31) (h : q.created < q.size) :
    q.mayCreate = true := by
  have h32 : int32 q.size = q.size := int32_eq (by omega) (by omega)
  simp [ConnPool.mayCreate, h32, h]

/-- In a run that closes neither pool `p` nor one of its connections without counting, `created` is
the number of open connections whenever no operation on the pool is in progress, and `get` dials
while there are fewer than `size`. -/
theorem created_eq_open (cfg : ClientConfig V T) (p : Nat) (acts : List (ClientAction T))
    (s : ClientState T) (h : exec (clientStep cfg) .init acts = some s)
    (hok : Guarded (clientStep cfg) (CountedStep p) .init acts) (hquiet : Quiet p s) (q : ConnPool)
    (hq : s.shared.connPools[p]? = some q) :
    q.created = openConns p s.shared ∧ (q.size < 2 ^ 31 → openConns p s.shared < q.size →
      (∀ inp, getStep s.shared p .load inp = some (.nop, .next (.create false))) ∧
      getStep s.shared p (.create false) .go =
        some (.create p, .next (.count s.shared.conns.length)) ∧
      ∀ inp, getStep (s.shared.apply (.create p)) p (.count s.shared.conns.length) inp =
        some (.count p s.shared.conns.length, .next (.mark s.shared.conns.length))) := by
  have hs := exec_invariant_guarded (Accounts p) (fun _ _ _ hs ho hstep => accounts_step hs ho hstep)
    accounts_init hok h
  have hb := hs.balance
  have hadd : adding p s.threads = 0 := tally_eq_zero_of_quiet hquiet (fun _ => adding_of_quiet)
  have hunc : uncounted p s.threads = 0 :=
    tally_eq_zero_of_quiet hquiet (fun _ => uncounted_of_quiet)
  have hcr : createdOf p s.shared = q.created := by simp [createdOf, hq]
  have heq : q.created = openConns p s.shared := by omega
  refine ⟨heq, fun hsize hlt => ?_⟩
  have hmay := mayCreate_of_lt hsize (by omega)
  have hfree := free_of_dialling hs.locked hq
    (tally_eq_zero_of_quiet hquiet (fun _ => getShare_of_quiet))
  refine ⟨fun inp => by simp [getStep, hq, hmay], by simp [getStep, hq, hmay, hfree], fun inp => ?_⟩
  simp [getStep, ClientShared.apply, ClientShared.addConn, ClientShared.onPool, hq]

/-- The response does not come in time; the Invoke puts its connection back and returns. -/
def timedOutCall : List (ClientAction Unit) :=
  dialOnly ++ [.run 0 .go, .run 0 (.read 0 (str "i/o timeout"))] ++ steps 0 6

theorem created_eq_open_timedOutCall : ∃ (s : ClientState Unit) (q : ConnPool),
    exec (clientStep smallClient) .init timedOutCall = some s ∧
      s.shared.connPools[0]? = some q ∧ q.created = openConns 0 s.shared ∧
      getStep s.shared 0 (.create false) .go = some (.create 0, .next (.count s.shared.conns.length)) := by
  refine ⟨_, _, rfl, rfl, ?_⟩
  have h := created_eq_open smallClient 0 timedOutCall _ rfl (by decide +kernel) (by decide +kernel)
    _ rfl
  exact ⟨h.1, (h.2 (by decide) (by decide +kernel)).2.1⟩

/-- A client with pools of size 1 that does not retry. -/
def singleClient : ClientConfig Bytes Unit := ⟨storedEnv, bytesProto, 0, 1, 4096, Nat.one_pos⟩

/-- The write of the request fails, and the Invoke returns its error. -/
def failedSend : List (ClientAction Unit) := dialOnly ++ [.run 0 (.fail (str "EPIPE"))] ++ steps 0 5

theorem failedSend_miscounts : ∃ s ∈ exec (clientStep singleClient) .init failedSend, Quiet 0 s ∧
    ∃ q ∈ s.shared.connPools[0]?, q.created ≠ (openConns 0 s.shared : Int) ∧
      openConns 0 s.shared < q.size ∧ q.mayCreate = false := by
  decide +kernel

/-! ### The size of a pool -/

def sizeOf (p : Nat) (s : ClientShared) : Nat := (s.connPools[p]?.map ConnPool.size).getD 0

def dialsFor (p : Nat) : ClientOp → Bool
  | .dial p' | .create p' => p' == p
  | _ => false

/-- The step does not close pool `p`, and dials for it only while fewer than `size` connections are
counted or dialled and about to be counted. -/
def DialsBelowSize (cfg : ClientConfig V T) (p : Nat) (s : ClientState T) : ClientAction T → Prop
  | .run i inp => ∀ th ∈ s.threads[i]?, th.closesPool p = false ∧
      ∀ r ∈ threadStep cfg s.shared i th inp, dialsFor p r.1 = true →
        createdOf p s.shared + adding p s.threads < sizeOf p s.shared
  | _ => True

instance (cfg : ClientConfig V T) (p : Nat) (s : ClientState T) :
    ∀ a, Decidable (DialsBelowSize cfg p s a)
  | .run i inp => inferInstanceAs (Decidable (∀ th ∈ s.threads[i]?, th.closesPool p = false ∧
      ∀ r ∈ threadStep cfg s.shared i th inp, _))
  | .invoke _ _ | .heartbeat | .close | .updateServers _ | .answer _ _ _ _ => isTrue trivial

structure Limited (p : Nat) (s : ClientState T) : Prop where
  sound : Sound s
  alive : Alive s.shared p
  counted : (openConns p s.shared : Int) + uncounted p s.threads ≤
    createdOf p s.shared + adding p s.threads
  within : createdOf p s.shared + adding p s.threads ≤ sizeOf p s.shared

section Limited

variable {cfg : ClientConfig V T} {s : ClientState T} {p : Nat}

lemma sizeOf_apply (sh : ClientShared) (op : ClientOp) : sizeOf p sh ≤ sizeOf p (sh.apply op) := by
  unfold sizeOf
  cases hq : sh.connPools[p]? with
  | none => exact Nat.zero_le _
  | some q =>
    obtain ⟨q', hq', hm⟩ := pool_move op hq
    have hsize : q'.size = q.size := by
      cases hm with
      | same he | queues he | counter he | create _ he | count _ he | add _ he | closePool _ he
      | closeHot _ he => rw [he]
    rw [hq']
    exact hsize.ge

lemma limited_step {t : ClientState T} {a : ClientAction T} (hs : Limited p s)
    (hok : DialsBelowSize cfg p s a) (h : clientStep cfg s a = some t) : Limited p t := by
  have hsound := sound_step hs.sound h
  have hcounted := hs.counted
  have hwithin := hs.within
  cases clientStep_move h with
  | @run i inp th op th' hi hstep =>
    obtain ⟨hpool, hdial⟩ := hok th hi
    have hop : op ≠ .closePool p := by
      rintro rfl
      rw [closesPool_of_closePool hstep] at hpool
      cases hpool
    have hsize := sizeOf_apply (p := p) s.shared op
    obtain ⟨d, hcr, hd, hopen⟩ := balance_run hs.sound hs.alive hi hstep hop
    refine ⟨hsound, closed_apply hop hs.alive, ?_, ?_⟩
    · rcases hopen with hopen | ⟨_, hopen⟩ <;> dsimp only <;> omega
    · dsimp only
      by_cases hpos : 0 < d
      · obtain ⟨hone, hdials⟩ := hd hpos
        have hbelow := hdial (op, th') hstep (by rcases hdials with rfl | rfl <;> simp [dialsFor])
        omega
      · omega
  | answer hk hans =>
    refine ⟨hsound, hs.alive, ?_, hwithin⟩
    rw [openConns_answer hk hans]
    exact hcounted
  | start a =>
    refine ⟨hsound, hs.alive, ?_, ?_⟩
    · rw [adding_start, uncounted_start]
      exact hcounted
    · rw [adding_start]
      exact hwithin

lemma limited_init : Limited p (.init : ClientState T) := by
  refine ⟨sound_init, ?_, le_rfl, le_rfl⟩
  intro q hq
  cases hq

end Limited

/-- In a run that does not close pool `p` and dials for it only while fewer than `size` connections
are counted or about to be counted, the pool never has more than `size` open connections. -/
theorem open_le_size (cfg : ClientConfig V T) (p : Nat) (acts : List (ClientAction T))
    (s : ClientState T) (h : exec (clientStep cfg) .init acts = some s)
    (hok : Guarded (clientStep cfg) (DialsBelowSize cfg p) .init acts) (q : ConnPool)
    (hq : s.shared.connPools[p]? = some q) : openConns p s.shared ≤ q.size := by
  have hs := exec_invariant_guarded (Limited p) (fun _ _ _ hs ho hstep => limited_step hs ho hstep)
    limited_init hok h
  have hcounted := hs.counted
  have hwithin := hs.within
  have hsize : sizeOf p s.shared = q.size := by simp [sizeOf, hq]
  omega

theorem open_le_size_timedOutCall : ∃ (s : ClientState Unit) (q : ConnPool),
    exec (clientStep smallClient) .init timedOutCall = some s ∧ s.shared.connPools[0]? = some q ∧
      openConns 0 s.shared = 1 ∧ openConns 0 s.shared ≤ q.size :=
  ⟨_, _, rfl, rfl, rfl, open_le_size smallClient 0 timedOutCall _ rfl (by decide +kernel) _ rfl⟩

theorem twoInvokes_exceeds : ∃ (s : ClientState Unit) (q : ConnPool),
    exec (clientStep smallClient) .init twoInvokes = some s ∧ s.shared.connPools[0]? = some q ∧
      q.size = 2 ∧ openConns 0 s.shared = 3 :=
  ⟨_, _, rfl, rfl, rfl, rfl⟩

end Zrpc.Proofs
