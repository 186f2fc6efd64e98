import Zrpc.CachedDiscovery
import Zrpc.Lib.History

/-!
# How old a discovered server can be

Goroutines call `Get`, `GetAll`, `Refresh` and `Update` of one discovery side by side. Whatever they
do, no index is out of range, and a server that `Get` or `GetAll` returns was given to `Update`, or
the registry named it in an answer that is at most `refreshInterval` older than the call, plus the
time between an answer and its being stored.
-/

namespace Zrpc.Proofs

open Zrpc.Lib

variable {β α ω : Type}

/-! ### What one step does -/

/-- The steps of a goroutine that touch neither the server list nor the lock. -/
inductive QuietPc (B : Backend β α ω) (s : CacheState β) (th : CacheThread) : CachePc → Prop
  | refresh (hpc : th.pc = .start) : QuietPc B s th .querying
  | fail {err} (hpc : th.pc = .querying) : QuietPc B s th (.finished (.failed err))
  | answer {servers o} (hpc : th.pc = .querying) (hq : B.query o s.backend = .ok servers) :
    QuietPc B s th (.storing servers (B.clock s.backend))
  | fresh {t} (hpc : th.pc = .checking) (ht : s.lastRefresh = some t)
    (hfresh : B.clock s.backend - t ≤ refreshInterval) : QuietPc B s th .reading
  | size (hpc : th.pc = .reading) : QuietPc B s th (.choosing s.servers.length)
  | refuse {n err} (hpc : th.pc = .choosing n) : QuietPc B s th (.leaving (.failed err))
  | random {n addr} (hpc : th.pc = .choosing n) (ha : addr ∈ s.servers) :
    QuietPc B s th (.leaving (.addr addr))
  | pick {n addr} (hpc : th.pc = .choosing n) (ha : addr ∈ s.servers) :
    QuietPc B s th (.picked n addr)
  | copy {n} (hpc : th.pc = .choosing n) :
    QuietPc B s th (.leaving (.addrs (CacheState.copyOf s.servers n)))
  | reread {n addr idx} (hpc : th.pc = .picked n addr) : QuietPc B s th (.bumping n addr idx)
  | bump {n addr idx} (hpc : th.pc = .bumping n addr idx) : QuietPc B s th (.leaving (.addr addr))

/-- The steps of `cacheStep`. -/
inductive CacheMove (B : Backend β α ω) (s : CacheState β) : CacheAction α ω → CacheState β → Prop
  | backend {a b} (h : B.step s.backend a = some b) :
    CacheMove B s (.backend a) { s with backend := b }
  | call {c} : CacheMove B s (.call c)
      { s with threads := s.threads ++ [⟨c, B.clock s.backend, .start⟩] }
  | quiet {a i th pc idx} (hth : s.threads[i]? = some th) (hpc : QuietPc B s th pc) :
    CacheMove B s a ({ s with idx := idx }.setPc i th pc)
  | acquire {a i th pc mu} (hth : s.threads[i]? = some th) (hmu : s.mu.rlock i = some mu)
    (hpc : th.pc = .start ∧ pc = .checking ∨ th.pc = .refreshed ∧ pc = .reading) :
    CacheMove B s a ({ s with mu := mu }.setPc i th pc)
  | release {a i th pc} (hth : s.threads[i]? = some th)
    (hpc : th.pc = .checking ∧ pc = .querying ∨
      ∃ result, th.pc = .leaving result ∧ pc = .finished result) :
    CacheMove B s a ({ s with mu := s.mu.runlock i }.setPc i th pc)
  | update {a i th servers} (hth : s.threads[i]? = some th) (hpc : th.pc = .start)
    (hcall : th.call = .Update servers) (hfree : s.mu = .free) :
    CacheMove B s a ({ s with servers := servers }.setPc i th (.finished .done))
  | store {i th servers answeredAt pc} (hth : s.threads[i]? = some th)
    (hpc : th.pc = .storing servers answeredAt) (hfree : s.mu = .free)
    (hnext : pc = .finished .done ∨ pc = .refreshed) :
    CacheMove B s (.run i) ({ s with
      servers := servers
      lastRefresh := some (B.clock s.backend) }.setPc i th pc)
  | panic {a} {i n k : Nat} {th : CacheThread} (hth : s.threads[i]? = some th)
    (hpc : th.pc = .choosing n) (hn : n ≠ 0)
    (hk : s.servers[k % n]? = none) : CacheMove B s a { s with panicked := true }

section Step

variable {B : Backend β α ω} {s t : CacheState β} {i : Nat} {th : CacheThread}

lemma rlock_eq_some {pc : CachePc} (h : s.rlock i th pc = some t) :
    ∃ mu, s.mu.rlock i = some mu ∧ t = { s with mu := mu }.setPc i th pc := by
  unfold CacheState.rlock at h
  split at h
  · next mu hmu => exact ⟨mu, hmu, (Option.some.inj h).symm⟩
  · cases h

lemma locked_eq_some {body : CacheState β → CacheState β} (h : s.locked i body = some t) :
    s.mu = .free ∧ t = { body { s with mu := ⟨some i, []⟩ } with
      mu := (body { s with mu := ⟨some i, []⟩ }).mu.unlock } := by
  unfold CacheState.locked at h
  split at h
  · next mu hmu =>
    obtain ⟨hfree, rfl⟩ := RWLock.lock_eq_some hmu
    exact ⟨hfree, (Option.some.inj h).symm⟩
  · cases h

lemma choose_move {n : Nat} (hth : s.threads[i]? = some th) (hpc : th.pc = .choosing n) :
    CacheMove B s (.run i) (s.choose i th n) := by
  unfold CacheState.choose
  split
  · split
    · exact .quiet hth (.refuse hpc)
    · next hn =>
      split
      · split
        · next ha => exact .quiet hth (.random hpc (List.mem_of_getElem? ha))
        · next ha => exact .panic hth hpc hn ha
      · split
        · next ha => exact .quiet hth (.pick hpc (List.mem_of_getElem? ha))
        · next ha => exact .panic hth hpc hn ha
      · exact .quiet hth (.refuse hpc)
  all_goals exact .quiet hth (.copy hpc)

lemma cacheRun_move (hth : s.threads[i]? = some th) (h : cacheRun B s i th = some t) :
    CacheMove B s (.run i) t := by
  unfold cacheRun at h
  split at h
  · next hpc =>
    split at h
    · obtain ⟨mu, hmu, rfl⟩ := rlock_eq_some h
      exact .acquire hth hmu (.inl ⟨hpc, rfl⟩)
    · obtain ⟨mu, hmu, rfl⟩ := rlock_eq_some h
      exact .acquire hth hmu (.inl ⟨hpc, rfl⟩)
    · cases h
      exact .quiet hth (.refresh hpc)
    · next servers hcall =>
      obtain ⟨hfree, rfl⟩ := locked_eq_some h
      have hmove := CacheMove.update (B := B) (a := .run i) hth hpc hcall hfree
      cases s
      cases hfree
      exact hmove
  · next hpc =>
    split at h
    · cases h
      exact .release hth (.inl ⟨hpc, rfl⟩)
    · next hcond =>
      cases h
      rw [not_or] at hcond
      cases hlast : s.lastRefresh with
      | none => simp [hlast, stale] at hcond
      | some t =>
        rw [hlast] at hcond
        have hfresh : ¬refreshInterval < B.clock s.backend - t := by simpa [stale] using hcond.2
        exact .quiet hth (.fresh hpc hlast (by omega))
  · cases h
  · next servers answeredAt hpc =>
    obtain ⟨hfree, rfl⟩ := locked_eq_some h
    have hmove : ∀ pc, pc = .finished .done ∨ pc = .refreshed → CacheMove B s (.run i) ({ s with
        servers := servers
        lastRefresh := some (B.clock s.backend) }.setPc i th pc) :=
      fun pc hnext => .store hth hpc hfree hnext
    cases s
    cases hfree
    refine hmove _ ?_
    split
    · exact .inl rfl
    all_goals exact .inr rfl
  · next hpc =>
    obtain ⟨mu, hmu, rfl⟩ := rlock_eq_some h
    exact .acquire hth hmu (.inr ⟨hpc, rfl⟩)
  · next hpc =>
    cases h
    exact .quiet hth (.size hpc)
  · next n hpc =>
    cases h
    exact choose_move hth hpc
  · next n addr hpc =>
    cases h
    exact .quiet hth (.reread hpc)
  · next n addr idx hpc =>
    cases h
    exact .quiet hth (.bump hpc)
  · next result hpc =>
    cases h
    exact .release hth (.inr ⟨result, hpc, rfl⟩)
  · cases h

lemma cacheStep_move {a : CacheAction α ω} (h : cacheStep B s a = some t) : CacheMove B s a t := by
  unfold cacheStep at h
  split at h
  · cases h
  cases a with
  | backend a =>
    dsimp only at h
    split at h
    · next b hb =>
      cases h
      exact .backend hb
    · cases h
  | call c =>
    cases h
    exact .call
  | run i =>
    dsimp only at h
    split at h
    · next th hth => exact cacheRun_move hth h
    · cases h
  | query i o err =>
    dsimp only at h
    split at h
    · next call calledAt hth =>
      split at h
      · cases h
        exact .quiet hth (.fail rfl)
      · split at h
        · cases h
          exact .quiet hth (.fail rfl)
        · next hq =>
          cases h
          exact .quiet hth (.answer rfl hq)
    · cases h

end Step

/-! ### Where the servers come from -/

/-- The goroutine holds `d.mu.RLock`. -/
def CachePc.reads : CachePc → Bool
  | .checking | .reading | .choosing _ | .picked _ _ | .bumping _ _ _ | .leaving _ => true
  | .start | .querying | .storing _ _ | .refreshed | .finished _ => false

/-- An `Update` with this list was called. -/
def Updated (s : CacheState β) (servers : List GoString) : Prop :=
  ∃ th ∈ s.threads, th.call = .Update servers

section Origin

variable (B : Backend β α ω) (s₀ : CacheState β) (as : List (CacheAction α ω)) (s : CacheState β)

/-- The registry was in a state, no earlier than `since`, in which its answer was this list. -/
def Answered (since : Int) (servers : List GoString) : Prop :=
  Past (cacheStep B) s₀ as fun s =>
    since ≤ B.clock s.backend ∧ ∃ o, B.query o s.backend = .ok servers

def KnownSince (since : Int) (servers : List GoString) : Prop :=
  Updated s servers ∨ Answered B s₀ as since servers

/-- The cached list was refreshed no earlier than `since`, or is one of `Update`. -/
def RefreshedSince (since : Int) : Prop :=
  Updated s s.servers ∨ ∃ t, s.lastRefresh = some t ∧ since ≤ t

/-- What a result says about the registry. -/
def ResultKnown (since : Int) : CacheResult → Prop
  | .addr addr => ∃ servers, addr ∈ servers ∧ KnownSince B s₀ as s since servers
  | .addrs servers => KnownSince B s₀ as s since servers
  | .done | .failed _ => True

/-- What a goroutine knows, for answers that are stored within `delay`. -/
def ThreadKnows (delay : Int) (th : CacheThread) : Prop :=
  match th.pc with
  | .start | .checking | .querying => True
  | .storing servers answeredAt => Answered B s₀ as answeredAt servers
  | .refreshed => ∃ t, s.lastRefresh = some t ∧ th.calledAt ≤ t
  | .reading | .choosing _ => RefreshedSince s (th.calledAt - refreshInterval)
  | .picked _ addr | .bumping _ addr _ =>
    ResultKnown B s₀ as s (th.calledAt - refreshInterval - delay) (.addr addr)
  | .leaving result | .finished result =>
    ResultKnown B s₀ as s (th.calledAt - refreshInterval - delay) result

structure CacheInv (delay : Int) : Prop where
  called : ∀ th ∈ s.threads, th.calledAt ≤ B.clock s.backend
  stored : ∀ t, s.lastRefresh = some t →
    t ≤ B.clock s.backend ∧ KnownSince B s₀ as s (t - delay) s.servers
  threads : ∀ th ∈ s.threads, ThreadKnows B s₀ as s delay th

end Origin

section Knowledge

variable {B : Backend β α ω} {s₀ : CacheState β} {as : List (CacheAction α ω)} {s t : CacheState β}
  {a : CacheAction α ω} {since delay : Int} {servers : List GoString} {th : CacheThread}

lemma Answered.mono (h : Answered B s₀ as since servers) {since' : Int} (hle : since' ≤ since) :
    Answered B s₀ as since' servers :=
  Past.mono h fun _ hs => ⟨hle.trans hs.1, hs.2⟩

lemma KnownSince.mono (h : KnownSince B s₀ as s since servers) {since' : Int} (hle : since' ≤ since) :
    KnownSince B s₀ as s since' servers :=
  h.imp id fun h => h.mono hle

lemma KnownSince.step (h : KnownSince B s₀ as s since servers)
    (hupd : ∀ l, Updated s l → Updated t l) : KnownSince B s₀ (as ++ [a]) t since servers :=
  h.imp (hupd servers) fun h => h.append [a]

lemma ResultKnown.step {result : CacheResult} (h : ResultKnown B s₀ as s since result)
    (hupd : ∀ l, Updated s l → Updated t l) : ResultKnown B s₀ (as ++ [a]) t since result := by
  cases result with
  | addr addr =>
    obtain ⟨servers, hmem, hknown⟩ := h
    exact ⟨servers, hmem, hknown.step hupd⟩
  | addrs servers => exact KnownSince.step h hupd
  | done | failed _ => trivial

lemma RefreshedSince.congr (h : RefreshedSince s since) (hlast : t.lastRefresh = s.lastRefresh)
    (hservers : t.servers = s.servers) (hupd : ∀ l, Updated s l → Updated t l) :
    RefreshedSince t since := by
  refine h.imp (fun h => ?_) (fun h => ?_)
  · rw [hservers]
    exact hupd _ h
  · rwa [hlast]

/-- A step that leaves the cache alone takes nothing away from what a goroutine knows. -/
lemma ThreadKnows.step (h : ThreadKnows B s₀ as s delay th) (hlast : t.lastRefresh = s.lastRefresh)
    (hservers : t.servers = s.servers) (hupd : ∀ l, Updated s l → Updated t l) :
    ThreadKnows B s₀ (as ++ [a]) t delay th := by
  unfold ThreadKnows at h ⊢
  split
  · trivial
  · trivial
  · trivial
  · next hpc =>
    rw [hpc] at h
    exact Past.append h [a]
  · next hpc =>
    rw [hpc] at h
    rwa [hlast]
  · next hpc =>
    rw [hpc] at h
    exact h.congr hlast hservers hupd
  · next hpc =>
    rw [hpc] at h
    exact h.congr hlast hservers hupd
  · next hpc =>
    rw [hpc] at h
    exact ResultKnown.step h hupd
  · next hpc =>
    rw [hpc] at h
    exact ResultKnown.step h hupd
  · next hpc =>
    rw [hpc] at h
    exact ResultKnown.step h hupd
  · next hpc =>
    rw [hpc] at h
    exact ResultKnown.step h hupd

/-- A step that changes the cache keeps what a goroutine outside the lock knows. -/
lemma ThreadKnows.write (h : ThreadKnows B s₀ as s delay th) (hreads : CachePc.reads th.pc = false)
    (hlast : ∀ u, s.lastRefresh = some u → ∃ v, t.lastRefresh = some v ∧ u ≤ v)
    (hupd : ∀ l, Updated s l → Updated t l) : ThreadKnows B s₀ (as ++ [a]) t delay th := by
  unfold ThreadKnows at h ⊢
  cases hpc : th.pc with
  | start | querying => trivial
  | storing servers answeredAt =>
    rw [hpc] at h
    exact Past.append h [a]
  | refreshed =>
    rw [hpc] at h
    obtain ⟨u, hu, hle⟩ := h
    obtain ⟨v, hv, huv⟩ := hlast u hu
    exact ⟨v, hv, hle.trans huv⟩
  | finished result =>
    rw [hpc] at h
    exact ResultKnown.step h hupd
  | checking | reading | choosing _ | picked _ _ | bumping _ _ _ | leaving _ =>
    rw [hpc] at hreads
    cases hreads

lemma updated_setPc {r : CacheState β} {i : Nat} (pc : CachePc) (hr : r.threads = s.threads)
    (hth : s.threads[i]? = some th) (l : List GoString) (h : Updated s l) :
    Updated (r.setPc i th pc) l := by
  obtain ⟨th', hmem, hcall⟩ := h
  have hset := exists_mem_set (p := fun x : CacheThread => x.call = .Update l)
    (b := { th with pc := pc }) hth id
  unfold Updated CacheState.setPc
  dsimp only
  rw [hr]
  exact hset.mpr (.inr ⟨th', hmem, hcall⟩)

/-- Of the goroutines after one has moved on, each is the moved one or was there before. -/
lemma mem_setPc {r : CacheState β} {i : Nat} {pc : CachePc} {th' : CacheThread}
    (hr : r.threads = s.threads) (hth' : th' ∈ (r.setPc i th pc).threads) :
    th' = { th with pc := pc } ∨ th' ∈ s.threads := by
  rw [CacheState.setPc, hr] at hth'
  exact (List.mem_or_eq_of_mem_set hth').symm

end Knowledge

/-! ### Readers and the server list -/

/-- The lock knows its readers, and a length that was read under it is still the length. -/
structure CacheSafe (s : CacheState β) : Prop where
  mu : s.mu.Agrees (fun _ => False) fun i => ∃ th ∈ s.threads[i]?, CachePc.reads th.pc = true
  sized : ∀ th ∈ s.threads, ∀ n, th.pc = .choosing n → n = s.servers.length
  alive : s.panicked = false

section Safe

variable {B : Backend β α ω} {s t r : CacheState β} {a : CacheAction α ω} {i : Nat} {th : CacheThread}
  {pc : CachePc}

lemma QuietPc.reads_eq (h : QuietPc B s th pc) : CachePc.reads pc = CachePc.reads th.pc := by
  cases h <;> rename_i hpc <;> simp_all [CachePc.reads]

lemma reads_setPc (hr : r.threads = s.threads) (hth : s.threads[i]? = some th) (j : Nat) :
    (∃ x ∈ (r.setPc i th pc).threads[j]?, CachePc.reads x.pc = true) ↔
      j = i ∧ CachePc.reads pc = true ∨
        j ≠ i ∧ ∃ x ∈ s.threads[j]?, CachePc.reads x.pc = true := by
  have hset := exists_mem_getElem?_set (b := { th with pc := pc }) hth
    (fun x : CacheThread => CachePc.reads x.pc = true) j
  rw [CacheState.setPc, hr]
  exact hset

lemma agrees_setPc (hs : CacheSafe s) (hr : r.threads = s.threads) (hmu : r.mu = s.mu)
    (hth : s.threads[i]? = some th) (hreads : CachePc.reads pc = CachePc.reads th.pc) :
    (r.setPc i th pc).mu.Agrees (fun _ => False)
      fun j => ∃ x ∈ (r.setPc i th pc).threads[j]?, CachePc.reads x.pc = true := by
  have hmu' : (r.setPc i th pc).mu = s.mu := hmu
  rw [hmu']
  refine hs.mu.congr (fun _ => Iff.rfl) fun j => ?_
  rw [reads_setPc hr hth]
  by_cases hj : j = i
  · subst hj
    simp [hth, hreads]
  · simp [hj]

/-- Nobody reads while the lock is free. -/
lemma CacheSafe.no_reader (hs : CacheSafe s) (hfree : s.mu = .free) :
    ∀ x ∈ s.threads, CachePc.reads x.pc = false := by
  intro x hx
  obtain ⟨j, hj⟩ := List.mem_iff_getElem?.mp hx
  by_contra hreads
  have hmem : j ∈ s.mu.readers :=
    (hs.mu.reader j).mpr ⟨x, Option.mem_def.mpr hj, by simpa using hreads⟩
  rw [hfree] at hmem
  cases hmem

lemma sized_setPc (hs : CacheSafe s) (hr : r.threads = s.threads) (hservers : r.servers = s.servers)
    (hpc : ∀ n, pc = .choosing n → n = s.servers.length) :
    ∀ x ∈ (r.setPc i th pc).threads, ∀ n, x.pc = .choosing n →
      n = (r.setPc i th pc).servers.length := by
  intro x hx n hn
  have hlen : (r.setPc i th pc).servers = s.servers := hservers
  rw [hlen]
  rcases mem_setPc hr hx with rfl | hold
  · exact hpc n hn
  · exact hs.sized x hold n hn

/-- A critical section of a writer: nobody holds a length. -/
lemma safe_write (hs : CacheSafe s) (hr : r.threads = s.threads) (hmu : r.mu = s.mu)
    (halive : r.panicked = s.panicked) (hth : s.threads[i]? = some th) (hfree : s.mu = .free)
    (hpc : CachePc.reads pc = false) : CacheSafe (r.setPc i th pc) := by
  have hreader := hs.no_reader hfree
  refine ⟨agrees_setPc hs hr hmu hth ?_, fun x hx n hn => ?_, halive.trans hs.alive⟩
  · rw [hpc, hreader th (List.mem_of_getElem? hth)]
  · rcases mem_setPc hr hx with rfl | hold
    · rw [show pc = .choosing n from hn] at hpc
      cases hpc
    · have hfalse := hreader x hold
      rw [hn] at hfalse
      cases hfalse

lemma cacheSafe_step (hs : CacheSafe s) (h : cacheStep B s a = some t) : CacheSafe t := by
  cases cacheStep_move h with
  | backend _ => exact ⟨hs.mu, hs.sized, hs.alive⟩
  | @call c =>
    refine ⟨hs.mu.congr (fun _ => Iff.rfl) fun j => ?_, fun x hx n hn => ?_, hs.alive⟩
    · exact exists_mem_getElem?_concat (p := fun x : CacheThread => CachePc.reads x.pc = true)
        (by simp [CachePc.reads]) j
    · rcases List.mem_append.mp hx with hold | hnew
      · exact hs.sized x hold n hn
      · rw [List.mem_singleton.mp hnew] at hn
        cases hn
  | @quiet _ i th pc idx hth hpc =>
    refine ⟨agrees_setPc hs rfl rfl hth hpc.reads_eq, sized_setPc hs rfl rfl fun n hn => ?_, hs.alive⟩
    cases hpc <;> cases hn
    rfl
  | @acquire _ i th pc mu hth hmu hpc =>
    have hout : CachePc.reads th.pc = false := by
      rcases hpc with ⟨h, -⟩ | ⟨h, -⟩ <;> rw [h] <;> rfl
    have hin : CachePc.reads pc = true := by
      rcases hpc with ⟨-, h⟩ | ⟨-, h⟩ <;> rw [h] <;> rfl
    refine ⟨hs.mu.rlock hmu ?_ (fun _ => Iff.rfl) fun j => ?_, sized_setPc hs rfl rfl ?_, hs.alive⟩
    · simp [hth, hout]
    · rw [reads_setPc (r := { s with mu := mu }) rfl hth]
      by_cases hj : j = i
      · simp [hj, hin]
      · simp [hj]
    · intro n hn
      rcases hpc with ⟨-, h⟩ | ⟨-, h⟩ <;> rw [h] at hn <;> cases hn
  | @release _ i th pc hth hpc =>
    have hout : CachePc.reads pc = false := by
      rcases hpc with ⟨-, h⟩ | ⟨result, -, h⟩ <;> rw [h] <;> rfl
    refine ⟨hs.mu.runlock (fun _ => Iff.rfl) fun j => ?_, sized_setPc hs rfl rfl ?_, hs.alive⟩
    · rw [reads_setPc (r := { s with mu := s.mu.runlock i }) rfl hth]
      by_cases hj : j = i
      · simp [hj, hout]
      · simp [hj]
    · intro n hn
      rw [hn] at hout
      cases hout
  | update hth _ _ hfree => exact safe_write hs rfl rfl rfl hth hfree rfl
  | store hth _ hfree hnext =>
    refine safe_write hs rfl rfl rfl hth hfree ?_
    rcases hnext with h | h <;> rw [h] <;> rfl
  | @panic _ i n k th hth hpc hn hk =>
    have hlen := hs.sized th (List.mem_of_getElem? hth) n hpc
    rw [List.getElem?_eq_none_iff, ← hlen] at hk
    exact absurd hk (not_le.mpr (Nat.mod_lt k (Nat.pos_of_ne_zero hn)))

/-- Nobody writes the server list while a goroutine holds `d.mu.RLock`. -/
lemma CacheSafe.servers_eq (hs : CacheSafe s) (h : cacheStep B s a = some t) (hmem : th ∈ s.threads)
    (hreads : CachePc.reads th.pc = true) : t.servers = s.servers := by
  cases cacheStep_move h with
  | backend _ | call | quiet _ _ | acquire _ _ _ | release _ _ | panic _ _ _ _ => rfl
  | update _ _ _ hfree | store _ _ hfree _ =>
    rw [hs.no_reader hfree th hmem] at hreads
    cases hreads

lemma cacheSafe_init (b : β) : CacheSafe (.init b) where
  mu := ⟨fun _ => by simp [CacheState.init, RWLock.free], fun _ => by simp [CacheState.init, RWLock.free],
    List.nodup_nil⟩
  sized := fun _ h => by cases h
  alive := rfl

end Safe

/-! ### Whole runs -/

/-- The time of the answer that a goroutine is about to store. -/
def CachePc.toStore : CachePc → Option Int
  | .storing _ answeredAt => some answeredAt
  | _ => none

/-- A store comes at most `delay` after the answer it stores. -/
def StoreTimely (B : Backend β α ω) (delay : Int) (s : CacheState β) : CacheAction α ω → Prop
  | .run i => ∀ th ∈ s.threads[i]?, ∀ answeredAt ∈ CachePc.toStore th.pc,
      B.clock s.backend - answeredAt ≤ delay
  | _ => True

instance (B : Backend β α ω) (delay : Int) (s : CacheState β) : ∀ a, Decidable (StoreTimely B delay s a)
  | .run i => inferInstanceAs (Decidable (∀ th ∈ s.threads[i]?, ∀ answeredAt ∈ CachePc.toStore th.pc,
      B.clock s.backend - answeredAt ≤ delay))
  | .backend _ | .call _ | .query _ _ _ => isTrue trivial

section Run

variable {B : Backend β α ω} {s₀ s t : CacheState β} {as : List (CacheAction α ω)}
  {a : CacheAction α ω} {delay : Int}

lemma CacheInv.known (hi : CacheInv B s₀ as s delay) {since : Int} (h : RefreshedSince s since) :
    KnownSince B s₀ as s (since - delay) s.servers := by
  rcases h with hupd | ⟨t, ht, hle⟩
  · exact .inl hupd
  · exact (hi.stored t ht).2.mono (by omega)

lemma copyOf_length (servers : List GoString) :
    CacheState.copyOf servers servers.length = servers := by
  simp [CacheState.copyOf]

lemma QuietPc.knows {i : Nat} {th : CacheThread} {pc : CachePc}
    (hrun : exec (cacheStep B) s₀ as = some s) (hs : CacheSafe s) (hi : CacheInv B s₀ as s delay)
    (hth : s.threads[i]? = some th) (h : QuietPc B s th pc) :
    ThreadKnows B s₀ as s delay { th with pc := pc } := by
  have hmem := List.mem_of_getElem? hth
  have hcalled := hi.called th hmem
  have hknows := hi.threads th hmem
  unfold ThreadKnows at hknows
  cases h with
  | refresh _ => trivial
  | fail _ => trivial
  | @answer servers o _ hq => exact past_of_exec hrun ⟨le_rfl, o, hq⟩
  | @fresh u _ hu hfresh => exact .inr ⟨u, hu, by dsimp only; omega⟩
  | size hpc =>
    rw [hpc] at hknows
    exact hknows
  | refuse _ => trivial
  | random hpc ha =>
    rw [hpc] at hknows
    exact ⟨s.servers, ha, hi.known hknows⟩
  | pick hpc ha =>
    rw [hpc] at hknows
    exact ⟨s.servers, ha, hi.known hknows⟩
  | @copy n hpc =>
    rw [hpc] at hknows
    have hlen := hs.sized th hmem n hpc
    unfold ThreadKnows ResultKnown
    dsimp only
    rw [hlen, copyOf_length]
    exact hi.known hknows
  | reread hpc =>
    rw [hpc] at hknows
    exact hknows
  | bump hpc =>
    rw [hpc] at hknows
    exact hknows

/-- A step of a goroutine that leaves the cache alone. -/
lemma CacheInv.of_setPc {r : CacheState β} {i : Nat} {th : CacheThread} {pc : CachePc}
    (hi : CacheInv B s₀ as s delay) (hr : r.threads = s.threads) (hb : r.backend = s.backend)
    (hlast : r.lastRefresh = s.lastRefresh) (hservers : r.servers = s.servers)
    (hth : s.threads[i]? = some th)
    (hknows : ThreadKnows B s₀ as s delay { th with pc := pc }) :
    CacheInv B s₀ (as ++ [a]) (r.setPc i th pc) delay := by
  have hupd := updated_setPc pc hr hth
  refine ⟨fun x hx => ?_, fun u hu => ?_, fun x hx => ?_⟩
  · have hclock : B.clock (r.setPc i th pc).backend = B.clock s.backend := congrArg B.clock hb
    rw [hclock]
    rcases mem_setPc hr hx with rfl | hold
    · exact hi.called th (List.mem_of_getElem? hth)
    · exact hi.called x hold
  · have hsome : s.lastRefresh = some u := hlast ▸ hu
    obtain ⟨hle, hknown⟩ := hi.stored u hsome
    have hknown' := hknown.step (a := a) hupd
    have hservers' : (r.setPc i th pc).servers = s.servers := hservers
    have hb' : (r.setPc i th pc).backend = s.backend := hb
    rw [hservers', hb']
    exact ⟨hle, hknown'⟩
  · rcases mem_setPc hr hx with rfl | hold
    · exact hknows.step hlast hservers hupd
    · exact (hi.threads x hold).step hlast hservers hupd

/-- A critical section of a writer. -/
lemma CacheInv.of_write {r : CacheState β} {i : Nat} {th : CacheThread} {pc : CachePc}
    (hs : CacheSafe s) (hi : CacheInv B s₀ as s delay) (hr : r.threads = s.threads)
    (hb : r.backend = s.backend) (hth : s.threads[i]? = some th) (hfree : s.mu = .free)
    (hlast : ∀ u, s.lastRefresh = some u → ∃ v, r.lastRefresh = some v ∧ u ≤ v)
    (hstored : ∀ u, r.lastRefresh = some u → u ≤ B.clock s.backend ∧
      KnownSince B s₀ (as ++ [a]) (r.setPc i th pc) (u - delay) r.servers)
    (hknows : ThreadKnows B s₀ (as ++ [a]) (r.setPc i th pc) delay { th with pc := pc }) :
    CacheInv B s₀ (as ++ [a]) (r.setPc i th pc) delay := by
  have hupd := updated_setPc pc hr hth
  have hb' : (r.setPc i th pc).backend = s.backend := hb
  refine ⟨fun x hx => ?_, fun u hu => ?_, fun x hx => ?_⟩
  · rw [hb']
    rcases mem_setPc hr hx with rfl | hold
    · exact hi.called th (List.mem_of_getElem? hth)
    · exact hi.called x hold
  · rw [hb']
    exact hstored u hu
  · rcases mem_setPc hr hx with rfl | hold
    · exact hknows
    · exact (hi.threads x hold).write (hs.no_reader hfree x hold) hlast hupd

lemma cacheInv_step (hclock : ∀ b x b', B.step b x = some b' → B.clock b ≤ B.clock b')
    (hrun : exec (cacheStep B) s₀ as = some s) (hs : CacheSafe s) (hi : CacheInv B s₀ as s delay)
    (hok : StoreTimely B delay s a) (h : cacheStep B s a = some t) :
    CacheInv B s₀ (as ++ [a]) t delay := by
  cases cacheStep_move h with
  | @backend x b hb =>
    have hle := hclock _ _ _ hb
    refine ⟨fun th hth => (hi.called th hth).trans hle, fun u hu => ?_, fun th hth => ?_⟩
    · obtain ⟨hu', hknown⟩ := hi.stored u hu
      exact ⟨hu'.trans hle, hknown.step fun _ h => h⟩
    · exact (hi.threads th hth).step rfl rfl fun _ h => h
  | @call c =>
    have hupd : ∀ l, Updated s l →
        Updated { s with threads := s.threads ++ [⟨c, B.clock s.backend, .start⟩] } l := by
      rintro l ⟨th, hth, hcall⟩
      exact ⟨th, List.mem_append_left _ hth, hcall⟩
    refine ⟨fun th hth => ?_, fun u hu => ?_, fun th hth => ?_⟩
    · rcases List.mem_append.mp hth with hold | hnew
      · exact hi.called th hold
      · rw [List.mem_singleton.mp hnew]
    · exact ⟨(hi.stored u hu).1, (hi.stored u hu).2.step hupd⟩
    · rcases List.mem_append.mp hth with hold | hnew
      · exact (hi.threads th hold).step rfl rfl hupd
      · rw [List.mem_singleton.mp hnew]
        trivial
  | quiet hth hpc => exact hi.of_setPc rfl rfl rfl rfl hth (hpc.knows hrun hs hi hth)
  | @acquire _ i th pc mu hth _ hpc =>
    refine hi.of_setPc rfl rfl rfl rfl hth ?_
    rcases hpc with ⟨-, rfl⟩ | ⟨hold, rfl⟩
    · trivial
    · have hknows := hi.threads th (List.mem_of_getElem? hth)
      unfold ThreadKnows at hknows
      rw [hold] at hknows
      obtain ⟨u, hu, hle⟩ := hknows
      exact .inr ⟨u, hu, by unfold refreshInterval; dsimp only; omega⟩
  | @release _ i th pc hth hpc =>
    refine hi.of_setPc rfl rfl rfl rfl hth ?_
    rcases hpc with ⟨-, rfl⟩ | ⟨result, hold, rfl⟩
    · trivial
    · have hknows := hi.threads th (List.mem_of_getElem? hth)
      unfold ThreadKnows at hknows
      rw [hold] at hknows
      exact hknows
  | @update _ i th servers hth _ hcall hfree =>
    refine CacheInv.of_write hs hi rfl rfl hth hfree (fun u hu => ⟨u, hu, le_rfl⟩) (fun u hu => ?_)
      trivial
    have hmem := List.mem_set (List.getElem?_eq_some_iff.mp hth).1 { th with pc := .finished .done }
    exact ⟨(hi.stored u hu).1, .inl ⟨_, hmem, hcall⟩⟩
  | @store i th servers answeredAt pc hth hpc hfree hnext =>
    have hmem := List.mem_of_getElem? hth
    have hknows := hi.threads th hmem
    unfold ThreadKnows at hknows
    rw [hpc] at hknows
    have hdelay : B.clock s.backend - answeredAt ≤ delay :=
      hok th hth answeredAt (by rw [hpc]; exact rfl)
    refine CacheInv.of_write hs hi rfl rfl hth hfree (fun u hu => ?_) (fun u hu => ?_) ?_
    · exact ⟨_, rfl, (hi.stored u hu).1⟩
    · cases hu
      have hanswered : Answered B s₀ as (B.clock s.backend - delay) servers :=
        Answered.mono hknows (by omega)
      exact ⟨le_rfl, .inr (Past.append hanswered [_])⟩
    · rcases hnext with rfl | rfl
      · trivial
      · exact ⟨_, rfl, hi.called th hmem⟩
  | panic hth hpc hn hk =>
    have halive := (cacheSafe_step hs h).alive
    cases halive

end Run

/-- Goroutines call `Get`, `GetAll`, `Refresh` and `Update` in any order and interleaving: no index
is out of range, a length that was read is the length of the list, and no step writes the list while
a goroutine holds the read lock. -/
theorem discovery_reads_in_range (B : Backend β α ω) (b : β) (as : List (CacheAction α ω))
    (s : CacheState β) (h : exec (cacheStep B) (.init b) as = some s) :
    s.panicked = false ∧
      (∀ th ∈ s.threads, ∀ n, th.pc = .choosing n → n = s.servers.length) ∧
      ∀ a t, cacheStep B s a = some t → ∀ th ∈ s.threads, CachePc.reads th.pc = true →
        t.servers = s.servers := by
  have hs := exec_invariant CacheSafe (fun _ _ _ hs ht => cacheSafe_step hs ht) (cacheSafe_init b) h
  exact ⟨hs.alive, hs.sized, fun a t ht th hmem hreads => hs.servers_eq ht hmem hreads⟩

/-- A registry that always names the same two servers. -/
def twoServers : Backend Int Nat Unit :=
  ⟨fun now d => some (now + d), id, fun _ _ => .ok [str "a", str "b"]⟩

/-- Two goroutines refresh at the same time, and both of them read the position before the other
writes it; another lists the servers a minute later. -/
def concurrentGets : List (CacheAction Nat Unit) :=
  [.call (.Get .RoundRobinSelect 0), .call (.Get .RoundRobinSelect 0), .run 0, .run 1, .run 0, .run 1,
    .query 0 (some ()) [], .backend 3, .query 1 (some ()) [], .run 0, .backend 2, .run 1, .run 0,
    .run 1, .run 0, .run 0, .run 1, .run 1, .run 0, .run 1, .run 0, .run 1, .run 0, .run 1,
    .backend 60000000000, .call .GetAll, .run 2, .run 2, .run 2, .run 2, .run 2]

theorem discovery_reads_in_range_concurrentGets : ∃ s,
    exec (cacheStep twoServers) (.init 0) concurrentGets = some s ∧ s.panicked = false := by
  have hrun : ∃ s ∈ exec (cacheStep twoServers) (.init 0) concurrentGets, s.servers.length = 2 := by
    decide +kernel
  obtain ⟨s, hs, -⟩ := hrun
  exact ⟨s, hs, (discovery_reads_in_range twoServers 0 concurrentGets s hs).1⟩

lemma discovery_staleness (B : Backend β α ω)
    (hclock : ∀ b x b', B.step b x = some b' → B.clock b ≤ B.clock b') (delay : Int) (b : β)
    (as : List (CacheAction α ω)) (s : CacheState β)
    (h : exec (cacheStep B) (.init b) as = some s)
    (hg : Guarded (cacheStep B) (StoreTimely B delay) (.init b) as) (th : CacheThread)
    (hth : th ∈ s.threads) (result : CacheResult) (hres : th.pc = .finished result) :
    ResultKnown B (.init b) as s (th.calledAt - refreshInterval - delay) result := by
  have hinv : CacheSafe s ∧ CacheInv B (.init b) as s delay := by
    refine exec_history (fun as s => CacheSafe s ∧ CacheInv B (.init b) as s delay) ?_ ?_ hg h
    · refine ⟨cacheSafe_init b, fun th hth => ?_, fun t ht => ?_, fun th hth => ?_⟩
      · cases hth
      · cases ht
      · cases hth
    · intro as s a t hrun hs hok ht
      exact ⟨cacheSafe_step hs.1 ht, cacheInv_step hclock hrun hs.1 hs.2 hok ht⟩
  have hknows := hinv.2.threads th hth
  unfold ThreadKnows at hknows
  rw [hres] at hknows
  exact hknows

/-- In every run in which answers are stored within `delay`, what `Get` and `GetAll` return was
given to `Update`, or answered by the registry at most `refreshInterval + delay` before the call. -/
theorem discovery_bounded_staleness (B : Backend β α ω)
    (hclock : ∀ b x b', B.step b x = some b' → B.clock b ≤ B.clock b') (delay : Int) (b : β)
    (as : List (CacheAction α ω)) (s : CacheState β)
    (h : exec (cacheStep B) (.init b) as = some s)
    (hg : Guarded (cacheStep B) (StoreTimely B delay) (.init b) as) (th : CacheThread)
    (hth : th ∈ s.threads) :
    (∀ addr, th.pc = .finished (.addr addr) → ∃ servers, addr ∈ servers ∧
      (Updated s servers ∨
        Answered B (.init b) as (th.calledAt - refreshInterval - delay) servers)) ∧
    (∀ servers, th.pc = .finished (.addrs servers) → Updated s servers ∨
      Answered B (.init b) as (th.calledAt - refreshInterval - delay) servers) :=
  ⟨fun _ hres => discovery_staleness B hclock delay b as s h hg th hth _ hres,
    fun _ hres => discovery_staleness B hclock delay b as s h hg th hth _ hres⟩

theorem discovery_bounded_staleness_concurrentGets : ∃ s,
    exec (cacheStep twoServers) (.init 0) concurrentGets = some s ∧ ∃ th ∈ s.threads,
      th.pc = .finished (.addrs [str "a", str "b"]) ∧ (Updated s [str "a", str "b"] ∨
        Answered twoServers (.init 0) concurrentGets (th.calledAt - refreshInterval - 5)
          [str "a", str "b"]) := by
  have hrun : ∃ s ∈ exec (cacheStep twoServers) (.init 0) concurrentGets, ∃ th ∈ s.threads,
      th.pc = .finished (.addrs [str "a", str "b"]) := by
    decide +kernel
  obtain ⟨s, hs, th, hth, hres⟩ := hrun
  have hclock : ∀ b x b', twoServers.step b x = some b' → twoServers.clock b ≤ twoServers.clock b' := by
    intro b x b' hb
    cases hb
    change b ≤ b + x
    omega
  exact ⟨s, hs, th, hth, hres, (discovery_bounded_staleness twoServers hclock 5 0 concurrentGets s hs
    (by decide +kernel) th hth).2 _ hres⟩

end Zrpc.Proofs
