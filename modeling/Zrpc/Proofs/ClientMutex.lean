import Zrpc.Proofs.ClientUsable

/-!
# The map of pools under `c.mu`

`Client.Close` and `UpdateServers` hold `c.mu` while they close pools, so no pool is made in the
meantime. A pool that is not closed is in the map, and `Client.Close` does not return before it has
closed every pool of the map.
-/

namespace Zrpc

variable {V T : Type}

def CloserPc.holdsMu : CloserPc → Bool
  | .start | .done => false
  | _ => true

/-- The goroutine holds `c.mu` across its steps. -/
def Thread.holdsMu : Thread T → Bool
  | .closer _ pc => pc.holdsMu
  | _ => false

/-- The targets whose pools are still to be closed. -/
def CloserPc.targets : CloserPc → List GoString
  | .pools todo => todo
  | .pool target _ _ todo | .remove target todo => target :: todo
  | .start | .done => []

/-- Operations that leave the map of pools as it is. -/
def ClientOp.keepsPools : ClientOp → Bool
  | .newPool _ _ | .removePool _ => false
  | _ => true

namespace Proofs

open Zrpc.Lib

def OpenPool (s : ClientShared) (p : Nat) : Prop := ∃ q, s.connPools[p]? = some q ∧ q.closed = false

def holders (threads : List (Thread T)) : Nat :=
  tally (fun _ th => (Thread.holdsMu th).toNat) threads

/-- How far `Client.Close` or `UpdateServers` has come. -/
structure CloserOk (s : ClientShared) (kind : CloserKind) (pc : CloserPc) : Prop where
  closing : kind = .close → pc ≠ .start → s.closing = true
  current : ∀ target p g todo, pc = .pool target p g todo → s.pools.lookup target = some p
  removing : ∀ target todo p, pc = .remove target todo → s.pools.lookup target = some p →
    ¬ OpenPool s p
  remaining : kind = .close → pc.holdsMu = true → ∀ target p, s.pools.lookup target = some p →
    OpenPool s p → target ∈ pc.targets

structure Locked (s : ClientState T) : Prop where
  mutex : holders s.threads = s.shared.muHeld.toNat
  mapped : ∀ p, OpenPool s.shared p → ∃ target, s.shared.pools.lookup target = some p
  closers : ∀ kind pc, Thread.closer kind pc ∈ s.threads → CloserOk s.shared kind pc

/-! ### Operations and steps -/

section Steps

variable {cfg : ClientConfig V T} {s : ClientShared} {op : ClientOp} {p id : Nat} {inp : Input}
  {kind : CloserKind} {pc pc' : CloserPc}

lemma openPool_of_apply (hop : ∀ target size, op ≠ .newPool target size)
    (h : OpenPool (s.apply op) p) : OpenPool s p := by
  obtain ⟨q', hq', hopen⟩ := h
  cases hq : s.connPools[p]? with
  | none =>
    obtain ⟨target, size, he, _⟩ := pool_new hq hq'
    exact absurd he (hop target size)
  | some q =>
    refine ⟨q, hq, ?_⟩
    by_contra hclosed
    obtain ⟨q₁, hq₁, hc⟩ := closed_mono op hq (Bool.eq_true_of_not_eq_false hclosed)
    cases hq'.symm.trans hq₁
    rw [hopen] at hc
    cases hc

lemma pools_apply (h : op.keepsPools = true) : (s.apply op).pools = s.pools := by
  cases op <;> first | rfl | cases h

lemma ne_newPool_of_keepsPools (h : op.keepsPools = true) :
    ∀ target size, op ≠ .newPool target size := by
  rintro target size rfl
  cases h

lemma closing_apply (h : s.closing = true) : (s.apply op).closing = true := by
  cases op with
  | lock closing => simp [ClientShared.apply, h]
  | _ => exact h

lemma threadStep_newPool {th th' : Thread T} {target : GoString} {size : Nat}
    (h : threadStep cfg s id th inp = some (.newPool target size, th')) :
    s.muHeld = false ∧ s.pools.lookup target = none ∧ th.inserts = some target := by
  cases threadStep_source h with
  | own _ _ hins => exact hins target size rfl
  | get hop _ _ | put hop _ _ | health hop _ _ | prewarm hop _ | closer hop _ => cases hop

lemma closer_of_removePool {th th' : Thread T} {target : GoString}
    (h : threadStep cfg s id th inp = some (.removePool target, th')) :
    ∃ kind todo, th = .closer kind (.remove target todo) := by
  obtain ⟨kind, pc, pc', rfl, rfl, hr⟩ := closer_of_isCloser h rfl
  cases closerStep_move hr with
  | other hl =>
    cases hl with
    | @remove _ todo hpc => exact ⟨kind, todo, by rw [hpc]⟩
  | inside _ hc | leave _ hc _ => cases closeStep_move hc

lemma closerOk_apply (h : CloserOk s kind pc) (hop : op.keepsPools = true ∨ pc.holdsMu = false) :
    CloserOk (s.apply op) kind pc := by
  refine ⟨fun hk hpc => closing_apply (h.closing hk hpc), ?_, ?_, ?_⟩
  · rintro target p g todo rfl
    rcases hop with hop | hop
    · rw [pools_apply hop]
      exact h.current target p g todo rfl
    · cases hop
  · rintro target todo p rfl hl hopen
    rcases hop with hop | hop
    · rw [pools_apply hop] at hl
      exact h.removing target todo p rfl hl
        (openPool_of_apply (ne_newPool_of_keepsPools hop) hopen)
    · cases hop
  · intro hk hmu target p hl hopen
    rcases hop with hop | hop
    · rw [pools_apply hop] at hl
      exact h.remaining hk hmu target p hl (openPool_of_apply (ne_newPool_of_keepsPools hop) hopen)
    · rw [hop] at hmu
      cases hmu

/-- When `connPool.Close` returns, the pool is closed. -/
lemma not_openPool_of_leave {g : ClosePc} (h : closeStep s p g = some (op, none))
    (hg : g ≠ .start → ¬ OpenPool s p) : ¬ OpenPool (s.apply op) p := by
  cases closeStep_move h with
  | already hq hclosed _ =>
    rintro ⟨q', hq', hopen⟩
    cases hq.symm.trans hq'
    rw [hopen] at hclosed
    cases hclosed
  | reset hpc =>
    exact fun ho => hg (by simp [hpc]) (openPool_of_apply (ne_newPool_of_keepsPools rfl) ho)

lemma closeStep_keepsPools {g : ClosePc} {out : Option ClosePc}
    (h : closeStep s p g = some (op, out)) : op.keepsPools = true := by
  cases closeStep_move h <;> rfl

lemma CloserOk.closing_of_holdsMu (hok : CloserOk s kind pc) (hk : kind = .close)
    (hmu : pc.holdsMu = true) : s.closing = true := by
  refine hok.closing hk ?_
  rintro rfl
  cases hmu

lemma closerOk_done (hclosing : kind = .close → s.closing = true) : CloserOk s kind .done :=
  ⟨fun hk _ => hclosing hk, by simp, by simp, fun _ hmu => by cases hmu⟩

lemma closerOk_pools {todo : List GoString} (hclosing : kind = .close → s.closing = true)
    (hremaining : kind = .close → ∀ target p, s.pools.lookup target = some p → OpenPool s p →
      target ∈ todo) : CloserOk s kind (.pools todo) :=
  ⟨fun hk _ => hclosing hk, by simp, by simp, fun hk _ => hremaining hk⟩

lemma lockMove_closerOk (hok : CloserOk s kind pc) (h : LockMove s kind pc op pc') :
    CloserOk (s.apply op) kind pc' := by
  cases h with
  | refused _ _ hclosing => exact closerOk_done fun _ => hclosing
  | lock hpc _ hperm =>
    refine closerOk_pools ?_ ?_
    · rintro rfl
      simp [ClientShared.apply, CloserKind.isClose]
    · rintro rfl target p hl _
      have hmem : target ∈ s.pools := AList.lookup_isSome.mp (Option.isSome_of_eq_some hl)
      exact hperm.mem_iff.mpr hmem
  | finish hpc =>
    subst hpc
    exact closerOk_done fun hk => hok.closing_of_holdsMu hk rfl
  | next hpc hl =>
    subst hpc
    refine ⟨fun hk _ => hok.closing_of_holdsMu hk rfl, ?_, by simp, ?_⟩
    · rintro _ _ _ _ ⟨⟩
      exact hl
    · exact fun hk _ => hok.remaining hk rfl
  | @skip target todo hpc hl =>
    subst hpc
    refine closerOk_pools (fun hk => hok.closing_of_holdsMu hk rfl) ?_
    intro hk target' p hl' hopen
    rcases List.mem_cons.mp (hok.remaining hk rfl target' p hl' hopen) with rfl | hmem
    · cases hl.symm.trans hl'
    · exact hmem
  | @remove target todo hpc =>
    subst hpc
    refine closerOk_pools (fun hk => hok.closing_of_holdsMu hk rfl) ?_
    intro hk target' p hl' hopen
    have hne : target' ≠ target := by
      rintro rfl
      rw [show (s.apply (.removePool target')).pools.lookup target' = none from
        AList.lookup_erase target' s.pools] at hl'
      cases hl'
    have hold : s.pools.lookup target' = some p := (AList.lookup_erase_ne hne).symm.trans hl'
    rcases List.mem_cons.mp (hok.remaining hk rfl target' p hold hopen) with he | hmem
    · exact absurd he hne
    · exact hmem

lemma closerStep_closerOk (hok : CloserOk s kind pc)
    (hclosed : ∀ target p g todo, pc = .pool target p g todo → g ≠ .start → ¬ OpenPool s p)
    (h : closerStep s kind pc inp = some (op, pc')) : CloserOk (s.apply op) kind pc' := by
  cases closerStep_move h with
  | other hl => exact lockMove_closerOk hok hl
  | @inside target p g todo _ g' hpc hc =>
    subst hpc
    have happ := closerOk_apply hok (.inl (closeStep_keepsPools hc))
    refine ⟨fun hk _ => happ.closing_of_holdsMu hk rfl, ?_, by simp,
      fun hk _ => happ.remaining hk rfl⟩
    rintro _ _ _ _ ⟨⟩
    exact happ.current target p g todo rfl
  | @leave target p g todo _ _ hpc hc hpc' =>
    subst hpc
    have happ := closerOk_apply hok (.inl (closeStep_keepsPools hc))
    have hshut := not_openPool_of_leave hc (hclosed target p g todo rfl)
    have hcur := happ.current target p g todo rfl
    rcases hpc' with ⟨rfl, _⟩ | rfl
    · refine closerOk_pools (fun hk => happ.closing_of_holdsMu hk rfl) ?_
      intro hk target' p' hl hopen
      rcases List.mem_cons.mp (happ.remaining hk rfl target' p' hl hopen) with rfl | hmem
      · cases hcur.symm.trans hl
        exact absurd hopen hshut
      · exact hmem
    · refine ⟨fun hk _ => happ.closing_of_holdsMu hk rfl, by simp, ?_,
        fun hk _ => happ.remaining hk rfl⟩
      rintro _ _ p' ⟨⟩ hl
      cases hcur.symm.trans hl
      exact hshut

end Steps

/-! ### Whole runs -/

section Runs

variable {cfg : ClientConfig V T} {s : ClientState T} {i : Nat} {inp : Input} {th th' : Thread T}
  {op : ClientOp}

lemma muHeld_of_holder (hs : Locked s) (hi : s.threads[i]? = some th) (hth : th.holdsMu = true) :
    s.shared.muHeld = true := by
  have hle := le_tally (f := fun _ th => (Thread.holdsMu th).toNat) hi
  have hmu := hs.mutex
  unfold holders at hmu
  rw [hth] at hle
  cases hheld : s.shared.muHeld with
  | true => rfl
  | false =>
    rw [hheld] at hmu
    simp at hle hmu
    omega

lemma holder_unique (hs : Locked s) {j : Nat} {x : Thread T} (hi : s.threads[i]? = some th)
    (hth : th.holdsMu = true) (hj : s.threads[j]? = some x) (hx : x.holdsMu = true) : i = j := by
  by_contra hne
  have hle := add_le_tally (f := fun _ th => (Thread.holdsMu th).toNat) hi hj hne
  have hmu := hs.mutex
  unfold holders at hmu
  rw [hth, hx] at hle
  cases hheld : s.shared.muHeld <;> rw [hheld] at hmu <;> simp at hle hmu <;> omega

/-- `lock` and `unlock` are the steps in which a goroutine begins and ceases to hold `c.mu`. -/
lemma muHeld_run (hs : Locked s) (hi : s.threads[i]? = some th)
    (h : threadStep cfg s.shared i th inp = some (op, th')) :
    (s.shared.apply op).muHeld.toNat + th.holdsMu.toNat =
      s.shared.muHeld.toNat + th'.holdsMu.toNat := by
  have hother : (∀ kind pc, th ≠ .closer kind pc) →
      (s.shared.apply op).muHeld = s.shared.muHeld := by
    intro hth
    have hop : op.isCloser = false := by
      by_contra hne
      obtain ⟨kind, pc, _, he, _⟩ := closer_of_isCloser h (Bool.eq_true_of_not_eq_false hne)
      exact hth kind pc he
    cases op <;> first | rfl | cases hop
  cases threadStep_move h with
  | invoke _ | heartbeat _ | prewarm _ =>
    rw [hother (by simp)]
    rfl
  | closer hr =>
    cases closerStep_move hr with
    | other hl =>
      cases hl with
      | lock hpc hmu _ =>
        subst hpc
        rw [hmu]
        rfl
      | finish hpc =>
        subst hpc
        rw [muHeld_of_holder hs hi rfl]
        rfl
      | refused hpc _ _ | next hpc _ | skip hpc _ | remove hpc =>
        subst hpc
        rfl
    | inside hpc hc =>
      subst hpc
      cases closeStep_move hc <;> rfl
    | leave hpc hc hpc' =>
      subst hpc
      rcases hpc' with ⟨rfl, _⟩ | rfl <;> cases closeStep_move hc <;> rfl

lemma mutex_run (hs : Locked s) (hi : s.threads[i]? = some th)
    (h : threadStep cfg s.shared i th inp = some (op, th')) :
    holders (s.threads.set i th' ++ spawned s.shared op) = (s.shared.apply op).muHeld.toNat := by
  have hset := tally_run (fun th => (Thread.holdsMu th).toNat) hi th' op (by cases op <;> rfl)
  have hmu := muHeld_run hs hi h
  have hmutex := hs.mutex
  unfold holders at *
  omega

lemma mapped_run (hs : Locked s) (hi : s.threads[i]? = some th)
    (h : threadStep cfg s.shared i th inp = some (op, th')) {p : Nat}
    (hopen : OpenPool (s.shared.apply op) p) :
    ∃ target, (s.shared.apply op).pools.lookup target = some p := by
  by_cases hkeep : op.keepsPools = true
  · obtain ⟨target, hl⟩ := hs.mapped p (openPool_of_apply (ne_newPool_of_keepsPools hkeep) hopen)
    exact ⟨target, by rw [pools_apply hkeep, hl]⟩
  · cases op with
    | newPool target size =>
      obtain ⟨_, hnone, _⟩ := threadStep_newPool h
      obtain ⟨q, hq, hclosed⟩ := hopen
      cases hold : s.shared.connPools[p]? with
      | none =>
        obtain ⟨_, _, _, _, rfl⟩ := pool_new hold hq
        exact ⟨target, AList.lookup_insert s.shared.pools⟩
      | some q₀ =>
        obtain ⟨q₁, hq₁, hm⟩ := pool_move (.newPool target size) hold
        cases hq₁.symm.trans hq
        have hopen₀ : OpenPool s.shared p := by
          cases hm with
          | same he => exact ⟨q₀, hold, he ▸ hclosed⟩
          | queues he | counter he =>
            rw [he] at hclosed
            exact ⟨q₀, hold, hclosed⟩
          | create hop _ | count hop _ | add hop _ | closePool hop _ | closeHot hop _ => cases hop
        obtain ⟨target', hl⟩ := hs.mapped p hopen₀
        have hne : target' ≠ target := by
          rintro rfl
          cases hnone.symm.trans hl
        exact ⟨target', (AList.lookup_insert_ne hne).trans hl⟩
    | removePool target =>
      obtain ⟨kind, todo, rfl⟩ := closer_of_removePool h
      obtain ⟨target', hl⟩ := hs.mapped p hopen
      have hne : target' ≠ target := by
        rintro rfl
        exact (hs.closers kind _ (List.mem_of_getElem? hi)).removing target' todo p rfl hl hopen
      exact ⟨target', (AList.lookup_erase_ne hne).trans hl⟩
    | _ => exact absurd rfl hkeep

lemma closerOk_run (hsound : Sound s) (hs : Locked s) (hi : s.threads[i]? = some th)
    (h : threadStep cfg s.shared i th inp = some (op, th')) {kind : CloserKind} {pc : CloserPc}
    (hcl : Thread.closer kind pc ∈ s.threads.set i th' ++ spawned s.shared op) :
    CloserOk (s.shared.apply op) kind pc := by
  obtain ⟨j, hj⟩ := List.getElem?_of_mem hcl
  rcases thread_of_run hj with ⟨rfl, rfl⟩ | ⟨hne, hold⟩ | hsp
  · cases threadStep_move h with
    | closer hr =>
      have hmem := List.mem_of_getElem? hi
      refine closerStep_closerOk (hs.closers kind _ hmem) ?_ hr
      rintro target p g todo rfl hg ⟨q, hq, hopen⟩
      rcases hsound.closers kind target p g todo hmem with hstart | ⟨q', hq', hclosed⟩
      · exact hg hstart
      · cases hq.symm.trans hq'
        rw [hopen] at hclosed
        cases hclosed
  · refine closerOk_apply (hs.closers kind pc (List.mem_of_getElem? hold)) ?_
    by_contra hboth
    rw [not_or, Bool.not_eq_false] at hboth
    obtain ⟨hkeep, hmu⟩ := hboth
    -- the map changes only under `c.mu`, which this closer holds
    cases op with
    | newPool target size =>
      have hfree := (threadStep_newPool h).1
      rw [muHeld_of_holder hs hold hmu] at hfree
      cases hfree
    | removePool target =>
      obtain ⟨kind', todo, rfl⟩ := closer_of_removePool h
      exact hne (holder_unique hs hold hmu hi rfl)
    | _ => exact hkeep rfl
  · cases op <;> simp [spawned] at hsp

lemma locked_step {t : ClientState T} {a : ClientAction T} (hsound : Sound s) (hs : Locked s)
    (h : clientStep cfg s a = some t) : Locked t := by
  cases clientStep_move h with
  | run hi hstep =>
    exact ⟨mutex_run hs hi hstep, fun _ hopen => mapped_run hs hi hstep hopen,
      fun _ _ hcl => closerOk_run hsound hs hi hstep hcl⟩
  | answer _ _ =>
    exact ⟨hs.mutex, hs.mapped, fun kind pc hcl =>
      have hok := hs.closers kind pc hcl
      ⟨hok.closing, hok.current, hok.removing, hok.remaining⟩⟩
  | start a =>
    refine ⟨?_, hs.mapped, ?_⟩
    · have hnew : tally (fun _ th => (Thread.holdsMu th).toNat) (newThread a) = 0 := by
        cases a <;> rfl
      have hmutex := hs.mutex
      unfold holders at *
      rw [tally_append, hnew]
      exact hmutex
    · intro kind pc hcl
      rcases List.mem_append.mp hcl with hold | hnew
      · exact hs.closers kind pc hold
      · have hstart : pc = .start := by
          cases a <;> simp [newThread] at hnew <;> exact hnew.2
        subst hstart
        exact ⟨fun _ hne => absurd rfl hne, by simp, by simp, fun _ hmu => by cases hmu⟩

lemma locked_init : Locked (.init : ClientState T) := by
  refine ⟨rfl, ?_, ?_⟩
  · rintro p ⟨q, hq, _⟩
    cases hq
  · intro kind pc hcl
    cases hcl

end Runs
end Proofs
end Zrpc
