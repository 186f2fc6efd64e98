import Mathlib.Data.Prod.Lex
import Zrpc.Lib.Reach
import Zrpc.Proofs.ClientEnabled
import Zrpc.Proofs.ClientStats
import Zrpc.Proofs.ClientTermination

/-!
# A client can come to rest

From every reachable state the goroutines of a client can all return, for some outcomes of what they
ask of the network, unless one of them sends on a hot queue that `connPool.Close` has closed. First
whoever holds the `p.mu` of a pool lets go of it. Then `Client.Close` and `UpdateServers` finish, one
after the other, each of them alone once it holds `c.mu`; then the steps of the others can only go on
for so long.
-/

namespace Zrpc

variable {V T : Type}

/-! ### Ranks -/

/-- How many steps `connPool.Close` has still to take at most if it runs alone. -/
def ClosePc.rank (q : ConnPool) : ClosePc → Nat
  | .start => (q.conns ++ q.coldQueue).length + 2 * q.hotQueue.length + 6
  | .closing conns => conns.length + 2 * q.hotQueue.length + 5
  | .closeHot | .drained _ => 2 * q.hotQueue.length + 4
  | .drain => 2 * q.hotQueue.length + 3
  | .reset => 1

/-- What `Client.Close` or `UpdateServers` has still to do: the pools, and the steps on the current
one. -/
def CloserPc.rank (s : ClientShared) : CloserPc → Nat ×ₗ Nat
  | .start | .done => toLex (0, 0)
  | .pools todo => toLex (2 * todo.length + 1, 0)
  | .pool _ p pc todo => toLex (2 * todo.length + 2, 1 + (s.connPools[p]?).elim 0 pc.rank)
  | .remove _ todo => toLex (2 * todo.length + 2, 0)

def HeartbeatPc.rank : HeartbeatPc → Nat
  | .done => 0
  | .put _ pc => pc.rank
  | .closeConn _ _ => 5
  | .unregister _ _ _ => 6
  | .write _ _ _ => 7
  | .number _ _ => 8
  | .send _ _ => 9
  | .health _ _ => 10
  | .get _ pc => 10 + pc.rank
  | .insert _ => 57
  | .lookup _ => 58
  | .discover => 59

def PrewarmPc.rank : PrewarmPc → Nat
  | .check left => 3 * left + 1
  | .dial left => 3 * left + 3
  | .add left _ => 3 * left + 2
  | .done => 0

def ClientConfig.prewarmRank (cfg : ClientConfig V T) : Nat :=
  (PrewarmPc.check (prewarmCount cfg.maxPoolSize)).rank

/-- The rank of a goroutine, with room for the `prewarmConnections` that one of its steps may
start. -/
def Thread.rank (cfg : ClientConfig V T) : Thread T → Nat
  | .invoke t => (cfg.prewarmRank + 1) * t.rank cfg.maxRetries
  | .heartbeat pc => (cfg.prewarmRank + 1) * pc.rank
  | .prewarm _ pc => pc.rank
  | .closer _ _ => 0

/-- The goroutine holds the `p.mu` of a pool across its steps. -/
def Thread.holdsPool (th : Thread T) : Bool := th.inGet.any (fun x => x.2.adding)

/-- A `Client.Close` or `UpdateServers` that has not returned. -/
def Thread.isClosing : Thread T → Bool
  | .closer _ .done => false
  | .closer _ _ => true
  | _ => false

def ClientAction.isRun : ClientAction T → Bool
  | .run _ _ => true
  | _ => false

namespace Proofs

open Zrpc.Lib

section Steps

variable {cfg : ClientConfig V T} {s : ClientShared} {p id : Nat} {inp : Input} {op : ClientOp}

lemma heartbeatStep_rank {pc pc' : HeartbeatPc}
    (h : heartbeatStep cfg s id pc inp = some (op, pc')) : pc'.rank < pc.rank := by
  cases heartbeatStep_turn h with
  | discovered | undiscovered | found | missing | insert | send | unnumbered | number | write
  | unwritten | unregister | closeConn => simp [HeartbeatPc.rank, GetPc.rank, PutPc.rank]
  | @get _ g _ out hg =>
    have hpos := getPc_rank_pos g
    cases out with
    | next g' =>
      have hlt := getStep_rank hg
      simp only [HeartbeatPc.afterGet, HeartbeatPc.rank]
      omega
    | got c =>
      simp only [HeartbeatPc.afterGet, HeartbeatPc.rank]
      omega
    | failed err =>
      simp only [HeartbeatPc.afterGet, HeartbeatPc.rank]
      omega
  | @health _ _ _ _ _ healthy => cases healthy <;> simp [HeartbeatPc.rank]
  | @put _ g _ out hp =>
    cases out with
    | some g' => exact putStep_rank hp
    | none => exact putPc_rank_pos g

lemma prewarmStep_rank {pc pc' : PrewarmPc} (h : prewarmStep s p pc inp = some (op, pc')) :
    pc'.rank < pc.rank := by
  unfold prewarmStep at h
  split at h
  · cases h
  · split at h
    · cases h
      simp [PrewarmPc.rank]
    · cases h
      split <;> simp only [PrewarmPc.rank] <;> omega
    · split at h <;> cases h <;> simp [PrewarmPc.rank]
    · split at h <;> cases h
      simp [PrewarmPc.rank]
    · cases h

/-- The pools that a client makes have the size of its options. -/
lemma newPool_size {th th' : Thread T} {target : GoString} {size : Nat}
    (h : threadStep cfg s id th inp = some (.newPool target size, th')) :
    size = cfg.maxPoolSize := by
  have hsize : ∀ {target' : GoString} {p : Nat},
      insertPool cfg s target' = some (.newPool target size, p) → size = cfg.maxPoolSize := by
    intro target' p hp
    unfold insertPool at hp
    split at hp
    · cases hp
    · split at hp <;> cases hp
      rfl
  obtain ⟨-, -, hins⟩ := threadStep_newPool h
  cases threadStep_move h with
  | @invoke t _ _ hr =>
    obtain ⟨valid, replyType, retry, lastErr, cells, pc⟩ := t
    cases pc <;> cases hins
    cases invokeStep_turn hr with
    | insert hp => exact hsize hp
  | @heartbeat pc _ _ hr =>
    cases pc <;> cases hins
    cases heartbeatStep_turn hr with
    | insert hp => exact hsize hp
  | prewarm _ => cases hins
  | closer _ => cases hins

def spawnedRank (cfg : ClientConfig V T) (s : ClientShared) (op : ClientOp) : Nat :=
  tally (fun _ th => th.rank cfg) (spawned s op : List (Thread T))

lemma spawnedRank_le {th th' : Thread T} (h : threadStep cfg s id th inp = some (op, th')) :
    spawnedRank cfg s op ≤ cfg.prewarmRank := by
  cases op with
  | newPool target size =>
    rw [newPool_size h]
    simp [spawnedRank, spawned, Thread.rank, ClientConfig.prewarmRank]
  | _ => exact Nat.zero_le _

/-- A step of a goroutine other than a closing one lowers the rank of the client. -/
lemma threadStep_rank {th th' : Thread T} (h : threadStep cfg s id th inp = some (op, th'))
    (hth : th.isClosing = false) : th'.rank cfg + spawnedRank cfg s op < th.rank cfg := by
  have hsp := spawnedRank_le h
  have hmul : ∀ {a b : Nat}, a < b →
      (cfg.prewarmRank + 1) * a + spawnedRank cfg s op < (cfg.prewarmRank + 1) * b := by
    intro a b hlt
    have hle := Nat.mul_le_mul_left (cfg.prewarmRank + 1) (Nat.succ_le_of_lt hlt)
    rw [Nat.mul_succ] at hle
    omega
  cases threadStep_move h with
  | invoke hr => exact hmul (invokeStep_rank hr)
  | heartbeat hr => exact hmul (heartbeatStep_rank hr)
  | prewarm hr =>
    have hnone : spawnedRank cfg s op = 0 := by
      cases prewarmStep_move hr <;> rfl
    rw [hnone]
    exact prewarmStep_rank hr
  | @closer kind pc _ _ hr =>
    cases pc with
    | done => cases hr
    | _ => cases hth

/-! ### Closing -/

lemma closeStep_rank {q : ConnPool} {g g' : ClosePc} (hq : s.connPools[p]? = some q)
    (h : closeStep s p g = some (op, some g')) :
    ∃ q', (s.apply op).connPools[p]? = some q' ∧ g'.rank q' < g.rank q := by
  have hmod : ∀ f, (s.onPool p f).connPools[p]? = some (f q) := by
    intro f
    simp [ClientShared.onPool, hq]
  cases closeStep_move h with
  | @closePool q₀ hq₀ _ _ hpc =>
    cases hq.symm.trans hq₀
    refine ⟨_, hmod _, ?_⟩
    rw [hpc]
    simp [ClosePc.rank]
  | listEnd hpc =>
    refine ⟨q, hq, ?_⟩
    rw [hpc]
    simp [ClosePc.rank]
  | listed hpc =>
    refine ⟨q, hq, ?_⟩
    rw [hpc]
    simp [ClosePc.rank]
  | closeHot hpc =>
    refine ⟨_, hmod _, ?_⟩
    rw [hpc]
    simp [ClosePc.rank]
  | @drain q₀ c rest hq₀ hhot hpc =>
    cases hq.symm.trans hq₀
    refine ⟨_, hmod _, ?_⟩
    rw [hpc]
    simp only [ClosePc.rank, hhot, List.tail_cons, List.length_cons]
    omega
  | drainEnd _ _ hpc =>
    refine ⟨q, hq, ?_⟩
    rw [hpc]
    simp only [ClosePc.rank]
    omega
  | drained hpc =>
    refine ⟨q, hq, ?_⟩
    rw [hpc]
    simp [ClosePc.rank]

lemma pool_of_closeStep {g : ClosePc} {out : Option ClosePc} (h : closeStep s p g = some (op, out)) :
    ∃ q, s.connPools[p]? = some q := by
  unfold closeStep at h
  split at h
  · cases h
  · next q hq => exact ⟨q, hq⟩

lemma closerStep_rank {kind : CloserKind} {pc pc' : CloserPc} (hmu : pc.holdsMu = true)
    (h : closerStep s kind pc inp = some (op, pc')) : pc'.rank (s.apply op) < pc.rank s := by
  cases closerStep_move h with
  | other hl =>
    cases hl with
    | refused hpc _ _ | lock hpc _ _ =>
      rw [hpc] at hmu
      cases hmu
    | finish hpc | skip hpc _ | remove hpc =>
      rw [hpc]
      exact Prod.Lex.toLex_lt_toLex.mpr (.inl (by simp))
    | next hpc _ =>
      rw [hpc]
      refine Prod.Lex.toLex_lt_toLex.mpr (.inl ?_)
      simp only [List.length_cons]
      omega
  | @inside target p g todo _ g' hpc hc =>
    obtain ⟨q, hq⟩ := pool_of_closeStep hc
    obtain ⟨q', hq', hlt⟩ := closeStep_rank hq hc
    rw [hpc]
    refine Prod.Lex.toLex_lt_toLex.mpr (.inr ⟨rfl, ?_⟩)
    rw [hq, hq']
    simp only [Option.elim_some]
    omega
  | leave hpc _ hpc' =>
    rw [hpc]
    rcases hpc' with ⟨rfl, -⟩ | rfl
    · exact Prod.Lex.toLex_lt_toLex.mpr (.inl (by simp))
    · refine Prod.Lex.toLex_lt_toLex.mpr (.inr ⟨rfl, ?_⟩)
      dsimp only
      omega

/-- `c.mu` is held until `Client.Close` or `UpdateServers` returns. -/
lemma holdsMu_or_done {kind : CloserKind} {pc pc' : CloserPc}
    (h : closerStep s kind pc inp = some (op, pc')) : pc'.holdsMu = true ∨ pc' = .done := by
  cases closerStep_move h with
  | other hl => cases hl <;> simp [CloserPc.holdsMu]
  | inside _ _ => exact .inl rfl
  | leave _ _ hpc' => rcases hpc' with ⟨rfl, -⟩ | rfl <;> exact .inl rfl

end Steps

/-! ### Whole runs -/

structure Steady (s : ClientState T) : Prop where
  sound : Sound s
  locked : Locked s
  pools : PoolLocked s
  named : Named s
  panics : s.shared.panicked = true → ∃ q ∈ s.shared.connPools, q.hotClosed = true

section Runs

variable {cfg : ClientConfig V T} {s t : ClientState T} {i : Nat} {th : Thread T}

lemma panics_step {a : ClientAction T} (h : clientStep cfg s a = some t)
    (hpanic : t.shared.panicked = true) : ∃ q ∈ t.shared.connPools, q.hotClosed = true := by
  have hlive := not_panicked_of_step h
  cases clientStep_move h with
  | run hi hstep =>
    rcases panicked_apply hpanic with hold | rfl
    · rw [hlive] at hold
      cases hold
    · obtain ⟨p, q, -, hq, hhot⟩ := threadStep_panic hstep
      exact ⟨q, List.mem_of_getElem? hq, hhot⟩
  | answer _ _ | start _ =>
    rw [hlive] at hpanic
    cases hpanic

lemma steady_step {a : ClientAction T} (hs : Steady s) (h : clientStep cfg s a = some t) :
    Steady t :=
  ⟨sound_step hs.sound h, locked_step hs.sound hs.locked h, poolLocked_step hs.pools h,
    named_step hs.named h, panics_step h⟩

lemma steady_init : Steady (.init : ClientState T) :=
  ⟨sound_init, locked_init, poolLocked_init, named_init, fun hpanic => (by cases hpanic)⟩

lemma clientStep_of_threadStep {inp : Input} {th' : Thread T} {op : ClientOp}
    (hlive : s.shared.panicked = false) (hi : s.threads[i]? = some th)
    (h : threadStep cfg s.shared i th inp = some (op, th')) :
    clientStep cfg s (.run i inp) =
      some ⟨s.shared.apply op, s.threads.set i th' ++ spawned s.shared op⟩ := by
  simp [clientStep, hlive, hi, h]

/-- While nobody holds `c.mu` or a `p.mu`, every goroutine that has not returned can take a step. -/
lemma thread_enabled (cfg : ClientConfig V T) (hs : Steady s) (hmu : s.shared.muHeld = false)
    (hfree : PoolsFree s.shared) (hi : s.threads[i]? = some th) (hth : th.finished = false) :
    ∃ inp op th', threadStep cfg s.shared i th inp = some (op, th') := by
  have hnames := hs.named.threads th (List.mem_of_getElem? hi)
  have hconns : ∀ p c, (p, c) ∈ th.hands → ∃ k, s.shared.conns[c]? = some k :=
    fun p c hmem => conn_of_hands hs.sound.owned hi hmem
  cases th with
  | invoke t =>
    have hpc : ∀ result, t.pc ≠ .done result := by
      intro result he
      simp [Thread.finished, he] at hth
    obtain ⟨inp, op, t', h⟩ := invokeStep_enabled cfg i hmu hfree hnames hconns hpc
    exact ⟨inp, op, .invoke t', by rw [threadStep, h]; rfl⟩
  | heartbeat pc =>
    have hpc : pc ≠ .done := by
      rintro rfl
      cases hth
    obtain ⟨inp, op, pc', h⟩ := heartbeatStep_enabled cfg i hmu hfree hnames hconns hpc
    exact ⟨inp, op, .heartbeat pc', by rw [threadStep, h]; rfl⟩
  | prewarm p pc =>
    have hpc : pc ≠ .done := by
      rintro rfl
      cases hth
    obtain ⟨inp, op, pc', h⟩ := prewarmStep_enabled hfree hnames hpc
    exact ⟨inp, op, .prewarm p pc', by rw [threadStep, h]; rfl⟩
  | closer kind pc =>
    cases hhold : pc.holdsMu with
    | true =>
      have hheld := muHeld_of_holder hs.locked hi hhold
      rw [hmu] at hheld
      cases hheld
    | false =>
      cases pc with
      | start =>
        obtain ⟨inp, op, pc', h⟩ := closerStep_start_enabled kind hmu
        exact ⟨inp, op, .closer kind pc', by rw [threadStep, h]; rfl⟩
      | done => cases hth
      | _ => cases hhold

/-! ### The mutexes of the pools -/

lemma inGet_of_holdsPool (h : th.holdsPool = true) : ∃ p c, th.inGet = some (p, .count c) := by
  unfold Thread.holdsPool at h
  cases hin : th.inGet with
  | none =>
    rw [hin] at h
    cases h
  | some x =>
    obtain ⟨p, g⟩ := x
    rw [hin] at h
    cases g with
    | count c => exact ⟨p, c, rfl⟩
    | _ => cases h

lemma poolsFree_of_no_holder (hs : PoolLocked s) (hno : ∀ th ∈ s.threads, th.holdsPool = false) :
    PoolsFree s.shared := by
  intro q hmem
  obtain ⟨p, hq⟩ := List.getElem?_of_mem hmem
  refine free_of_dialling hs hq ?_
  by_contra hne
  obtain ⟨i, th, hi, hpos⟩ := exists_of_tally_pos (Nat.pos_of_ne_zero hne)
  have hth := hno th (List.mem_of_getElem? hi)
  cases hin : th.inGet with
  | none =>
    rw [hin] at hpos
    cases hpos
  | some x =>
    obtain ⟨p', g⟩ := x
    have hg : g.adding = false := by simpa [Thread.holdsPool, hin] using hth
    rw [hin, getShare_of_not hg] at hpos
    cases hpos

/-- Whoever holds a `p.mu` can take its next step. -/
lemma holder_enabled (cfg : ClientConfig V T) (hs : Steady s) (hi : s.threads[i]? = some th)
    (hth : th.holdsPool = true) :
    ∃ op th', threadStep cfg s.shared i th .go = some (op, th') ∧ th'.holdsPool = false ∧
      spawned s.shared op = ([] : List (Thread T)) ∧
      (s.shared.apply op).panicked = s.shared.panicked := by
  obtain ⟨p, c, hin⟩ := inGet_of_holdsPool hth
  have hnames := hs.named.threads th (List.mem_of_getElem? hi)
  have hp : p < s.shared.connPools.length := by
    rcases inGet_cases hin with ⟨t, rfl, hpc⟩ | rfl
    · exact InvokeNames.pool hnames p (by rw [hpc]; rfl)
    · exact hnames p rfl
  obtain ⟨th', hstep, hin'⟩ := count_enabled cfg i hin hp
  exact ⟨_, th', hstep, by simp [Thread.holdsPool, hin', GetPc.adding], rfl, rfl⟩

/-- Everybody who holds a `p.mu` can let go of it while all others stand still. -/
lemma pools_released (cfg : ClientConfig V T) (hs : Steady s) (hlive : s.shared.panicked = false) :
    ∃ t, Leads (clientStep cfg) (fun a => a.isRun = true) s t ∧
      (Steady t ∧ t.shared.panicked = false) ∧ ∀ th ∈ t.threads, th.holdsPool = false := by
  refine leads_to_goal (fun u : ClientState T => tally (fun _ th => th.holdsPool.toNat) u.threads)
    (fun u => Steady u ∧ u.shared.panicked = false) _ ?_ ⟨hs, hlive⟩
  rintro u ⟨hu, hulive⟩ hgoal
  push Not at hgoal
  obtain ⟨th, hmem, hth⟩ := hgoal
  have hth := Bool.eq_true_of_not_eq_false hth
  obtain ⟨i, hi⟩ := List.getElem?_of_mem hmem
  obtain ⟨op, th', hstep, hth', hspawn, hpanic⟩ := holder_enabled cfg hu hi hth
  have hclient := clientStep_of_threadStep hulive hi hstep
  refine ⟨_, .single rfl hclient, ⟨steady_step hu hclient, hpanic.trans hulive⟩, ?_⟩
  have hset := tally_set (f := fun _ (th : Thread T) => th.holdsPool.toNat) hi th'
  rw [hth, hth', Bool.toNat_true, Bool.toNat_false] at hset
  dsimp only
  rw [hspawn, List.append_nil]
  omega

lemma holdsPool_of_set {kind : CloserKind} {pc : CloserPc}
    (h : ∀ th ∈ s.threads, th.holdsPool = false) :
    ∀ th ∈ s.threads.set i (.closer kind pc), th.holdsPool = false := by
  intro th hmem
  rcases List.mem_or_eq_of_mem_set hmem with hold | rfl
  · exact h th hold
  · rfl

/-! ### `Client.Close` and `UpdateServers` -/

lemma closer_run (cfg : ClientConfig V T) {kind : CloserKind} {pc pc' : CloserPc} {inp : Input} {op : ClientOp}
    (hlive : s.shared.panicked = false) (hi : s.threads[i]? = some (.closer kind pc))
    (h : closerStep s.shared kind pc inp = some (op, pc')) :
    clientStep cfg s (.run i inp) = some ⟨s.shared.apply op, s.threads.set i (.closer kind pc')⟩ ∧
      (s.shared.apply op).panicked = false := by
  have hstep : threadStep cfg s.shared i (.closer kind pc) inp = some (op, .closer kind pc') := by
    rw [threadStep, h]
    rfl
  have hclient := clientStep_of_threadStep hlive hi hstep
  have hspawn : spawned s.shared op = ([] : List (Thread T)) := by
    cases threadStep_source hstep with
    | own _ _ hins => cases op <;> first | rfl | cases (hins _ _ rfl).2.2
    | closer hop _ => cases op <;> first | rfl | cases hop
    | get _ hin _ | put _ hin _ => cases hin
    | write hhands hth => rfl
    | closeConn => rfl
  rw [hspawn, List.append_nil] at hclient
  refine ⟨hclient, Bool.eq_false_of_not_eq_true fun hpanic => ?_⟩
  rcases panicked_apply hpanic with hold | rfl
  · rw [hlive] at hold
    cases hold
  · obtain ⟨p, q, hpast, -, -⟩ := threadStep_panic hstep
    cases hpast

/-- The rank of the closing goroutine `i`. -/
def closingRank (i : Nat) (s : ClientState T) : Nat ×ₗ Nat :=
  match s.threads[i]? with
  | some (.closer _ pc) => pc.rank s.shared
  | _ => toLex (0, 0)

/-- While nobody holds a `p.mu`, whoever holds `c.mu` can return without a step of anybody else. -/
lemma holder_returns (cfg : ClientConfig V T) {kind : CloserKind} {pc : CloserPc} (hs : Steady s)
    (hlive : s.shared.panicked = false) (hno : ∀ th ∈ s.threads, th.holdsPool = false)
    (hi : s.threads[i]? = some (.closer kind pc)) (hmu : pc.holdsMu = true) :
    ∃ t, Leads (clientStep cfg) (fun a => a.isRun = true) s t ∧ Steady t ∧
      t.shared.panicked = false ∧ t.threads = s.threads.set i (.closer kind .done) := by
  obtain ⟨hlt, hget⟩ := List.getElem?_eq_some_iff.mp hi
  have hsame : s.threads = s.threads.set i (.closer kind pc) := by
    rw [← hget, List.set_getElem_self]
  let Inv (u : ClientState T) : Prop := (Steady u ∧ u.shared.panicked = false) ∧
    ∃ pc, u.threads = s.threads.set i (.closer kind pc) ∧ (pc.holdsMu = true ∨ pc = .done)
  let Goal (u : ClientState T) : Prop := u.threads = s.threads.set i (.closer kind .done)
  have hstart : Inv s := ⟨⟨hs, hlive⟩, pc, hsame, .inl hmu⟩
  have hstep : ∀ u, Inv u → ¬ Goal u → ∃ u', Leads (clientStep cfg) (fun a => a.isRun = true) u u' ∧
      Inv u' ∧ closingRank i u' < closingRank i u := by
    rintro u ⟨⟨hu, hulive⟩, pc, hthreads, hpc⟩ hgoal
    have hhold : pc.holdsMu = true := by
      rcases hpc with hhold | rfl
      · exact hhold
      · exact absurd hthreads hgoal
    have hself : ∀ pc, (s.threads.set i (.closer kind pc))[i]? = some (.closer kind pc) :=
      fun pc => List.getElem?_set_self hlt
    have hui : u.threads[i]? = some (.closer kind pc) := by rw [hthreads, hself]
    have hok := hu.locked.closers kind pc (List.mem_of_getElem? hui)
    have hfree : PoolsFree u.shared :=
      poolsFree_of_no_holder hu.pools (hthreads ▸ holdsPool_of_set hno)
    obtain ⟨op, pc', hcl⟩ := closerStep_enabled hu.named.map hfree hok hhold
    obtain ⟨hclient, hlive'⟩ := closer_run cfg hulive hui hcl
    have hset : u.threads.set i (.closer kind pc') = s.threads.set i (.closer kind pc') := by
      rw [hthreads, List.set_set]
    refine ⟨_, .single rfl hclient, ⟨⟨steady_step hu hclient, hlive'⟩, pc', hset,
      holdsMu_or_done hcl⟩, ?_⟩
    unfold closingRank
    dsimp only
    rw [hset, hself, hui]
    exact closerStep_rank hhold hcl
  obtain ⟨u, hlead, ⟨⟨hu, hulive⟩, -⟩, hgoal⟩ := leads_to_goal (closingRank i) Inv Goal hstep hstart
  exact ⟨u, hlead, hu, hulive, hgoal⟩

lemma closer_of_holdsMu (h : th.holdsMu = true) : ∃ kind pc, th = .closer kind pc := by
  cases th with
  | closer kind pc => exact ⟨kind, pc, rfl⟩
  | _ => cases h

lemma holder_exists (hs : Locked s) (hmu : s.shared.muHeld = true) :
    ∃ (i : Nat) (th : Thread T), s.threads[i]? = some th ∧ th.holdsMu = true := by
  have hmutex := hs.mutex
  rw [hmu] at hmutex
  have hpos : 0 < tally (fun _ th => (Thread.holdsMu th).toNat) s.threads := by
    unfold holders at hmutex
    rw [hmutex]
    exact Nat.one_pos
  obtain ⟨i, th, hi, hth⟩ := exists_of_tally_pos hpos
  refine ⟨i, th, hi, ?_⟩
  cases hhold : th.holdsMu with
  | true => rfl
  | false =>
    rw [hhold] at hth
    cases hth

/-- A closing goroutine that is ahead of nobody holding `c.mu` can return. -/
lemma closer_returns (cfg : ClientConfig V T) {kind : CloserKind} {pc : CloserPc} (hs : Steady s)
    (hlive : s.shared.panicked = false) (hno : ∀ th ∈ s.threads, th.holdsPool = false)
    (hi : s.threads[i]? = some (.closer kind pc)) (hpc : pc ≠ .done)
    (hmu : pc.holdsMu = true ∨ s.shared.muHeld = false) :
    ∃ t, Leads (clientStep cfg) (fun a => a.isRun = true) s t ∧ Steady t ∧
      t.shared.panicked = false ∧ t.threads = s.threads.set i (.closer kind .done) := by
  rcases hmu with hhold | hfree
  · exact holder_returns cfg hs hlive hno hi hhold
  · have hstart : pc = .start := by
      cases pc with
      | start => rfl
      | done => exact absurd rfl hpc
      | _ =>
        have hheld := muHeld_of_holder hs.locked hi rfl
        rw [hfree] at hheld
        cases hheld
    subst hstart
    obtain ⟨inp, op, pc', hcl⟩ := closerStep_start_enabled kind hfree
    obtain ⟨hclient, hlive'⟩ := closer_run cfg hlive hi hcl
    have hs' := steady_step hs hclient
    rcases holdsMu_or_done hcl with hhold | rfl
    · have hlt := (List.getElem?_eq_some_iff.mp hi).1
      obtain ⟨t, hlead, ht, htlive, hthreads⟩ :=
        holder_returns cfg hs' hlive' (holdsPool_of_set hno) (List.getElem?_set_self hlt) hhold
      have hfirst : Leads (clientStep cfg) (fun a => a.isRun = true) s _ := .single rfl hclient
      refine ⟨t, hfirst.trans hlead, ht, htlive, ?_⟩
      rw [hthreads, List.set_set]
    · exact ⟨_, .single rfl hclient, hs', hlive', rfl⟩

/-- Every `Client.Close` and `UpdateServers` can return while all others stand still. -/
lemma closers_return (cfg : ClientConfig V T) (hs : Steady s) (hlive : s.shared.panicked = false)
    (hno : ∀ th ∈ s.threads, th.holdsPool = false) :
    ∃ t, Leads (clientStep cfg) (fun a => a.isRun = true) s t ∧
      (Steady t ∧ t.shared.panicked = false ∧ ∀ th ∈ t.threads, th.holdsPool = false) ∧
      ∀ th ∈ t.threads, th.isClosing = false := by
  refine leads_to_goal (fun u : ClientState T => tally (fun _ th => th.isClosing.toNat) u.threads)
    (fun u => Steady u ∧ u.shared.panicked = false ∧ ∀ th ∈ u.threads, th.holdsPool = false) _ ?_
    ⟨hs, hlive, hno⟩
  rintro u ⟨hu, hulive, huno⟩ hgoal
  have hnext : ∃ (i : Nat) (kind : CloserKind) (pc : CloserPc),
      u.threads[i]? = some (.closer kind pc) ∧ pc ≠ .done ∧
        (pc.holdsMu = true ∨ u.shared.muHeld = false) := by
    cases hmu : u.shared.muHeld with
    | true =>
      obtain ⟨i, th, hi, hth⟩ := holder_exists hu.locked hmu
      obtain ⟨kind, pc, rfl⟩ := closer_of_holdsMu hth
      refine ⟨i, kind, pc, hi, ?_, .inl hth⟩
      rintro rfl
      cases hth
    | false =>
      push Not at hgoal
      obtain ⟨th, hmem, hth⟩ := hgoal
      obtain ⟨i, hi⟩ := List.getElem?_of_mem hmem
      cases th with
      | closer kind pc =>
        refine ⟨i, kind, pc, hi, ?_, .inr rfl⟩
        rintro rfl
        exact hth rfl
      | _ => exact absurd rfl hth
  obtain ⟨i, kind, pc, hi, hpc, hmu⟩ := hnext
  obtain ⟨t, hlead, ht, htlive, hthreads⟩ := closer_returns cfg hu hulive huno hi hpc hmu
  refine ⟨t, hlead, ⟨ht, htlive, hthreads ▸ holdsPool_of_set huno⟩, ?_⟩
  have hset := tally_set (f := fun _ (th : Thread T) => th.isClosing.toNat) hi (.closer kind .done)
  have hone : (Thread.closer kind pc : Thread T).isClosing.toNat = 1 := by
    cases pc with
    | done => exact absurd rfl hpc
    | _ => rfl
  have hzero : (Thread.closer kind .done : Thread T).isClosing.toNat = 0 := rfl
  rw [hone, hzero] at hset
  rw [hthreads]
  omega

/-! ### The other goroutines -/

lemma isClosing_of_threadStep {inp : Input} {sh : ClientShared} {op : ClientOp} {th' : Thread T}
    (h : threadStep cfg sh i th inp = some (op, th')) (hth : th.isClosing = false) :
    th'.isClosing = false := by
  cases threadStep_move h with
  | @closer kind pc _ _ hr =>
    cases pc with
    | done => cases hr
    | _ => cases hth
  | _ => rfl

lemma muHeld_of_no_closers (hs : Locked s) (hcl : ∀ th ∈ s.threads, th.isClosing = false) :
    s.shared.muHeld = false := by
  refine Bool.eq_false_of_not_eq_true fun hmu => ?_
  obtain ⟨i, th, hi, hth⟩ := holder_exists hs hmu
  obtain ⟨kind, pc, rfl⟩ := closer_of_holdsMu hth
  have hno := hcl _ (List.mem_of_getElem? hi)
  cases pc with
  | start | done => cases hth
  | _ => cases hno

/-- While nobody holds `c.mu` and not all have returned, somebody can take a step: whoever holds a
`p.mu`, or everybody. -/
lemma someone_enabled (cfg : ClientConfig V T) (hs : Steady s) (hmu : s.shared.muHeld = false)
    (hth : ∃ th ∈ s.threads, th.finished = false) :
    ∃ (i : Nat) (th : Thread T) (inp : Input) (op : ClientOp) (th' : Thread T),
      s.threads[i]? = some th ∧ threadStep cfg s.shared i th inp = some (op, th') := by
  by_cases hhold : ∃ th ∈ s.threads, th.holdsPool = true
  · obtain ⟨th, hmem, hpool⟩ := hhold
    obtain ⟨i, hi⟩ := List.getElem?_of_mem hmem
    obtain ⟨op, th', hstep, -⟩ := holder_enabled cfg hs hi hpool
    exact ⟨i, th, .go, op, th', hi, hstep⟩
  · push Not at hhold
    have hfree := poolsFree_of_no_holder hs.pools
      (fun th hmem => Bool.eq_false_of_not_eq_true (hhold th hmem))
    obtain ⟨th, hmem, hth⟩ := hth
    obtain ⟨i, hi⟩ := List.getElem?_of_mem hmem
    obtain ⟨inp, op, th', hstep⟩ := thread_enabled cfg hs hmu hfree hi hth
    exact ⟨i, th, inp, op, th', hi, hstep⟩

/-- Once nobody is closing, the steps of the goroutines come to an end. -/
lemma others_return (cfg : ClientConfig V T) (hs : Steady s) (hcl : ∀ th ∈ s.threads, th.isClosing = false) :
    ∃ t, Leads (clientStep cfg) (fun a => a.isRun = true) s t ∧
      (Steady t ∧ ∀ th ∈ t.threads, th.isClosing = false) ∧
      (t.shared.panicked = true ∨ ∀ th ∈ t.threads, th.finished = true) := by
  refine leads_to_goal (fun u : ClientState T => tally (fun _ th => th.rank cfg) u.threads)
    (fun u => Steady u ∧ ∀ th ∈ u.threads, th.isClosing = false) _ ?_ ⟨hs, hcl⟩
  rintro u ⟨hu, hucl⟩ hgoal
  push Not at hgoal
  obtain ⟨hulive, x, hx, hfinished⟩ := hgoal
  have hulive := Bool.eq_false_of_not_eq_true hulive
  obtain ⟨i, th, inp, op, th', hi, hstep⟩ := someone_enabled cfg hu
    (muHeld_of_no_closers hu.locked hucl) ⟨x, hx, Bool.eq_false_of_not_eq_true hfinished⟩
  have hmem := List.mem_of_getElem? hi
  have hclient := clientStep_of_threadStep hulive hi hstep
  refine ⟨_, .single rfl hclient, ⟨steady_step hu hclient, fun x hx => ?_⟩, ?_⟩
  · rcases List.mem_append.mp hx with hset | hnew
    · rcases List.mem_or_eq_of_mem_set hset with hold | rfl
      · exact hucl x hold
      · exact isClosing_of_threadStep hstep (hucl th hmem)
    · cases op <;> simp only [spawned, List.not_mem_nil, List.mem_singleton] at hnew
      subst hnew
      rfl
  · have hlt := threadStep_rank hstep (hucl th hmem)
    have hset := tally_set (f := fun _ (th : Thread T) => th.rank cfg) hi th'
    dsimp only
    rw [tally_append]
    unfold spawnedRank at hlt
    omega

end Runs

/-- From every reachable state the goroutines of the client can all return without any new call,
unless one of them panics in `put`, which takes a pool whose `Close` has closed the hot queue. -/
theorem client_comes_to_rest (cfg : ClientConfig V T) (acts : List (ClientAction T))
    (s : ClientState T) (h : exec (clientStep cfg) .init acts = some s) :
    ∃ more t, (∀ a ∈ more, a.isRun = true) ∧ exec (clientStep cfg) s more = some t ∧
      ((∀ th ∈ t.threads, th.finished = true) ∨
        t.shared.panicked = true ∧ ∃ q ∈ t.shared.connPools, q.hotClosed = true) := by
  have hs : Steady s :=
    exec_invariant Steady (fun _ _ _ hs hstep => steady_step hs hstep) steady_init h
  cases hlive : s.shared.panicked with
  | true => exact ⟨[], s, fun _ ha => (by cases ha), rfl, .inr ⟨hlive, hs.panics hlive⟩⟩
  | false =>
    obtain ⟨r, hfirst, ⟨hr, hrlive⟩, hno⟩ := pools_released cfg hs hlive
    obtain ⟨u, hlead, ⟨hu, -⟩, hucl⟩ := closers_return cfg hr hrlive hno
    obtain ⟨t, hrest, ⟨ht, -⟩, hend⟩ := others_return cfg hu hucl
    obtain ⟨more, hrun, hexec⟩ := (hfirst.trans hlead).trans hrest
    refine ⟨more, t, hrun, hexec, ?_⟩
    rcases hend with hpanic | hfinished
    · exact .inr ⟨hpanic, ht.panics hpanic⟩
    · exact .inl hfinished

/-- `Client.Close` has taken `c.mu` while an Invoke waits for its response. -/
def closeHolding : List (ClientAction Unit) :=
  dialOnly ++ [.run 0 .go, .close, .run 2 (.targets [str "s"])]

theorem client_comes_to_rest_closeHolding : ∃ s : ClientState Unit,
    exec (clientStep smallClient) .init closeHolding = some s ∧ s.shared.muHeld = true ∧
      (∃ th ∈ s.threads[0]?, th.finished = false) ∧
      ∃ more t, (∀ a ∈ more, a.isRun = true) ∧ exec (clientStep smallClient) s more = some t ∧
        ((∀ th ∈ t.threads, th.finished = true) ∨
          t.shared.panicked = true ∧ ∃ q ∈ t.shared.connPools, q.hotClosed = true) := by
  have hrun : ∃ s ∈ exec (clientStep smallClient) .init closeHolding, s.shared.muHeld = true ∧
      ∃ th ∈ s.threads[0]?, th.finished = false := by
    decide +kernel
  obtain ⟨s, hs, hmu, hth⟩ := hrun
  exact ⟨s, hs, hmu, hth, client_comes_to_rest smallClient closeHolding s hs⟩

end Proofs

end Zrpc
