import Zrpc.Lib.History
import Zrpc.Proofs.ClientReplies
import Zrpc.Proofs.ClientStats

/-!
# How long an Invoke can take

Every step of an Invoke lowers its rank, whatever the other goroutines do in between: `get` looks at
most once into each queue and waits at most five times, an attempt has no loop, and there are at most
`maxRetries + 1` attempts, each of which leaves one deferred function behind.
-/

namespace Zrpc

variable {V T : Type}

/-! ### Ranks -/

def GetStage.rank : GetStage → Nat
  | .first => 40
  | .cold => 33
  | .second => 28
  | .waiting i => 1 + 5 * (4 - i)

/-- How many steps `get` has still to take at most. -/
def GetPc.rank : GetPc → Nat
  | .closedCheck => 46
  | .recvFirst => 45
  | .load => 40
  | .create false => 39
  | .popCold => 38
  | .recvSecond => 33
  | .reload => 28
  | .create true => 27
  | .wait i => 1 + 5 * (5 - i)
  | .check stage _ => stage.rank + 4
  | .health stage _ => stage.rank + 3
  | .release stage _ => stage.rank + 2
  | .decrement stage => stage.rank + 1
  | .count _ => 2
  | .mark _ => 1

def PutPc.rank : PutPc → Nat
  | .check _ => 4
  | .markIdle _ => 3
  | .sendHot _ => 2
  | .pushCold _ => 1

/-- How many steps the current attempt has still to take at most, up to the end of the Invoke if
there is no further attempt and no deferred function. -/
def InvokePc.rank : InvokePc → Nat
  | .done _ => 0
  | .unwind _ => 1
  | .unwindPut _ pc _ => 1 + pc.rank
  | .top => 2
  | .put _ pc _ => 2 + pc.rank
  | .closeConn _ => 3
  | .unregister _ _ => 4
  | .finish _ => 7
  | .settle _ => 8
  | .recv => 9
  | .write _ => 10
  | .number => 11
  | .prepare => 12
  | .closingCheck => 13
  | .newCall => 14
  | .get _ pc => 20 + pc.rank
  | .insert _ => 67
  | .lookup _ => 68
  | .discover => 69

namespace InvokeThread

/-- The attempts that an Invoke may still start. -/
def attempts (maxRetries : Int) (t : InvokeThread T) : Nat :=
  match t.pc with
  | .top => (maxRetries + 1 - t.retry).toNat
  | .unwind _ | .unwindPut _ _ _ | .done _ => 0
  | _ => (maxRetries - t.retry).toNat

def rank (maxRetries : Int) (t : InvokeThread T) : Nat :=
  68 * t.attempts maxRetries + t.pc.rank + 6 * t.cells.length

end InvokeThread

namespace Proofs

open Zrpc.Lib

section Steps

variable {cfg : ClientConfig V T} {s : ClientShared} {p id : Nat} {inp : Input} {op : ClientOp}

lemma rank_next (stage : GetStage) : stage.next.rank = stage.rank := by
  cases stage with
  | waiting i =>
    simp only [GetStage.next, GetPc.rank, GetStage.rank]
    omega
  | _ => rfl

lemma getPc_rank_pos (pc : GetPc) : 1 ≤ pc.rank := by
  cases pc with
  | create again => cases again <;> simp [GetPc.rank]
  | _ => simp [GetPc.rank]

lemma recvHotQueue_rank {q : ConnPool} {stage : GetStage} {pc : GetPc}
    (h : recvHotQueue p q stage = (op, .next pc)) : pc.rank ≤ stage.rank + 4 := by
  unfold recvHotQueue at h
  split at h
  · cases h
    exact le_refl _
  · cases h
    rw [rank_next]
    omega

lemma getStep_rank {pc pc' : GetPc} (h : getStep s p pc inp = some (op, .next pc')) :
    pc'.rank < pc.rank := by
  unfold getStep at h
  split at h
  · cases h
  · next q _ =>
    cases pc with
    | closedCheck =>
      dsimp only at h
      split at h <;> cases h
      simp [GetPc.rank]
    | recvFirst => exact Nat.lt_of_le_of_lt (recvHotQueue_rank (Option.some.inj h)) (by decide)
    | check stage c =>
      dsimp only at h
      split at h
      · cases h
      · split at h <;> cases h <;> simp [GetPc.rank]
    | health stage c =>
      dsimp only at h
      split at h
      · split at h
        · next healthy _ =>
          cases h
          cases healthy <;> simp [GetPc.rank]
        · cases h
      · cases h
    | mark c => cases h
    | release stage c =>
      cases h
      simp [GetPc.rank]
    | decrement stage =>
      cases h
      rw [rank_next]
      exact Nat.lt_succ_self _
    | load =>
      dsimp only at h
      split at h <;> cases h <;> simp [GetPc.rank]
    | create again =>
      dsimp only at h
      split at h
      · cases h
      · split at h
        · split at h
          · cases h
            cases again <;> simp [GetPc.rank]
          · cases h
            cases again <;> simp [GetPc.rank]
          · cases h
        · cases h
          cases again <;> simp [GetPc.rank]
    | count c =>
      cases h
      simp [GetPc.rank]
    | popCold =>
      dsimp only at h
      split at h
      · cases h
      · split at h <;> cases h <;> simp [GetPc.rank, GetStage.rank]
    | recvSecond => exact Nat.lt_of_le_of_lt (recvHotQueue_rank (Option.some.inj h)) (by decide)
    | reload =>
      dsimp only at h
      split at h
      · cases h
      · split at h <;> cases h <;> simp [GetPc.rank]
    | wait i =>
      dsimp only at h
      split at h
      · cases h
      · split at h
        · split at h
          · cases h
          · refine Nat.lt_of_le_of_lt (recvHotQueue_rank (Option.some.inj h)) ?_
            simp only [GetStage.rank, GetPc.rank]
            omega
        · cases h
          simp only [GetPc.rank]
          omega
        · cases h

lemma putPc_rank_pos (pc : PutPc) : 1 ≤ pc.rank := by
  cases pc <;> simp [PutPc.rank]

lemma putStep_rank {pc pc' : PutPc} (h : putStep s p pc = some (op, some pc')) :
    pc'.rank < pc.rank := by
  unfold putStep at h
  split at h
  · cases h
  · cases pc with
    | check c =>
      dsimp only at h
      split at h
      · cases h
      · split at h <;> cases h
        simp [PutPc.rank]
    | markIdle c =>
      cases h
      simp [PutPc.rank]
    | sendHot c =>
      dsimp only at h
      split at h
      · cases h
      · split at h <;> cases h
        simp [PutPc.rank]
    | pushCold c =>
      dsimp only at h
      split at h
      · cases h
      · split at h <;> cases h

section Attempt

variable {maxRetries : Int} {t t' : InvokeThread T} {pc : InvokePc} {err : GoString}

lemma rank_of_inAttempt (hpc : t.pc.inAttempt = true) : t.rank maxRetries =
    68 * (maxRetries - t.retry).toNat + t.pc.rank + 6 * t.cells.length := by
  obtain ⟨valid, replyType, retry, lastErr, cells, pc⟩ := t
  cases pc with
  | top | unwind result | unwindPut p g result | done result => cases hpc
  | _ => rfl

lemma rank_goto_le (hpc : pc ≠ .top) : (t.goto pc).rank maxRetries ≤
    68 * (maxRetries - t.retry).toNat + pc.rank + 6 * t.cells.length := by
  cases pc with
  | top => exact absurd rfl hpc
  | _ =>
    simp only [InvokeThread.rank, InvokeThread.attempts, InvokeThread.goto]
    omega

/-- The Invoke goes on inside its attempt, or gives up. -/
lemma rank_goto_lt (hpc : t.pc.inAttempt = true) (hpc' : pc ≠ .top) (hlt : pc.rank < t.pc.rank) :
    (t.goto pc).rank maxRetries < t.rank maxRetries := by
  have hle : (t.goto pc).rank maxRetries ≤ _ := rank_goto_le hpc'
  rw [rank_of_inAttempt hpc]
  omega

/-- The attempt ends with an error: the next one starts, if there is one. -/
lemma rank_continueWith_lt (hpc : t.pc.inAttempt = true) (hlt : 2 < t.pc.rank) :
    (t.continueWith err).rank maxRetries < t.rank maxRetries := by
  have hleft : maxRetries + 1 - ((t.retry + 1 : Nat) : Int) = maxRetries - t.retry := by omega
  have hrank : (t.continueWith err).rank maxRetries =
      68 * (maxRetries + 1 - ((t.retry + 1 : Nat) : Int)).toNat + 2 + 6 * t.cells.length := rfl
  rw [hrank, hleft, rank_of_inAttempt hpc]
  omega

lemma released_fields (t : InvokeThread T) : t.released.pc = t.pc ∧ t.released.retry = t.retry ∧
    t.released.cells.length = t.cells.length := by
  unfold InvokeThread.released
  split
  · exact ⟨rfl, rfl, rfl⟩
  · next hcells => exact ⟨rfl, rfl, by rw [hcells]; rfl⟩

lemma rank_released (t : InvokeThread T) : t.released.rank maxRetries = t.rank maxRetries := by
  obtain ⟨hpc, hretry, hcells⟩ := released_fields t
  unfold InvokeThread.rank InvokeThread.attempts
  rw [hpc, hretry, hcells]

lemma rank_released_continueWith_lt (hpc : t.pc.inAttempt = true) (hlt : 2 < t.pc.rank) :
    (t.released.continueWith err).rank maxRetries < t.rank maxRetries := by
  obtain ⟨hpc', -, -⟩ := released_fields t
  rw [← rank_released t]
  refine rank_continueWith_lt (by rw [hpc', hpc]) ?_
  rw [hpc']
  exact hlt

lemma startPut_rank {result : Except GoString Message} (hpc : t.pc.inAttempt = true)
    (hlt : 6 < t.pc.rank) (h : t.startPut result = some t') :
    t'.rank maxRetries < t.rank maxRetries := by
  unfold InvokeThread.startPut at h
  split at h
  · cases h
  · cases h
    obtain ⟨hpc', -, -⟩ := released_fields t
    rw [← rank_released t]
    refine rank_goto_lt (by rw [hpc', hpc]) (by simp) ?_
    rw [hpc']
    exact hlt

end Attempt

lemma invokeStep_rank {t t' : InvokeThread T} (h : invokeStep cfg s id t inp = some (op, t')) :
    t'.rank cfg.maxRetries < t.rank cfg.maxRetries := by
  obtain ⟨valid, replyType, retry, lastErr, cells, pc⟩ := t
  cases invokeStep_turn h with
  | attempt hle | cancelled hle _ _ =>
    dsimp only at hle
    simp only [InvokeThread.rank, InvokeThread.attempts, InvokeThread.goto, InvokePc.rank]
    omega
  | exhausted =>
    simp only [InvokeThread.rank, InvokeThread.attempts, InvokeThread.goto, InvokePc.rank]
    omega
  | discovered | found | missing | insert | named | misnamed | refused | admitted | prepared
  | unprepared | unnumbered | number | write | unwritten | unregister | recv | settled =>
    exact rank_goto_lt rfl (by simp) (by simp [InvokePc.rank, GetPc.rank])
  | undiscovered => exact rank_continueWith_lt rfl (by simp [InvokePc.rank])
  | @get _ g _ out hg =>
    cases out with
    | next g' =>
      have hlt := getStep_rank hg
      refine rank_goto_lt rfl (by simp) ?_
      simp only [InvokePc.rank]
      omega
    | got c =>
      -- the deferred function of the attempt is still to come
      have hpos := getPc_rank_pos g
      simp only [InvokeThread.afterGet, InvokeThread.rank, InvokeThread.attempts, InvokePc.rank,
        List.length_cons]
      omega
    | failed err =>
      refine rank_continueWith_lt rfl ?_
      simp only [InvokePc.rank]
      omega
  | closeConn => exact rank_released_continueWith_lt rfl (by simp [InvokePc.rank])
  | unreceived _ _ _ _ _ hput | unsettled _ _ hput | finish hput =>
    exact startPut_rank rfl (by simp [InvokePc.rank]) hput
  | @put p g result _ out hp =>
    cases out with
    | some g' =>
      have hlt := putStep_rank hp
      refine rank_goto_lt rfl (by simp) ?_
      simp only [InvokePc.rank]
      omega
    | none =>
      have hpos := putPc_rank_pos g
      have hlt : 2 < (InvokePc.put p g result).rank := by
        simp only [InvokePc.rank]
        omega
      cases result with
      | ok m => exact rank_goto_lt rfl (by simp) (lt_trans (by simp [InvokePc.rank]) hlt)
      | error err => exact rank_continueWith_lt rfl hlt
  | unwound => simp [InvokeThread.rank, InvokeThread.attempts, InvokeThread.goto, InvokePc.rank]
  | @unwind _ cell _ hcells =>
    obtain rfl : cells = _ := hcells
    cases hrel : cell.connReleased with
    | true =>
      simp only [InvokeThread.rank, InvokeThread.attempts, InvokePc.rank, if_true, List.length_cons]
      omega
    | false =>
      simp only [InvokeThread.rank, InvokeThread.attempts, InvokePc.rank, PutPc.rank,
        Bool.false_eq_true, if_false, List.length_cons]
      omega
  | @unwindPut _ g _ _ out hp =>
    cases out with
    | some g' =>
      have hlt := putStep_rank hp
      simp only [InvokeThread.afterUnwindPut, InvokeThread.rank, InvokeThread.attempts,
        InvokeThread.goto, InvokePc.rank]
      omega
    | none =>
      have hpos := putPc_rank_pos g
      simp only [InvokeThread.afterUnwindPut, InvokeThread.rank, InvokeThread.attempts,
        InvokeThread.goto, InvokePc.rank]
      omega

end Steps

/-! ### Whole runs -/

/-- The steps of goroutine `i`. -/
def runsOf (i : Nat) : ClientAction T → Bool
  | .run j _ => j == i
  | _ => false

/-- What an Invoke has done and what it may still do are bounded together; a goroutine that does not
exist yet has done nothing. -/
structure StepsBounded (cfg : ClientConfig V T) (acts : List (ClientAction T)) (s : ClientState T) :
    Prop where
  invokes : ∀ (i : Nat) (t : InvokeThread T), s.threads[i]? = some (.invoke t) →
    acts.countP (runsOf i) + t.rank cfg.maxRetries ≤ 68 * (cfg.maxRetries + 1).toNat + 2
  later : ∀ i, s.threads.length ≤ i → acts.countP (runsOf i) = 0

section Runs

variable {cfg : ClientConfig V T} {s t : ClientState T} {acts : List (ClientAction T)}
  {a : ClientAction T}

lemma countP_concat_of_other {i : Nat} (h : runsOf i a = false) :
    (acts ++ [a]).countP (runsOf i) = acts.countP (runsOf i) := by
  rw [List.countP_append, List.countP_singleton, h]
  rfl

lemma stepsBounded_run {i : Nat} {inp : Input} {th th' : Thread T} {op : ClientOp}
    (hs : StepsBounded cfg acts s) (hi : s.threads[i]? = some th)
    (h : threadStep cfg s.shared i th inp = some (op, th')) :
    StepsBounded cfg (acts ++ [.run i inp])
      ⟨s.shared.apply op, s.threads.set i th' ++ spawned s.shared op⟩ := by
  have hlt := (List.getElem?_eq_some_iff.mp hi).1
  have hother : ∀ {j : Nat}, i ≠ j → runsOf (T := T) j (.run i inp) = false :=
    fun hij => beq_eq_false_iff_ne.mpr hij
  refine ⟨fun j u hj => ?_, fun j hj => ?_⟩
  · rcases thread_of_run hj with ⟨rfl, rfl⟩ | ⟨hij, hold⟩ | hspawned
    · -- its own step lowers the rank
      cases threadStep_move h with
      | @invoke u₀ _ _ hstep =>
        have hrank := invokeStep_rank hstep
        have hbound := hs.invokes j u₀ hi
        have hone : runsOf (T := T) j (.run j inp) = true := beq_self_eq_true j
        rw [List.countP_append, List.countP_singleton, hone, if_pos rfl]
        omega
    · rw [countP_concat_of_other (hother (Ne.symm hij))]
      exact hs.invokes j u hold
    · cases op <;> simp [spawned] at hspawned
  · rw [List.length_append, List.length_set] at hj
    have hij : i ≠ j := by omega
    rw [countP_concat_of_other (hother hij)]
    exact hs.later j (by omega)

/-- A new Invoke has its whole rank before it. -/
lemma stepsBounded_start (hs : StepsBounded cfg acts s) (ha : ∀ i, runsOf i a = false) :
    StepsBounded cfg (acts ++ [a]) { s with threads := s.threads ++ newThread a } := by
  refine ⟨fun i u hi => ?_, fun i hi => ?_⟩
  · rw [countP_concat_of_other (ha i)]
    dsimp only at hi
    rw [List.getElem?_append] at hi
    split at hi
    · exact hs.invokes i u hi
    · next hle =>
      have hmem := List.mem_of_getElem? hi
      have hrank : u.rank cfg.maxRetries = 68 * (cfg.maxRetries + 1).toNat + 2 := by
        cases a <;> simp [newThread] at hmem
        subst hmem
        simp [InvokeThread.rank, InvokeThread.attempts, InvokePc.rank]
      rw [hs.later i (not_lt.mp hle), hrank, Nat.zero_add]
  · rw [countP_concat_of_other (ha i)]
    dsimp only at hi
    rw [List.length_append] at hi
    exact hs.later i (by omega)

lemma stepsBounded_step (hs : StepsBounded cfg acts s) (h : clientStep cfg s a = some t) :
    StepsBounded cfg (acts ++ [a]) t := by
  cases a with
  | run i inp =>
    obtain ⟨th, op, th', hi, hstep, rfl⟩ := clientStep_run h
    exact stepsBounded_run hs hi hstep
  | answer c request header body =>
    cases clientStep_move h with
    | answer _ _ =>
      refine ⟨fun i u hi => ?_, fun i hi => ?_⟩
      · rw [countP_concat_of_other rfl]
        exact hs.invokes i u hi
      · rw [countP_concat_of_other rfl]
        exact hs.later i hi
    | start _ =>
      have hnone := stepsBounded_start hs (a := .answer c request header body) fun _ => rfl
      exact hnone
  | _ =>
    cases clientStep_move h with
    | start _ => exact stepsBounded_start hs fun _ => rfl

end Runs

/-- In every run an Invoke takes at most `68 * (maxRetries + 1) + 2` steps of its own, whatever the
other goroutines, the servers and the network do. -/
theorem invoke_steps_bounded (cfg : ClientConfig V T) (acts : List (ClientAction T))
    (s : ClientState T) (h : exec (clientStep cfg) .init acts = some s) (i : Nat)
    (t : InvokeThread T) (hi : s.threads[i]? = some (.invoke t)) :
    acts.countP (runsOf i) ≤ 68 * (cfg.maxRetries + 1).toNat + 2 := by
  have hs : StepsBounded cfg acts s :=
    exec_history (StepsBounded cfg) ⟨fun _ _ hi => (by cases hi), fun _ _ => rfl⟩
      (fun _ _ _ _ _ hs (_ : True) ht => stepsBounded_step hs ht)
      (guarded_of_mem fun _ _ _ => trivial) h
  have hbound := hs.invokes i t hi
  omega

theorem invoke_steps_bounded_answered : ∃ (s : ClientState Unit) (t : InvokeThread Unit)
    (m : Message), exec (clientStep smallClient) .init answeredCall = some s ∧
      s.threads[0]? = some (.invoke t) ∧ t.pc = .done (.ok m) ∧
      answeredCall.countP (runsOf 0) ≤ 68 * (smallClient.maxRetries + 1).toNat + 2 := by
  have hrun : ∃ s ∈ exec (clientStep smallClient) .init answeredCall,
      ∃ th ∈ s.threads[0]?, returnedNil th = true := by
    decide +kernel
  obtain ⟨s, hs, th, hth, hnil⟩ := hrun
  obtain ⟨t, m, rfl, hdone⟩ := done_of_returnedNil hnil
  exact ⟨s, t, m, hs, hth, hdone, invoke_steps_bounded smallClient answeredCall s hs 0 t hth⟩

end Proofs

end Zrpc
