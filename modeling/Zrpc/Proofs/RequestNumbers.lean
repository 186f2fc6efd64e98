import Zrpc.Proofs.ClientReplies
import Zrpc.System

/-!
# The numbers of requests, and the responses that are accepted

Each request that a client sends has a number of its own, until the counter wraps around, and the
response that an Invoke returns is one that `recvMsg` has accepted and unmarshalled.
-/

namespace Zrpc.Proofs

open Zrpc.Lib

variable {V T : Type}

/-- The number of the request that a goroutine is about to write. -/
def unsent : Thread T → Option UInt64
  | .invoke t => match t.pc with
    | .write seq => some seq
    | _ => none
  | .heartbeat (.write _ _ seq) => some seq
  | _ => none

/-- The response of an Invoke that has left `recvMsg`. -/
def InvokePc.returned : InvokePc → Option Message
  | .put _ _ result | .unwind result | .unwindPut _ _ result | .done result => result.toOption
  | _ => none

/-- Operations that number a request or write it. -/
def isRequest : ClientOp → Bool
  | .number _ | .send _ _ => true
  | _ => false

/-! ### Steps of a goroutine -/

/-- What a step of an Invoke does to its next request and to its response. -/
structure StageMove (cfg : ClientConfig V T) (s : ClientShared) (t : InvokeThread T) (op : ClientOp)
    (t' : InvokeThread T) : Prop where
  replyType : t'.replyType = t.replyType
  write : ∀ seq, t'.pc = .write seq →
    t.pc = .number ∧ seq = s.calls.sequence + 1 ∧ op = .number seq
  returned : ∀ m, InvokePc.returned t'.pc = some m →
    InvokePc.returned t.pc = some m ∨ ∃ v, readResponse cfg.proto t.replyType m = .ok v

/-- A goroutine takes the next number, writes the request it has numbered, or does something else,
after which it has no request to write. -/
inductive NumberMove (s : ClientShared) (id : Nat) (inp : Input) (th : Thread T) (op : ClientOp)
    (th' : Thread T) : Prop
  | number (hop : op = .number (s.calls.sequence + 1)) (hold : unsent th = none)
    (hnew : unsent th' = some (s.calls.sequence + 1))
  | send {c seq} (hop : op = .send c ⟨id, seq⟩) (hold : th.sending = some (c, seq))
    (hinp : inp = .go) (hnew : unsent th' = none)
  | other (hop : isRequest op = false) (hnew : unsent th' = none)

section Steps

variable {cfg : ClientConfig V T} {s : ClientShared} {id : Nat} {inp : Input} {op : ClientOp}
  {t t' : InvokeThread T}

lemma stageMove_of_quiet (hwrite : unsent (.invoke t') = none)
    (hret : InvokePc.returned t'.pc = none ∨ InvokePc.returned t'.pc = InvokePc.returned t.pc)
    (ht : t'.replyType = t.replyType) : StageMove cfg s t op t' := by
  refine ⟨ht, fun seq h => ?_, fun m hm => .inl ?_⟩
  · simp only [unsent, h] at hwrite
    cases hwrite
  · rcases hret with hnone | hsame
    · cases hnone.symm.trans hm
    · exact hsame ▸ hm

lemma startPut_stage {result : Except GoString Message} (h : t.startPut result = some t')
    (hres : ∀ m, result = .ok m → ∃ v, readResponse cfg.proto t.replyType m = .ok v) :
    StageMove cfg s t op t' := by
  unfold InvokeThread.startPut at h
  split at h
  · cases h
  · next cell rest hcells =>
    cases h
    refine ⟨by simp [InvokeThread.released, hcells, InvokeThread.goto], fun seq hpc => ?_, fun m hm => ?_⟩
    · cases hpc
    · refine .inr (hres m ?_)
      cases result with
      | ok m' => exact congrArg Except.ok (Option.some.inj hm)
      | error e => cases hm

lemma invokeStep_stage (h : invokeStep cfg s id t inp = some (op, t')) : StageMove cfg s t op t' := by
  obtain ⟨validMethod, replyType, retry, lastErr, cells, pc⟩ := t
  cases invokeStep_turn h with
  | attempt | cancelled | exhausted | discovered | undiscovered | found | missing | insert | named
  | misnamed | refused | admitted | prepared | unprepared | unnumbered | write | unwritten
  | unregister | recv | settled => exact stageMove_of_quiet rfl (.inl rfl) rfl
  | @get _ _ _ out => cases out <;> exact stageMove_of_quiet rfl (.inl rfl) rfl
  | number =>
    refine ⟨rfl, fun seq hseq => ?_, fun m hm => by cases hm⟩
    cases hseq
    exact ⟨rfl, rfl, rfl⟩
  | closeConn hcells =>
    obtain rfl : cells = _ := hcells
    exact stageMove_of_quiet rfl (.inl rfl) rfl
  | unreceived _ _ _ _ _ hput | unsettled _ _ hput =>
    exact startPut_stage hput fun m hm => by cases hm
  | @finish res _ hput =>
    refine startPut_stage hput fun m hm => ?_
    dsimp only at hm ⊢
    cases hv : readResponse cfg.proto replyType res with
    | ok v =>
      rw [hv] at hm
      cases hm
      exact ⟨v, hv⟩
    | error e =>
      rw [hv] at hm
      cases hm
  | @put _ _ result _ out =>
    cases out with
    | some g => exact stageMove_of_quiet rfl (.inr rfl) rfl
    | none =>
      cases result with
      | ok m => exact stageMove_of_quiet rfl (.inr rfl) rfl
      | error e => exact stageMove_of_quiet rfl (.inl rfl) rfl
  | unwound => exact stageMove_of_quiet rfl (.inr rfl) rfl
  | @unwind _ cell =>
    cases hrel : cell.connReleased <;> exact stageMove_of_quiet rfl (.inr rfl) rfl
  | @unwindPut _ _ _ _ out => cases out <;> exact stageMove_of_quiet rfl (.inr rfl) rfl

lemma isRequest_of_isGet (hop : op.isGet = true) : isRequest op = false := by
  cases op <;> first | rfl | cases hop

lemma isRequest_of_isPut (hop : op.isPut = true) : isRequest op = false := by
  cases op <;> first | rfl | cases hop

lemma isRequest_of_isLocal (hop : op.isLocal = true) (hnumber : ∀ seq, op ≠ .number seq) :
    isRequest op = false := by
  cases op with
  | number seq => exact absurd rfl (hnumber seq)
  | _ => first | rfl | cases hop

lemma invokeStep_numbers (h : invokeStep cfg s id t inp = some (op, t')) :
    NumberMove s id inp (.invoke t) op (.invoke t') := by
  have hstage := invokeStep_stage h
  have hnew : (∀ seq, op ≠ .number seq) → unsent (.invoke t') = none := by
    intro hop
    simp only [unsent]
    split
    · next seq hpc => exact absurd (hstage.write seq hpc).2.2 (hop seq)
    · rfl
  have hother : isRequest op = false → NumberMove s id inp (.invoke t) op (.invoke t') := by
    intro hop
    refine .other hop (hnew fun seq he => ?_)
    rw [he] at hop
    cases hop
  cases invokeStep_move h with
  | other hl =>
    by_cases hop : ∃ seq, op = .number seq
    · obtain ⟨seq, rfl⟩ := hop
      have ht := hl.number seq rfl
      obtain ⟨hpc, hseq, -⟩ := hstage.write seq (by rw [ht]; rfl)
      subst hseq
      exact .number rfl (by simp only [unsent, hpc]) (by rw [ht]; rfl)
    · exact hother (isRequest_of_isLocal hl.op fun seq he => hop ⟨seq, he⟩)
  | get _ hg => exact hother (isRequest_of_isGet (getStep_isGet hg))
  | write hpc hcells _ hinp =>
    exact .send rfl (by simp only [Thread.sending, hpc, hcells]) hinp (hnew (by simp))
  | closeConn _ _ | recv _ _ _ _ _ _ _ => exact hother rfl
  | put _ hp | unwindPut _ hp => exact hother (isRequest_of_isPut (putStep_isPut hp))

lemma heartbeatStep_numbers {pc pc' : HeartbeatPc}
    (h : heartbeatStep cfg s id pc inp = some (op, pc')) :
    NumberMove s id inp (.heartbeat pc : Thread T) op (.heartbeat pc') := by
  cases heartbeatStep_turn h with
  | discovered | undiscovered | found | missing | send | unnumbered | unwritten | unregister
  | closeConn => exact .other rfl rfl
  | insert hins =>
    obtain ⟨hop, hnum, -⟩ := insertPool_spec hins
    exact .other (isRequest_of_isLocal hop hnum) rfl
  | @get _ _ _ out hg =>
    have hop := isRequest_of_isGet (getStep_isGet hg)
    cases out <;> exact .other hop rfl
  | @health _ _ _ _ _ healthy _ _ hh =>
    have hop := isRequest_of_isGet (isHealthy_isGet hh)
    cases healthy <;> exact .other hop rfl
  | number => exact .number rfl rfl rfl
  | write _ _ hinp => exact .send rfl rfl hinp rfl
  | @put _ _ _ out hp =>
    have hop := isRequest_of_isPut (putStep_isPut hp)
    cases out <;> exact .other hop rfl

lemma threadStep_numbers {th th' : Thread T} (h : threadStep cfg s id th inp = some (op, th')) :
    NumberMove s id inp th op th' := by
  cases threadStep_move h with
  | invoke hr => exact invokeStep_numbers hr
  | heartbeat hr => exact heartbeatStep_numbers hr
  | prewarm hr =>
    refine .other ?_ rfl
    cases prewarmStep_move hr <;> rfl
  | closer hr =>
    have hop := closerStep_isClosing hr
    refine .other ?_ rfl
    cases op <;> first | rfl | cases hop

end Steps

/-! ### Whole runs -/

/-- How often a request with the given number is on a connection. -/
def onWire (seq : UInt64) (k : ClientConn) : Nat := (k.sent.map SentRequest.seq).count seq

/-- How often a number is in use: by goroutines that are about to write it, and on the wire. -/
def uses (seq : UInt64) (s : ClientState T) : Nat :=
  tally (fun _ th => if unsent th = some seq then 1 else 0) s.threads +
    tally (fun _ => onWire seq) s.shared.conns

/-- No number is in use twice, and none beyond the counter. -/
def Numbered (s : ClientState T) : Prop :=
  ∀ seq, uses seq s ≤ 1 ∧ (0 < uses seq s → seq.toNat ≤ s.shared.calls.sequence.toNat)

section Runs

variable {cfg : ClientConfig V T} {s t : ClientState T}

lemma sequence_apply {s : ClientShared} {op : ClientOp} (h : ∀ seq, op ≠ .number seq) :
    (s.apply op).calls.sequence = s.calls.sequence := by
  cases op with
  | number seq => exact absurd rfl (h seq)
  | unlock clear => cases clear <;> rfl
  | _ => rfl

lemma onWire_onConn {s : ClientShared} {seq : UInt64} (c : Nat) {f : ClientConn → ClientConn}
    {n : Nat} (hf : ∀ k, onWire seq (f k) = onWire seq k + n) :
    tally (fun _ => onWire seq) (s.onConn c f).conns ≤ tally (fun _ => onWire seq) s.conns + n := by
  unfold ClientShared.onConn
  dsimp only
  cases hk : s.conns[c]? with
  | none =>
    rw [modify_of_none hk]
    omega
  | some k =>
    have hm := tally_modify (f := fun _ => onWire seq) hk f
    rw [hf] at hm
    omega

/-- A step that writes nothing adds no number to the wire. -/
lemma onWire_apply (s : ClientShared) {op : ClientOp} (h : ∀ c r, op ≠ .send c r) (seq : UInt64) :
    tally (fun _ => onWire seq) (s.apply op).conns ≤ tally (fun _ => onWire seq) s.conns := by
  have hadd : ∀ p, tally (fun _ => onWire seq) (s.addConn p).conns =
      tally (fun _ => onWire seq) s.conns := by
    intro p
    unfold ClientShared.addConn
    rw [tally_append]
    rfl
  have hclose : ∀ k : ClientConn, onWire seq k.close = onWire seq k := by
    intro k
    unfold onWire
    rw [(close_fields k).2.1]
  have hkeep : ∀ (c : Nat) (f : ClientConn → ClientConn), (∀ k, onWire seq (f k) = onWire seq k) →
      tally (fun _ => onWire seq) (s.onConn c f).conns ≤ tally (fun _ => onWire seq) s.conns :=
    fun c f hf => onWire_onConn (n := 0) c hf
  cases op with
  | send c r => exact absurd rfl (h c r)
  | mark c status => exact hkeep c _ fun k => rfl
  | close c => exact hkeep c _ hclose
  | closeCounted p c => exact hkeep c _ hclose
  | read c n => exact hkeep c _ fun k => rfl
  | dial p | create p => exact (hadd p).le
  | _ => exact le_refl _

lemma onWire_send (s : ClientShared) (c id : Nat) (seq seq' : UInt64) :
    tally (fun _ => onWire seq) (s.apply (.send c ⟨id, seq'⟩)).conns ≤
      tally (fun _ => onWire seq) s.conns + if seq' = seq then 1 else 0 := by
  refine onWire_onConn c fun k => ?_
  unfold onWire
  rw [List.map_append, List.count_append, List.map_singleton, List.count_singleton]
  simp [beq_iff_eq]

/-- A new goroutine has no request to write. -/
lemma unsent_spawned {s : ClientShared} {op : ClientOp} (seq : UInt64) :
    tally (fun _ th => if unsent th = some seq then 1 else 0) (spawned s op : List (Thread T)) = 0 := by
  cases op <;> rfl

lemma unsent_newThread (a : ClientAction T) (seq : UInt64) :
    tally (fun _ th => if unsent th = some seq then 1 else 0) (newThread a) = 0 := by
  cases a <;> rfl

lemma unsent_of_sending {th : Thread T} {c : Nat} {seq : UInt64} (h : th.sending = some (c, seq)) :
    unsent th = some seq := by
  cases th with
  | invoke t =>
    simp only [Thread.sending] at h
    split at h
    · next hpc _ =>
      cases h
      simp only [unsent, hpc]
    · cases h
  | heartbeat pc =>
    cases pc with
    | write p c seq =>
      cases h
      rfl
    | _ => cases h
  | prewarm p pc | closer kind pc => cases h

/-- Only taking a number adds a use of it. -/
lemma uses_run {i : Nat} {inp : Input} {th th' : Thread T} {op : ClientOp}
    (hi : s.threads[i]? = some th) (h : threadStep cfg s.shared i th inp = some (op, th'))
    (seq : UInt64) {n : Nat} (hn : op = .number seq → 1 ≤ n) :
    uses seq ⟨s.shared.apply op, s.threads.set i th' ++ spawned s.shared op⟩ ≤ uses seq s + n := by
  have hset := tally_set (f := fun _ th => if unsent th = some seq then 1 else 0) hi th'
  unfold uses
  rw [tally_append, unsent_spawned]
  dsimp only
  cases threadStep_numbers h with
  | number hop hold hnew =>
    subst hop
    have hno : ∀ c r, ClientOp.number (s.shared.calls.sequence + 1) ≠ .send c r := by simp
    have hwire := onWire_apply s.shared hno seq
    simp only [hold, hnew, reduceCtorEq, if_false, Option.some.injEq] at hset
    split at hset
    · next he =>
      have hone := hn (by rw [he])
      omega
    · omega
  | @send c seq' hop hold _ hnew =>
    have hwire := onWire_send s.shared c i seq seq'
    rw [← hop] at hwire
    simp only [unsent_of_sending hold, hnew, reduceCtorEq, if_false, Option.some.injEq] at hset
    omega
  | other hop hnew =>
    have hno : ∀ c r, op ≠ .send c r := by
      rintro c r rfl
      cases hop
    have hwire := onWire_apply s.shared hno seq
    simp only [hnew, reduceCtorEq, if_false] at hset
    omega

lemma numbered_of_uses (hs : Numbered s) (huses : ∀ seq, uses seq t ≤ uses seq s)
    (hcounter : t.shared.calls.sequence = s.shared.calls.sequence) : Numbered t := by
  intro seq
  have hle := huses seq
  obtain ⟨hone, hbound⟩ := hs seq
  refine ⟨by omega, fun hpos => ?_⟩
  rw [hcounter]
  exact hbound (by omega)

lemma numbered_run {i : Nat} {inp : Input} {th th' : Thread T} {op : ClientOp} (hs : Numbered s)
    (hwrap : s.shared.calls.sequence.toNat + 1 < 2 ^ 64) (hi : s.threads[i]? = some th)
    (h : threadStep cfg s.shared i th inp = some (op, th')) :
    Numbered ⟨s.shared.apply op, s.threads.set i th' ++ spawned s.shared op⟩ := by
  by_cases hop : ∃ seq, op = .number seq
  · obtain ⟨next, rfl⟩ := hop
    have hnext : next.toNat = s.shared.calls.sequence.toNat + 1 := by
      cases threadStep_numbers h with
      | number hop _ _ =>
        rw [ClientOp.number.inj hop, UInt64.toNat_add]
        exact Nat.mod_eq_of_lt hwrap
      | send hop _ _ _ => cases hop
      | other hop _ => cases hop
    intro seq
    obtain ⟨hone, hbound⟩ := hs seq
    change _ ∧ (_ → seq.toNat ≤ next.toNat)
    rw [hnext]
    by_cases he : next = seq
    · -- the counter has not reached this number before
      subst he
      have hfresh : uses next s = 0 := by
        by_contra hpos
        have hle := hbound (by omega)
        omega
      have hle := uses_run (n := 1) hi h next fun _ => le_refl _
      exact ⟨by omega, fun _ => by omega⟩
    · have hle := uses_run (n := 0) hi h seq fun hop => absurd (ClientOp.number.inj hop) he
      exact ⟨by omega, fun hpos => (hbound (by omega)).trans (Nat.le_succ _)⟩
  · have hno : ∀ seq, op ≠ .number seq := fun seq he => hop ⟨seq, he⟩
    exact numbered_of_uses hs (fun seq => uses_run (n := 0) hi h seq fun he => absurd he (hno seq))
      (sequence_apply hno)

lemma numbered_step {a : ClientAction T} (hs : Numbered s)
    (hwrap : s.shared.calls.sequence.toNat + 1 < 2 ^ 64) (h : clientStep cfg s a = some t) :
    Numbered t := by
  cases clientStep_move h with
  | run hi hstep => exact numbered_run hs hwrap hi hstep
  | @answer c request header body k k' hk hans =>
    refine numbered_of_uses hs (fun seq => ?_) rfl
    have hset := tally_set (f := fun _ => onWire seq) hk k'
    have hsame : onWire seq k' = onWire seq k := by
      obtain ⟨-, -, -, -, rfl⟩ := answer_spec hans
      rfl
    unfold uses
    dsimp only
    omega
  | start a =>
    refine numbered_of_uses hs (fun seq => ?_) rfl
    unfold uses
    rw [tally_append, unsent_newThread]
    exact le_refl _

lemma numbered_init : Numbered (.init : ClientState T) := by
  intro seq
  exact ⟨Nat.zero_le _, fun h => absurd h (lt_irrefl 0)⟩

/-- The requests on a connection have different numbers. -/
lemma Numbered.nodup (hs : Numbered s) {c : Nat} {k : ClientConn}
    (hk : s.shared.conns[c]? = some k) : (k.sent.map SentRequest.seq).Nodup := by
  rw [List.nodup_iff_count_le_one]
  intro seq
  have hle := le_tally (f := fun _ => onWire seq) hk
  have hone := (hs seq).1
  unfold uses at hone
  exact le_trans (le_trans hle (Nat.le_add_left _ _)) hone

/-- What an Invoke returns, `recvMsg` has unmarshalled. -/
def Accepted (cfg : ClientConfig V T) (s : ClientState T) : Prop :=
  ∀ (i : Nat) (t : InvokeThread T) (m : Message), s.threads[i]? = some (.invoke t) →
    InvokePc.returned t.pc = some m → ∃ v, readResponse cfg.proto t.replyType m = .ok v

lemma accepted_step {a : ClientAction T} (hs : Accepted cfg s) (h : clientStep cfg s a = some t) :
    Accepted cfg t := by
  cases clientStep_move h with
  | @run i inp th op th' hi hstep =>
    intro j u m hj hm
    rcases thread_of_run hj with ⟨rfl, rfl⟩ | ⟨-, hold⟩ | hspawned
    · cases threadStep_move hstep with
      | @invoke u₀ _ _ hr =>
        have hstage := invokeStep_stage hr
        rw [hstage.replyType]
        rcases hstage.returned m hm with hold | hnew
        · exact hs j u₀ m hi hold
        · exact hnew
    · exact hs j u m hold hm
    · cases op <;> simp [spawned] at hspawned
  | answer _ _ => exact hs
  | start a =>
    intro j u m hj hm
    rw [List.getElem?_append] at hj
    split at hj
    · exact hs j u m hj hm
    · have hmem := List.mem_of_getElem? hj
      cases a <;> simp [newThread] at hmem
      subst hmem
      cases hm

lemma accepted_init : Accepted cfg .init := by
  intro i t m hi
  cases hi

end Runs

end Zrpc.Proofs
