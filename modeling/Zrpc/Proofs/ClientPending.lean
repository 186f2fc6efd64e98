import Zrpc.Proofs.ClientAccounting
import Zrpc.Proofs.ClientHeartbeat
import Zrpc.Proofs.ClientReplies

/-!
# The pending map

`sendMsg` enters a call into `pending`. It takes the entry out again when the write fails, and
`recvMsg` takes out the entry of the sequence number it has decoded. So each entry has an Invoke that
will take it out, as long as each Invoke decodes the sequence number it sent.
-/

namespace Zrpc

variable {V T : Type}

/-- The sequence number whose entry an Invoke has still to take out of `pending`. After the write it
is the one of the last request on the connection. -/
def InvokeThread.awaits (s : ClientShared) (t : InvokeThread T) : Option UInt64 :=
  match t.pc, t.cells with
  | .write seq, _ | .unregister seq _, _ => some seq
  | .recv, cell :: _ => (s.conns[cell.conn]?.bind (fun k => k.sent.getLast?)).map SentRequest.seq
  | .settle res, _ => some res.header.seq
  | _, _ => none

/-- The goroutine is an Invoke that has not returned. -/
def Thread.inProgress : Thread T → Bool
  | .invoke t => match t.pc with
    | .done _ => false
    | _ => true
  | _ => false

/-- `Decode` succeeds on what the connection delivers, and finds the sequence number of the last
request on it. -/
def decodesLast (cfg : ClientConfig V T) (k : ClientConn) (n : Nat) (failure : GoString) : Bool :=
  match (recvFrame cfg k n failure).1 with
  | .ok res => k.sent.getLast?.map SentRequest.seq == some res.header.seq
  | .error _ => false

namespace Proofs

open Zrpc.Lib

/-- A step in which `recvMsg` decodes a response, if any, decodes one with the sequence number of the
request just written. -/
def DecodesLast (cfg : ClientConfig V T) (s : ClientState T) : ClientAction T → Prop
  | .run i (.read n failure) => ∀ th ∈ s.threads[i]?, ∀ c ∈ th.decodes, ∀ k ∈ s.shared.conns[c]?,
      decodesLast cfg k n failure = true
  | _ => True

instance (cfg : ClientConfig V T) (s : ClientState T) : ∀ a, Decidable (DecodesLast cfg s a)
  | .run i inp => match inp with
    | .read _ _ => inferInstanceAs (Decidable (∀ th ∈ s.threads[i]?, ∀ c ∈ th.decodes,
        ∀ k ∈ s.shared.conns[c]?, _))
    | .go | .fail _ | .addr _ | .deadline _ | .health _ | .targets _ => isTrue trivial
  | .invoke _ _ | .heartbeat | .close | .updateServers _ | .answer _ _ _ _ => isTrue trivial

/-! ### Entries of the map -/

section Steps

variable {cfg : ClientConfig V T} {s : ClientShared} {id : Nat} {inp : Input} {op : ClientOp}
  {seq v : UInt64}

lemma lookup_apply (h : (s.apply op).calls.pending.lookup seq = some v) :
    (s.calls.pending.lookup seq = some v ∧ op ≠ .unregister seq) ∨ op = .number seq ∧ v = seq := by
  cases op with
  | number seq' =>
    by_cases he : seq' = seq
    · subst he
      rw [ClientShared.apply, AList.lookup_insert] at h
      exact .inr ⟨rfl, (Option.some.inj h).symm⟩
    · rw [ClientShared.apply, AList.lookup_insert_ne (Ne.symm he)] at h
      exact .inl ⟨h, by simp⟩
  | unregister seq' =>
    by_cases he : seq' = seq
    · subst he
      rw [ClientShared.apply, AList.lookup_erase] at h
      cases h
    · rw [ClientShared.apply, AList.lookup_erase_ne (Ne.symm he)] at h
      exact .inl ⟨h, fun hop => he (ClientOp.unregister.inj hop)⟩
  | unlock clear =>
    cases clear with
    | true => cases h
    | false => exact .inl ⟨h, by simp⟩
  | _ => exact .inl ⟨h, by simp⟩

/-- Only a call that is about to be sent enters the map. -/
lemma threadStep_number {th th' : Thread T}
    (h : threadStep cfg s id th inp = some (.number seq, th')) :
    (∃ t, th = .invoke t ∧ th' = .invoke (t.goto (.write seq))) ∨
      ∃ pc, th = .heartbeat pc ∧ pc.sends = true := by
  cases threadStep_source h with
  | own _ hnumber _ => exact hnumber seq rfl
  | get hop _ _ | put hop _ _ | health hop _ _ | prewarm hop _ | closer hop _ => cases hop

lemma takePending_own {pending : Pending} (h : pending.lookup seq = some seq) :
    takePending pending seq = .ok (pending.erase seq) := by
  simp [takePending, h]

/-- An Invoke whose entry is in the map keeps awaiting it until it takes it out. -/
lemma invokeStep_awaits {t t' : InvokeThread T} (h : invokeStep cfg s id t inp = some (op, t'))
    (hl : s.calls.pending.lookup seq = some seq) (hop : op ≠ .unregister seq)
    (hread : ∀ n failure, inp = .read n failure → ∀ c ∈ (Thread.invoke t).decodes,
      ∀ k ∈ s.conns[c]?, decodesLast cfg k n failure = true)
    (ha : t.awaits s = some seq) : t'.awaits (s.apply op) = some seq := by
  obtain ⟨validMethod, replyType, retry, lastErr, cells, pc⟩ := t
  cases invokeStep_turn h with
  | write hcells hk =>
    obtain rfl : cells = _ := hcells
    cases ha
    simp [InvokeThread.awaits, InvokeThread.goto, ClientShared.apply, ClientShared.onConn, hk]
  | unwritten =>
    cases ha
    rfl
  | unregister =>
    cases ha
    exact absurd rfl hop
  | recv hcells hk _ hinp hres =>
    obtain rfl : cells = _ := hcells
    have hlast := hread _ _ hinp _ rfl _ hk
    simp only [InvokeThread.awaits, hk, Option.bind_some] at ha
    simp only [decodesLast, hres, beq_iff_eq, ha, Option.some.injEq] at hlast
    simp [InvokeThread.awaits, InvokeThread.goto, hlast]
  | unreceived hcells hk _ hinp hres _ =>
    obtain rfl : cells = _ := hcells
    have hlast := hread _ _ hinp _ rfl _ hk
    simp only [decodesLast, hres] at hlast
    cases hlast
  | settled =>
    cases ha
    exact absurd rfl hop
  | unsettled _ htake _ =>
    cases ha
    rw [takePending_own hl] at htake
    cases htake
  | _ => cases ha

/-- What an Invoke waits for depends on what was sent on the connection it decodes from. -/
lemma awaits_congr {t : InvokeThread T} {s' : ClientShared} (ha : t.awaits s = some seq)
    (hsent : ∀ c ∈ (Thread.invoke t).decodes, ∀ k, s.conns[c]? = some k →
      ∃ k', s'.conns[c]? = some k' ∧ k'.sent = k.sent) : t.awaits s' = some seq := by
  obtain ⟨validMethod, replyType, retry, lastErr, cells, pc⟩ := t
  cases pc with
  | recv =>
    cases cells with
    | nil => cases ha
    | cons cell rest =>
      simp only [InvokeThread.awaits] at ha ⊢
      cases hk : s.conns[cell.conn]? with
      | none =>
        rw [hk] at ha
        cases ha
      | some k =>
        obtain ⟨k', hk', hs⟩ := hsent cell.conn rfl k hk
        rw [hk] at ha
        rw [hk', Option.bind_some, hs]
        exact ha
  | _ => exact ha

lemma awaits_apply {t : InvokeThread T} (ha : t.awaits s = some seq)
    (hother : ∀ c ∈ (Thread.invoke t).decodes, op.used ≠ some c) :
    t.awaits (s.apply op) = some seq := by
  refine awaits_congr ha fun c hc k hk => ?_
  obtain ⟨k', hk', hm⟩ := wire_apply op hk
  refine ⟨k', hk', ?_⟩
  cases hm with
  | same hs _ _ | read _ hs _ _ => exact hs
  | send hop _ _ _ => exact absurd (by rw [hop]; rfl) (hother c hc)

lemma awaits_answer {t : InvokeThread T} {c request : Nat} {header : Header} {body : Bytes}
    {k k' : ClientConn} (hk : s.conns[c]? = some k) (hans : k.answer request header body = some k')
    (ha : t.awaits s = some seq) : t.awaits { s with conns := s.conns.set c k' } = some seq := by
  refine awaits_congr ha fun d _ l hl => ?_
  dsimp only
  by_cases hc : c = d
  · subst hc
    obtain ⟨_, _, _, _, rfl⟩ := answer_spec hans
    rw [hk] at hl
    refine ⟨_, List.getElem?_set_self (List.getElem?_eq_some_iff.mp hk).1, ?_⟩
    rw [Option.some.inj hl]
  · exact ⟨l, (List.getElem?_set_ne hc).trans hl, rfl⟩

end Steps

/-! ### Whole runs -/

structure Entries (s : ClientState T) : Prop where
  owned : Owned s
  senders : Senders s
  values : ∀ seq v, s.shared.calls.pending.lookup seq = some v → v = seq
  awaited : ∀ seq v, s.shared.calls.pending.lookup seq = some v →
    ∃ (i : Nat) (t : InvokeThread T), s.threads[i]? = some (.invoke t) ∧
      t.awaits s.shared = some seq

section Runs

variable {cfg : ClientConfig V T} {s : ClientState T}

lemma awaited_run (hs : Entries s) {i : Nat} {inp : Input} {th th' : Thread T} {op : ClientOp}
    (hi : s.threads[i]? = some th) (h : threadStep cfg s.shared i th inp = some (op, th'))
    (hok : DecodesLast cfg s (.run i inp)) {seq v : UInt64}
    (hl : (s.shared.apply op).calls.pending.lookup seq = some v) :
    ∃ (j : Nat) (t : InvokeThread T),
      (s.threads.set i th' ++ spawned s.shared op)[j]? = some (.invoke t) ∧
        t.awaits (s.shared.apply op) = some seq := by
  rcases lookup_apply hl with ⟨hold, hop⟩ | ⟨rfl, -⟩
  · obtain ⟨j, t, hj, ha⟩ := hs.awaited seq v hold
    cases hs.values seq v hold
    by_cases hij : i = j
    · subst hij
      cases hi.symm.trans hj
      cases threadStep_move h with
      | @invoke _ _ t' hr =>
        refine ⟨i, t', thread_run_self hi, invokeStep_awaits hr hold hop ?_ ha⟩
        rintro n failure rfl
        exact hok _ hi
    · refine ⟨j, t, thread_run_ne hj hij, awaits_apply ha (fun c hc hu => ?_)⟩
      obtain ⟨p, hp⟩ := hands_of_decodes hc
      obtain ⟨p', hp'⟩ := threadStep_used h hu
      exact hij (eq_of_hands hs.owned hi hj hp' hp)
  · rcases threadStep_number h with ⟨t, rfl, rfl⟩ | ⟨pc, rfl, hsends⟩
    · exact ⟨i, _, thread_run_self hi, rfl⟩
    · rw [hs.senders.silent pc (List.mem_of_getElem? hi)] at hsends
      cases hsends

lemma entries_step {t : ClientState T} {a : ClientAction T} (hs : Entries s)
    (hok : DecodesLast cfg s a) (h : clientStep cfg s a = some t) : Entries t := by
  have howned := owned_step hs.owned h
  have hsenders := senders_step hs.senders h
  cases clientStep_move h with
  | run hi hstep =>
    refine ⟨howned, hsenders, fun seq v hl => ?_, fun seq v hl => awaited_run hs hi hstep hok hl⟩
    rcases lookup_apply hl with ⟨hold, _⟩ | ⟨_, hv⟩
    · exact hs.values seq v hold
    · exact hv
  | answer hk hans =>
    refine ⟨howned, hsenders, hs.values, fun seq v hl => ?_⟩
    obtain ⟨i, u, hi, ha⟩ := hs.awaited seq v hl
    exact ⟨i, u, hi, awaits_answer hk hans ha⟩
  | start a =>
    refine ⟨howned, hsenders, hs.values, fun seq v hl => ?_⟩
    obtain ⟨i, u, hi, ha⟩ := hs.awaited seq v hl
    exact ⟨i, u, thread_start hi, ha⟩

lemma entries_init : Entries (.init : ClientState T) := by
  refine ⟨owned_init, senders_init, ?_, ?_⟩
  · intro seq v hl
    cases hl
  · intro seq v hl
    cases hl

lemma not_awaits_of_done {t : InvokeThread T} (h : (Thread.invoke t).inProgress = false)
    (sh : ClientShared) : t.awaits sh = none := by
  obtain ⟨validMethod, replyType, retry, lastErr, cells, pc⟩ := t
  cases pc with
  | done result => rfl
  | _ => cases h

end Runs

/-- In a run in which each `Decode` of `recvMsg` succeeds with the sequence number of the request
just written, the pending map is empty whenever no Invoke is in progress. -/
theorem pending_empty (cfg : ClientConfig V T) (acts : List (ClientAction T)) (s : ClientState T)
    (h : exec (clientStep cfg) .init acts = some s)
    (hok : Guarded (clientStep cfg) (DecodesLast cfg) .init acts)
    (hidle : ∀ th ∈ s.threads, th.inProgress = false) : s.shared.calls.pending = ∅ := by
  have hs := exec_invariant_guarded Entries (fun _ _ _ hs ho hstep => entries_step hs ho hstep)
    entries_init hok h
  have hnone : ∀ seq, s.shared.calls.pending.lookup seq = none := by
    intro seq
    by_contra hne
    obtain ⟨v, hv⟩ := Option.ne_none_iff_exists'.mp hne
    obtain ⟨i, t, hi, ha⟩ := hs.awaited seq v hv
    rw [not_awaits_of_done (hidle _ (List.mem_of_getElem? hi)) s.shared] at ha
    cases ha
  refine AList.ext (List.eq_nil_iff_forall_not_mem.mpr (fun x hx => ?_))
  have hmem : x.1 ∈ s.shared.calls.pending := List.mem_map_of_mem hx
  rw [← AList.lookup_isSome, hnone x.1] at hmem
  cases hmem

theorem pending_empty_answered : ∃ s : ClientState Unit,
    exec (clientStep smallClient) .init answeredCall = some s ∧
      (∃ th ∈ s.threads, returnedNil th = true) ∧ s.shared.calls.pending = ∅ := by
  have hrun : ∃ s ∈ exec (clientStep smallClient) .init answeredCall,
      (∃ th ∈ s.threads, returnedNil th = true) ∧ ∀ th ∈ s.threads, th.inProgress = false := by
    decide +kernel
  obtain ⟨s, hs, hnil, hidle⟩ := hrun
  exact ⟨s, hs, hnil, pending_empty smallClient answeredCall s hs (by decide +kernel) hidle⟩

theorem timedOutCall_leaks : ∃ s : ClientState Unit,
    exec (clientStep smallClient) .init timedOutCall = some s ∧ s.shared.closing = false ∧
      (∀ th ∈ s.threads, th.inProgress = false) ∧ s.shared.calls.pending ≠ ∅ := by
  refine ⟨_, rfl, rfl, by decide, fun he => ?_⟩
  have hnone := congrArg (fun m : Pending => m.lookup 1) he
  revert hnone
  decide

end Proofs
end Zrpc
