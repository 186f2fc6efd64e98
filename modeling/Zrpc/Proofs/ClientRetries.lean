import Zrpc.Proofs.ClientHeartbeat
import Zrpc.Proofs.ClientReplies

/-!
# Retries

The loop of `invoke` goes on after every error of `recvMsg`, also after one with which the server
has answered the request. It does not send again once `recvMsg` has succeeded or the retries are
used up.
-/

namespace Zrpc

variable {V T : Type}

/-- The number of request frames that goroutine `i` has written. -/
def ClientShared.requestsBy (s : ClientShared) (i : Nat) : Nat :=
  (s.conns.map (fun k => k.sent.countP (fun r => r.sender == i))).sum

namespace Proofs

open Zrpc.Lib

/-- The message `m` is a response, and answers a request that goroutine `i` sent. -/
def OwnResponse (cfg : ClientConfig V T) (s : ClientState T) (i : Nat) (m : Message) : Prop :=
  OwnReply cfg s i m ∧ m.header.getMessageType = .response

/-- An Invoke that has decoded the response to a request of its own is in its last attempt, or the
rest of `recvMsg` succeeds: the sequence number is pending, the status is Normal and the payload
unmarshals. -/
def AcceptsOwn (cfg : ClientConfig V T) (s : ClientState T) : ClientAction T → Prop
  | .run i _ => ∀ t res, s.threads[i]? = some (.invoke t) → t.pc = .settle res →
      OwnResponse cfg s i res → cfg.maxRetries ≤ t.retry ∨
        (∃ pending, takePending s.shared.calls.pending res.header.seq = .ok pending) ∧
          ∃ v, readResponse cfg.proto t.replyType res = .ok v
  | _ => True

/-! ### The end of an Invoke -/

/-- The Invoke in goroutine `i` has received its response, and will not begin another attempt. -/
def Finishing (cfg : ClientConfig V T) (s : ClientState T) (i : Nat) (t : InvokeThread T) : Prop :=
  match t.pc with
  | .settle res => OwnResponse cfg s i res
  | .finish res => cfg.maxRetries ≤ t.retry ∨ ∃ v, readResponse cfg.proto t.replyType res = .ok v
  | .put _ _ result => cfg.maxRetries ≤ t.retry ∨ ∃ res, result = .ok res
  | .top => cfg.maxRetries < t.retry
  | .unwind _ | .unwindPut _ _ _ | .done _ => True
  | _ => False

section Steps

variable {cfg : ClientConfig V T} {s s' : ClientState T} {i : Nat} {inp : Input} {op : ClientOp}
  {t t' : InvokeThread T}

lemma putStep_ne_send {sh : ClientShared} {p : Nat} {g : PutPc} {out : Option PutPc}
    (h : putStep sh p g = some (op, out)) : ∀ c r, op ≠ .send c r := by
  rintro c r rfl
  cases putStep_isPut h

lemma finishing_of_startPut {result : Except GoString Message} (h : t.startPut result = some t')
    (hr : cfg.maxRetries ≤ t.retry ∨ ∃ res, result = .ok res) : Finishing cfg s i t' := by
  obtain ⟨hretry, p, g, hpc⟩ := startPut_put h
  unfold Finishing
  rw [hpc, hretry]
  exact hr

lemma finishing_mono (hf : Finishing cfg s i t)
    (hm : ∀ m, OwnReply cfg s i m → OwnReply cfg s' i m) : Finishing cfg s' i t := by
  unfold Finishing at *
  cases hpc : t.pc with
  | settle res =>
    rw [hpc] at hf
    exact ⟨hm res hf.1, hf.2⟩
  | _ =>
    rw [hpc] at hf
    exact hf

lemma finishing_run (h : invokeStep cfg s.shared i t inp = some (op, t'))
    (hi : s.threads[i]? = some (.invoke t)) (hf : Finishing cfg s i t)
    (hok : AcceptsOwn cfg s (.run i inp)) : (∀ c r, op ≠ .send c r) ∧ Finishing cfg s' i t' := by
  obtain ⟨validMethod, replyType, retry, lastErr, cells, pc⟩ := t
  cases invokeStep_turn h with
  | attempt hle | cancelled hle _ _ => exact absurd hle (not_le.mpr hf)
  | exhausted | unwound => exact ⟨by simp, trivial⟩
  | @settled res => exact ⟨by simp, (hok _ res hi rfl hf).imp_right And.right⟩
  | @unsettled res _ _ _ htake hput =>
    refine ⟨by simp, finishing_of_startPut hput (.inl ?_)⟩
    rcases hok _ res hi rfl hf with hlast | ⟨⟨pending, hpending⟩, _⟩
    · exact hlast
    · rw [htake] at hpending
      cases hpending
  | @finish res _ hput =>
    refine ⟨by simp, finishing_of_startPut hput (Or.imp_right ?_ hf)⟩
    rintro ⟨v, hv⟩
    exact ⟨res, by rw [hv]; rfl⟩
  | @put _ _ result _ out hput =>
    refine ⟨putStep_ne_send hput, ?_⟩
    cases out with
    | some g => exact hf
    | none =>
      cases result with
      | ok res => trivial
      | error err =>
        rcases hf with hlast | ⟨res, hres⟩
        · simp only [Finishing, InvokeThread.afterPutStep, InvokeThread.afterPut,
            InvokeThread.continueWith] at hlast ⊢
          omega
        · cases hres
  | @unwind _ cell =>
    refine ⟨by simp, ?_⟩
    cases cell.connReleased <;> trivial
  | @unwindPut _ _ _ _ out hput =>
    refine ⟨putStep_ne_send hput, ?_⟩
    cases out <;> trivial
  | _ => exact hf.elim

end Steps

/-! ### Counting request frames -/

section Requests

variable {s : ClientShared} {i : Nat}

/-- The share of a connection in `requestsBy`. -/
def requestShare (i : Nat) (k : ClientConn) : Nat := k.sent.countP (fun r => r.sender == i)

lemma requestsBy_eq (s : ClientShared) (i : Nat) :
    s.requestsBy i = tally (fun _ => requestShare i) s.conns :=
  (tally_const _ _).symm

lemma requestsBy_onConn {c : Nat} {f : ClientConn → ClientConn}
    (hf : ∀ k, requestShare i (f k) = requestShare i k) :
    (s.onConn c f).requestsBy i = s.requestsBy i := by
  rw [requestsBy_eq, requestsBy_eq]
  cases hk : s.conns[c]? with
  | none =>
    unfold ClientShared.onConn
    rw [modify_of_none hk]
  | some k =>
    have hm := tally_modify (f := fun _ => requestShare i) hk f
    rw [hf k] at hm
    exact Nat.add_right_cancel hm

lemma requestsBy_addConn (p : Nat) : (s.addConn p).requestsBy i = s.requestsBy i := by
  simp [ClientShared.requestsBy, ClientShared.addConn, ClientConn.new]

/-- Only the goroutine itself adds to its requests. -/
lemma requestsBy_apply {op : ClientOp} (h : ∀ c r, op = .send c r → r.sender ≠ i) :
    (s.apply op).requestsBy i = s.requestsBy i := by
  cases op with
  | dial p | create p => exact requestsBy_addConn p
  | mark c status | read c n => exact requestsBy_onConn (fun _ => rfl)
  | close c | closeCounted p c =>
    refine requestsBy_onConn (fun k => ?_)
    unfold requestShare
    rw [(close_fields k).2.1]
  | send c r =>
    refine requestsBy_onConn (fun k => ?_)
    simp [requestShare, List.countP_append, h c r rfl]
  | _ => rfl

lemma requestsBy_answer {c request : Nat} {header : Header} {body : Bytes} {k k' : ClientConn}
    (hk : s.conns[c]? = some k) (hans : k.answer request header body = some k') :
    ClientShared.requestsBy { s with conns := s.conns.set c k' } i = s.requestsBy i := by
  obtain ⟨_, _, _, _, rfl⟩ := answer_spec hans
  have hset := tally_set (f := fun _ => requestShare i) hk
    { k with answers := k.answers ++ [⟨request, frameBytes header body⟩] }
  rw [requestsBy_eq, requestsBy_eq]
  exact Nat.add_right_cancel hset

end Requests

/-! ### Whole runs -/

section Runs

variable {cfg : ClientConfig V T} {s t : ClientState T} {i n : Nat}

/-- The Invoke in goroutine `i` is finishing after `n` request frames. -/
def FinishingAfter (cfg : ClientConfig V T) (i n : Nat) (s : ClientState T) : Prop :=
  (∃ u, s.threads[i]? = some (.invoke u) ∧ Finishing cfg s i u) ∧ s.shared.requestsBy i = n

lemma finishingAfter_step {a : ClientAction T} (hs : FinishingAfter cfg i n s)
    (hok : AcceptsOwn cfg s a) (h : clientStep cfg s a = some t) : FinishingAfter cfg i n t := by
  obtain ⟨⟨u, hu, hf⟩, hn⟩ := hs
  have hkeep : Finishing cfg t i u := finishing_mono hf (fun _ hm => ownReply_step hm h)
  cases clientStep_move h with
  | @run j inp th op th' hj hstep =>
    by_cases hji : j = i
    · subst hji
      cases hu.symm.trans hj
      cases threadStep_move hstep with
      | @invoke _ _ u' hr =>
        obtain ⟨hop, hf'⟩ := finishing_run hr hu hf hok
        refine ⟨⟨u', thread_run_self hu, hf'⟩, ?_⟩
        rw [← hn]
        exact requestsBy_apply (fun c r he => absurd he (hop c r))
    · refine ⟨⟨u, thread_run_ne hu hji, hkeep⟩, ?_⟩
      rw [← hn]
      refine requestsBy_apply (fun c r he => ?_)
      subst he
      rw [(threadStep_send hstep).1]
      exact hji
  | answer hk hans => exact ⟨⟨u, hu, hkeep⟩, (requestsBy_answer hk hans).trans hn⟩
  | start a => exact ⟨⟨u, thread_start hu, hkeep⟩, hn⟩

end Runs

/-- Once an Invoke has decoded the response to a request of its own, it sends no further request,
provided that the rest of `recvMsg` accepts such responses in all but the last attempt. -/
theorem answered_not_resent (cfg : ClientConfig V T) (s t : ClientState T)
    (rest : List (ClientAction T)) (h : exec (clientStep cfg) s rest = some t)
    (hok : Guarded (clientStep cfg) (AcceptsOwn cfg) s rest) (i : Nat) (u : InvokeThread T)
    (res : Message) (hi : s.threads[i]? = some (.invoke u)) (hpc : u.pc = .settle res)
    (hown : OwnResponse cfg s i res) : t.shared.requestsBy i = s.shared.requestsBy i := by
  have hstart : FinishingAfter cfg i (s.shared.requestsBy i) s := by
    refine ⟨⟨u, hi, ?_⟩, rfl⟩
    unfold Finishing
    rw [hpc]
    exact hown
  exact (exec_invariant_guarded (FinishingAfter cfg i (s.shared.requestsBy i))
    (fun _ _ _ hs ho hstep => finishingAfter_step hs ho hstep) hstart hok h).2

/-- A client with pools of size 2 that retries once. -/
def retryingClient : ClientConfig Bytes Unit := ⟨storedEnv, bytesProto, 1, 2, 4096, Nat.two_pos⟩

/-- An Invoke writes its request and decodes the server's answer, which has the given flags. -/
def receive (flags : UInt8) : List (ClientAction Unit) :=
  dialOnly ++ [.run 0 .go, .answer 0 0 ⟨magicNumber, 0, flags, 1⟩ (bodyBytes [] [] [] [42]),
    .run 0 (.read 4096 [])]

/-- What an Invoke has decoded. -/
def decoded : Thread T → Option Message
  | .invoke t => match t.pc with
    | .settle res => some res
    | _ => none
  | _ => none

lemma settle_of_decoded {th : Thread T} {res : Message} (h : decoded th = some res) :
    ∃ t, th = .invoke t ∧ t.pc = .settle res := by
  cases th with
  | invoke t =>
    simp only [decoded] at h
    split at h
    · next hpc =>
      cases h
      exact ⟨t, rfl, hpc⟩
    · cases h
  | _ => cases h

/-- The rest of `recvMsg` succeeds on what the goroutine has decoded. -/
def acceptsDecoded (cfg : ClientConfig V T) (s : ClientState T) : ClientAction T → Bool
  | .run i _ => match s.threads[i]? with
    | some (.invoke t) => match t.pc with
      | .settle res => (takePending s.shared.calls.pending res.header.seq).toBool &&
          (readResponse cfg.proto t.replyType res).toBool
      | _ => true
    | _ => true
  | _ => true

lemma exists_ok_of_toBool {ε α : Type} {x : Except ε α} (h : x.toBool = true) : ∃ a, x = .ok a := by
  cases x with
  | ok a => exact ⟨a, rfl⟩
  | error e => cases h

lemma acceptsOwn_of_decoded {cfg : ClientConfig V T} {s : ClientState T} {a : ClientAction T}
    (h : acceptsDecoded cfg s a = true) : AcceptsOwn cfg s a := by
  cases a with
  | run i inp =>
    intro t res hi hpc _
    simp only [acceptsDecoded, hi, hpc, Bool.and_eq_true] at h
    exact .inr ⟨exists_ok_of_toBool h.1, exists_ok_of_toBool h.2⟩
  | _ => trivial

theorem answered_not_resent_normal : ∃ (s t : ClientState Unit) (u : InvokeThread Unit)
    (res : Message), exec (clientStep retryingClient) .init (receive 0x80) = some s ∧
      exec (clientStep retryingClient) s (steps 0 7) = some t ∧
      s.threads[0]? = some (.invoke u) ∧ u.pc = .settle res ∧ OwnResponse retryingClient s 0 res ∧
      t.shared.requestsBy 0 = s.shared.requestsBy 0 := by
  have hrun : ∃ s ∈ exec (clientStep retryingClient) .init (receive 0x80),
      ∃ t ∈ exec (clientStep retryingClient) s (steps 0 7),
        (∃ th ∈ s.threads[0]?, ∃ res ∈ decoded th, res.header.getMessageType = .response) ∧
        Guarded (clientStep retryingClient) (fun s a => acceptsDecoded retryingClient s a = true) s
          (steps 0 7) := by
    decide +kernel
  obtain ⟨s, hs, t, ht, ⟨th, hth, res, hres, htype⟩, hok⟩ := hrun
  obtain ⟨u, rfl, hpc⟩ := settle_of_decoded hres
  have hown : OwnResponse retryingClient s 0 res :=
    ⟨(replies_of_exec hs (by decide +kernel)).reply 0 u res hth (by rw [hpc]; rfl), htype⟩
  exact ⟨s, t, u, res, hs, ht, hth, hpc, hown, answered_not_resent retryingClient s t (steps 0 7) ht
    (hok.mono (fun _ _ => acceptsOwn_of_decoded)) 0 u res hth hpc hown⟩

/-- The Invoke returns its connection, takes it again for the second attempt and writes. -/
def secondAttempt : List (ClientAction Unit) :=
  steps 0 5 ++ findPool 0 ++ steps 0 3 ++ [.run 0 (.health .fresh)] ++ steps 0 6

theorem errorResponse_resent : ∃ (s t : ClientState Unit) (u : InvokeThread Unit) (res : Message),
    exec (clientStep retryingClient) .init (receive 0xC0) = some s ∧
      exec (clientStep retryingClient) s secondAttempt = some t ∧
      s.threads[0]? = some (.invoke u) ∧ u.pc = .settle res ∧ OwnResponse retryingClient s 0 res ∧
      res.header.getMessageStatusType = .error ∧
      s.shared.requestsBy 0 = 1 ∧ t.shared.requestsBy 0 = 2 := by
  have hrun : ∃ s ∈ exec (clientStep retryingClient) .init (receive 0xC0),
      ∃ t ∈ exec (clientStep retryingClient) s secondAttempt,
        (∃ th ∈ s.threads[0]?, ∃ res ∈ decoded th, res.header.getMessageType = .response ∧
          res.header.getMessageStatusType = .error) ∧
        s.shared.requestsBy 0 = 1 ∧ t.shared.requestsBy 0 = 2 := by
    decide +kernel
  obtain ⟨s, hs, t, ht, ⟨th, hth, res, hres, htype, hstatus⟩, hone, htwo⟩ := hrun
  obtain ⟨u, rfl, hpc⟩ := settle_of_decoded hres
  have hown : OwnResponse retryingClient s 0 res :=
    ⟨(replies_of_exec hs (by decide +kernel)).reply 0 u res hth (by rw [hpc]; rfl), htype⟩
  exact ⟨s, t, u, res, hs, ht, hth, hpc, hown, hstatus, hone, htwo⟩

end Proofs
end Zrpc
