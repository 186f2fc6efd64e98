import Zrpc.Proofs.ClientWire

/-!
# Replies belong to their requests

`recvMsg` takes the next frame of its connection, whatever request it answers. As long as requests
are only written on connections with no response outstanding, the next frame answers the request
just written: the goroutine that wrote it owns the connection until it has read.
-/

namespace Zrpc

variable {V T : Type}

/-- Every request sent on the connection has been answered, and every answer has been read. -/
def ClientConn.Settled (k : ClientConn) : Prop :=
  (∀ j < k.sent.length, ∃ a ∈ k.answers, a.request = j) ∧ k.pos = k.stream.length

instance (k : ClientConn) : Decidable k.Settled :=
  inferInstanceAs (Decidable (_ ∧ _))

/-- The connection on which an Invoke is about to write its request. -/
def Thread.writes : Thread T → Option Nat
  | .invoke t => match t.pc, t.cells with
    | .write _, cell :: _ => some cell.conn
    | _, _ => none
  | _ => none

namespace Proofs

open Zrpc.Lib

/-- The response `m` is an answer on connection `k` to a request that goroutine `i` sent. -/
def AnswersTo (cfg : ClientConfig V T) (k : ClientConn) (i : Nat) (m : Message) : Prop :=
  ∃ a ∈ k.answers, ∃ r, k.sent[a.request]? = some r ∧ r.sender = i ∧
    (decode cfg.env cfg.maxReceiveMessageSize ⟨a.frame, ioEOF⟩).1 = .ok m

/-- The response `m` answers a request that goroutine `i` sent. -/
def OwnReply (cfg : ClientConfig V T) (s : ClientState T) (i : Nat) (m : Message) : Prop :=
  ∃ (c : Nat) (k : ClientConn), s.shared.conns[c]? = some k ∧ AnswersTo cfg k i m

/-- Goroutine `i` has written the last request on the connection; all earlier ones are answered and
read, and what is still to be read answers the last one. -/
def Awaiting (i : Nat) (k : ClientConn) : Prop :=
  ∃ old r done later, k.sent = old ++ [r] ∧ r.sender = i ∧ k.answers = done ++ later ∧
    k.pos = (done.flatMap Answer.frame).length ∧ (∀ j < old.length, ∃ a ∈ done, a.request = j) ∧
    ∀ a ∈ later, a.request = old.length

section Conn

variable {cfg : ClientConfig V T} {k k' : ClientConn} {i : Nat} {m : Message}

lemma awaiting_of_same (h : Awaiting i k) (hs : k'.sent = k.sent) (ha : k'.answers = k.answers)
    (hp : k'.pos = k.pos) : Awaiting i k' := by
  unfold Awaiting
  rw [hs, ha, hp]
  exact h

lemma awaiting_of_send {r : SentRequest} (h : k.Settled) (hr : r.sender = i)
    (hs : k'.sent = k.sent ++ [r]) (ha : k'.answers = k.answers) (hp : k'.pos = k.pos) :
    Awaiting i k' := by
  refine ⟨k.sent, r, k.answers, [], hs, hr, by rw [ha, List.append_nil], hp.trans h.2, h.1, ?_⟩
  intro a hmem
  cases hmem

lemma awaiting_of_answer {request : Nat} {header : Header} {body : Bytes} (h : Awaiting i k)
    (hans : k.answer request header body = some k') : Awaiting i k' := by
  obtain ⟨old, r, done, later, hs, hr, ha, hp, hall, hlater⟩ := h
  obtain ⟨hlt, hfresh, _, _, rfl⟩ := answer_spec hans
  refine ⟨old, r, done, later ++ [⟨request, frameBytes header body⟩], hs, hr, by simp [ha], hp, hall,
    ?_⟩
  intro a hmem
  rcases List.mem_append.mp hmem with hold | hnew
  · exact hlater a hold
  · have hreq : request = old.length := by
      by_contra hne
      rw [hs, List.length_append, List.length_singleton] at hlt
      obtain ⟨a', ha', he⟩ := hall request (by omega)
      exact hfresh a' (by simp [ha, ha']) he
    rw [List.mem_singleton.mp hnew]
    exact hreq

/-- What `recvMsg` decodes on an awaiting connection answers the request just written. -/
lemma answersTo_of_recvFrame {n : Nat} {failure : GoString} (h : Awaiting i k) (hf : Framed k)
    (hok : (recvFrame cfg k n failure).1 = .ok m) : AnswersTo cfg k i m := by
  obtain ⟨old, r, done, later, hs, hr, ha, hp, _, hlater⟩ := h
  have hdrop := stream_drop ha hp
  cases later with
  | nil =>
    rw [List.flatMap_nil] at hdrop
    simp [recvFrame, hdrop, decode, decodeWith, Reader.readFull, fail] at hok
  | cons a later =>
    obtain ⟨hd, body, hframe, hm, hlen⟩ := hf a (by simp [ha])
    rw [List.flatMap_cons, hframe] at hdrop
    refine ⟨a, by simp [ha], r, ?_, hr, ?_⟩
    · rw [hlater a (by simp), hs]
      simp
    · have hall := decode_more hok ((k.stream.drop k.pos).drop n) failure
      rw [List.take_append_drop, hdrop] at hall
      rw [hframe]
      exact decode_alone hm hlen hall

lemma answersTo_mono (h : AnswersTo cfg k i m) (hs : k.sent.IsPrefix k'.sent)
    (ha : k.answers ⊆ k'.answers) : AnswersTo cfg k' i m := by
  obtain ⟨a, hmem, r, hr, hsender, hdec⟩ := h
  obtain ⟨more, hmore⟩ := hs
  refine ⟨a, ha hmem, r, ?_, hsender, hdec⟩
  have hlt := (List.getElem?_eq_some_iff.mp hr).1
  rw [← hmore, List.getElem?_append_left hlt, hr]

end Conn

/-! ### Steps of a goroutine -/

section Steps

variable {cfg : ClientConfig V T} {s : ClientShared} {id : Nat} {inp : Input} {op : ClientOp}
  {m : Message}

/-- An Invoke accepts a response only when it decodes one. -/
lemma invokeStep_reply {t t' : InvokeThread T} (h : invokeStep cfg s id t inp = some (op, t'))
    (hr : t'.pc.reply = some m) : t.pc.reply = some m ∨
      ∃ c k n failure, (Thread.invoke t).decodes = some c ∧ s.conns[c]? = some k ∧
        (recvFrame cfg k n failure).1 = .ok m := by
  cases invokeStep_move h with
  | other hl => exact .inl (hl.reply m hr)
  | @get p g _ out hpc _ => cases out <;> cases hr
  | write _ _ _ _ => cases hr
  | closeConn _ _ => cases hr
  | @recv cell rest k n failure _ hpc hcells hk _ _ _ hreply =>
    exact .inr ⟨cell.conn, k, n, failure, by simp [Thread.decodes, hpc, hcells], hk, hreply m hr⟩
  | @put p g result _ out hpc _ =>
    refine .inl ?_
    rw [hpc]
    cases out with
    | some pc => exact hr
    | none =>
      cases result with
      | ok res => exact hr
      | error err => cases hr
  | @unwindPut p g result _ out hpc _ =>
    refine .inl ?_
    rw [hpc]
    cases out <;> exact hr

/-- An Invoke comes to `Decode` only by writing its request. -/
lemma threadStep_decodes {th th' : Thread T} {c : Nat}
    (h : threadStep cfg s id th inp = some (op, th')) (hd : th'.decodes = some c) :
    th.writes = some c ∧ inp = .go ∧ ∃ seq, op = .send c ⟨id, seq⟩ := by
  have hpc : ∀ {t : InvokeThread T}, (Thread.invoke t).decodes = some c → t.pc = .recv := by
    intro t ht
    simp only [Thread.decodes] at ht
    split at ht
    · assumption
    · cases ht
  cases threadStep_move h with
  | @invoke t _ t' hr =>
    have hrecv := hpc hd
    cases invokeStep_move hr with
    | other hl =>
      have hlocal := hl.pc
      rw [hrecv] at hlocal
      cases hlocal
    | @get p g _ out _ _ => cases out <;> cases hrecv
    | @write seq cell rest k hwrite hcells hk hinp =>
      have hconn : cell.conn = c := by simpa [Thread.decodes, InvokeThread.goto, hcells] using hd
      rw [← hconn]
      exact ⟨by simp [Thread.writes, hwrite, hcells], hinp, seq, rfl⟩
    | closeConn _ _ => cases hrecv
    | recv _ _ _ _ _ hlocal _ =>
      rw [hrecv] at hlocal
      cases hlocal
    | @put p g result _ out _ _ => cases out <;> cases result <;> cases hrecv
    | @unwindPut p g result _ out _ _ => cases out <;> cases hrecv
  | heartbeat _ => cases hd
  | prewarm _ => cases hd
  | closer _ => cases hd

lemma hands_of_decodes {th : Thread T} {c : Nat} (h : th.decodes = some c) : ∃ p, (p, c) ∈ th.hands := by
  cases th with
  | invoke t =>
    simp only [Thread.decodes] at h
    split at h
    · next cell rest hpc hcells =>
      cases h
      exact ⟨cell.pool, by simp [Thread.hands, InvokeThread.hands, hpc, hcells, usedAndDeferred]⟩
    · cases h
  | _ => cases h

end Steps

/-! ### Whole runs -/

/-- A step that writes a request only on a settled connection. -/
def SettledWrite (s : ClientState T) : ClientAction T → Prop
  | .run i .go => ∀ th ∈ s.threads[i]?, ∀ c ∈ th.writes, ∀ k ∈ s.shared.conns[c]?, k.Settled
  | _ => True

structure Replies (cfg : ClientConfig V T) (s : ClientState T) : Prop where
  owned : Owned s
  framed : ∀ (c : Nat) (k : ClientConn), s.shared.conns[c]? = some k → Framed k
  awaiting : ∀ (i : Nat) (th : Thread T) (c : Nat) (k : ClientConn), s.threads[i]? = some th →
    th.decodes = some c → s.shared.conns[c]? = some k → Awaiting i k
  reply : ∀ (i : Nat) (t : InvokeThread T) (m : Message), s.threads[i]? = some (.invoke t) →
    t.pc.reply = some m → OwnReply cfg s i m

section Runs

variable {cfg : ClientConfig V T} {s : ClientState T} {i : Nat} {m : Message}

lemma ownReply_run {op : ClientOp} {threads : List (Thread T)} (h : OwnReply cfg s i m) :
    OwnReply cfg ⟨s.shared.apply op, threads⟩ i m := by
  obtain ⟨c, k, hk, hans⟩ := h
  obtain ⟨k', hk', hmove⟩ := wire_apply op hk
  refine ⟨c, k', hk', ?_⟩
  cases hmove with
  | same hs ha _ =>
    exact answersTo_mono hans (hs ▸ List.prefix_rfl) (ha ▸ List.Subset.refl _)
  | send _ hs ha _ =>
    exact answersTo_mono hans (hs ▸ List.prefix_append _ _) (ha ▸ List.Subset.refl _)
  | read _ hs ha _ =>
    exact answersTo_mono hans (hs ▸ List.prefix_rfl) (ha ▸ List.Subset.refl _)

/-- A response stays an answer. -/
lemma ownReply_step {t : ClientState T} {a : ClientAction T} (hm : OwnReply cfg s i m)
    (h : clientStep cfg s a = some t) : OwnReply cfg t i m := by
  cases clientStep_move h with
  | run _ _ => exact ownReply_run hm
  | @answer d request header body k k' hk hans =>
    obtain ⟨c, l, hl, hto⟩ := hm
    by_cases hc : d = c
    · subst hc
      have he := Option.some.inj (hk.symm.trans hl)
      subst he
      have hself : (s.shared.conns.set d k')[d]? = some k' :=
        List.getElem?_set_self (List.getElem?_eq_some_iff.mp hk).1
      obtain ⟨_, _, _, _, rfl⟩ := answer_spec hans
      exact ⟨d, _, hself, answersTo_mono hto List.prefix_rfl (List.subset_append_left _ _)⟩
    · exact ⟨c, l, (List.getElem?_set_ne hc).trans hl, hto⟩
  | start a => exact hm

lemma framed_run {op : ClientOp} {c : Nat} {k : ClientConn} (hs : Replies cfg s)
    (hk : (s.shared.apply op).conns[c]? = some k) : Framed k := by
  refine wire_cases (P := Framed) (hs.framed c) framed_new ?_ hk
  intro k₁ k₂ _ hf hmove
  cases hmove with
  | same _ ha _ | send _ _ ha _ | read _ _ ha _ => exact framed_of_answers hf ha

lemma awaiting_run {inp : Input} {th th' x : Thread T} {op : ClientOp} {j c : Nat} {k : ClientConn}
    (hs : Replies cfg s) (hi : s.threads[i]? = some th)
    (h : threadStep cfg s.shared i th inp = some (op, th')) (hok : SettledWrite s (.run i inp))
    (hx : (s.threads.set i th' ++ spawned s.shared op)[j]? = some x) (hd : x.decodes = some c)
    (hk : (s.shared.apply op).conns[c]? = some k) : Awaiting j k := by
  rcases thread_of_run hx with ⟨rfl, rfl⟩ | ⟨hne, hj⟩ | hsp
  · obtain ⟨hw, rfl, seq, rfl⟩ := threadStep_decodes h hd
    obtain ⟨p, hp⟩ := threadStep_used h rfl
    obtain ⟨k₀, hk₀⟩ := conn_of_hands hs.owned hi hp
    have hk' : (s.shared.apply (.send c ⟨j, seq⟩)).conns[c]? =
        some { k₀ with sent := k₀.sent ++ [⟨j, seq⟩] } := by
      simp [ClientShared.apply, ClientShared.onConn, hk₀]
    have he := Option.some.inj (hk'.symm.trans hk)
    subst he
    exact awaiting_of_send (hok th hi c hw k₀ hk₀) rfl rfl rfl rfl
  · obtain ⟨p, hp⟩ := hands_of_decodes hd
    obtain ⟨k₀, hk₀⟩ := conn_of_hands hs.owned hj hp
    obtain ⟨k', hk', hmove⟩ := wire_apply op hk₀
    have he := Option.some.inj (hk'.symm.trans hk)
    subst he
    -- only the goroutine that has the connection in its hands writes to it or reads from it
    have hother : op.used ≠ some c := by
      intro hu
      obtain ⟨p', hp'⟩ := threadStep_used h hu
      exact hne (eq_of_hands hs.owned hj hi hp hp')
    cases hmove with
    | same hsent ha hpos => exact awaiting_of_same (hs.awaiting j x c k₀ hj hd hk₀) hsent ha hpos
    | send hop _ _ _ => exact absurd (by rw [hop]; rfl) hother
    | read hop _ _ _ => exact absurd (by rw [hop]; rfl) hother
  · cases op <;> simp [spawned] at hsp
    subst hsp
    cases hd

lemma reply_run {inp : Input} {th th' : Thread T} {op : ClientOp} {j : Nat} {t : InvokeThread T}
    (hs : Replies cfg s) (hi : s.threads[i]? = some th)
    (h : threadStep cfg s.shared i th inp = some (op, th'))
    (hx : (s.threads.set i th' ++ spawned s.shared op)[j]? = some (.invoke t))
    (hr : t.pc.reply = some m) : OwnReply cfg s j m := by
  rcases thread_of_run hx with ⟨rfl, rfl⟩ | ⟨_, hj⟩ | hsp
  · cases threadStep_move h with
    | @invoke t₀ _ _ hstep =>
      rcases invokeStep_reply hstep hr with hold | ⟨c, k, n, failure, hd, hk, hdec⟩
      · exact hs.reply j t₀ m hi hold
      · exact ⟨c, k, hk, answersTo_of_recvFrame (hs.awaiting j _ c k hi hd hk) (hs.framed c k hk) hdec⟩
  · exact hs.reply j t m hj hr
  · cases op <;> simp [spawned] at hsp

lemma replies_step {t : ClientState T} {a : ClientAction T} (hs : Replies cfg s)
    (hok : SettledWrite s a) (h : clientStep cfg s a = some t) : Replies cfg t := by
  have howned := owned_step hs.owned h
  cases clientStep_move h with
  | run hi hstep =>
    exact ⟨howned, fun _ _ hk => framed_run hs hk,
      fun _ _ _ _ hx hd hk => awaiting_run hs hi hstep hok hx hd hk,
      fun _ _ _ hx hr => ownReply_run (reply_run hs hi hstep hx hr)⟩
  | @answer d request header body k k' hk hans =>
    refine ⟨howned, ?_, ?_, ?_⟩
    · intro c l hl
      rcases getElem?_set_cases hl with ⟨-, rfl⟩ | ⟨-, hold⟩
      · exact framed_answer (hs.framed d k hk) hans
      · exact hs.framed c l hold
    · intro i th c l hth hd hl
      rcases getElem?_set_cases hl with ⟨rfl, rfl⟩ | ⟨-, hold⟩
      · exact awaiting_of_answer (hs.awaiting i th d k hth hd hk) hans
      · exact hs.awaiting i th c l hth hd hold
    · intro i u m hu hr
      exact ownReply_step (hs.reply i u m hu hr) h
  | start a =>
    have hold : ∀ {i : Nat} {x : Thread T}, (s.threads ++ newThread a)[i]? = some x →
        s.threads[i]? = some x ∨ x ∈ newThread a := by
      intro i x hx
      rw [List.getElem?_append] at hx
      split at hx
      · exact .inl hx
      · exact .inr (List.mem_of_getElem? hx)
    refine ⟨howned, hs.framed, ?_, ?_⟩
    · intro i th c l hth hd hl
      rcases hold hth with hi | hnew
      · exact hs.awaiting i th c l hi hd hl
      · cases a <;> simp [newThread] at hnew <;> subst hnew <;> cases hd
    · intro i u m hu hr
      rcases hold hu with hi | hnew
      · exact hs.reply i u m hi hr
      · cases a <;> simp [newThread] at hnew
        subst hnew
        cases hr

lemma replies_init : Replies cfg .init := by
  refine ⟨owned_init, ?_, ?_, ?_⟩
  · intro c k hk
    cases hk
  · intro i th c k hi
    cases hi
  · intro i t m hi
    cases hi

lemma replies_of_exec {acts : List (ClientAction T)} (h : exec (clientStep cfg) .init acts = some s)
    (hok : Guarded (clientStep cfg) SettledWrite .init acts) : Replies cfg s :=
  exec_invariant_guarded (Replies cfg) (fun _ _ _ hs ho hstep => replies_step hs ho hstep)
    replies_init hok h

end Runs

/-- In a run that writes requests only on connections whose earlier requests are all answered and
whose answers are all read, an Invoke that returns nil has unmarshalled the response to a request it
sent itself. -/
theorem reply_to_own_request (cfg : ClientConfig V T) (acts : List (ClientAction T))
    (s : ClientState T) (h : exec (clientStep cfg) .init acts = some s)
    (hok : Guarded (clientStep cfg) SettledWrite .init acts) (i : Nat) (t : InvokeThread T)
    (m : Message) (hi : s.threads[i]? = some (.invoke t)) (hdone : t.pc = .done (.ok m)) :
    OwnReply cfg s i m :=
  (replies_of_exec h hok).reply i t m hi (by rw [hdone]; rfl)

instance (s : ClientState T) : ∀ a, Decidable (SettledWrite s a)
  | .run i inp => match inp with
    | .go => inferInstanceAs (Decidable (∀ th ∈ s.threads[i]?, ∀ c ∈ th.writes,
        ∀ k ∈ s.shared.conns[c]?, k.Settled))
    | .fail _ | .addr _ | .deadline _ | .health _ | .read _ _ | .targets _ => isTrue trivial
  | .invoke _ _ | .heartbeat | .close | .updateServers _ | .answer _ _ _ _ => isTrue trivial

def returnedNil : Thread T → Bool
  | .invoke t => match t.pc with
    | .done (.ok _) => true
    | _ => false
  | _ => false

lemma done_of_returnedNil {th : Thread T} (h : returnedNil th = true) :
    ∃ t m, th = .invoke t ∧ t.pc = .done (.ok m) := by
  cases th with
  | invoke t =>
    simp only [returnedNil] at h
    split at h
    · next m hpc => exact ⟨t, m, rfl, hpc⟩
    · cases h
  | _ => cases h

theorem reply_to_own_request_answered : ∃ (s : ClientState Unit) (t : InvokeThread Unit) (m : Message),
    exec (clientStep smallClient) .init answeredCall = some s ∧ s.threads[0]? = some (.invoke t) ∧
      t.pc = .done (.ok m) ∧ OwnReply smallClient s 0 m := by
  have hrun : ∃ s ∈ exec (clientStep smallClient) .init answeredCall,
      ∃ th ∈ s.threads[0]?, returnedNil th = true := by
    decide +kernel
  obtain ⟨s, hs, th, hth, hnil⟩ := hrun
  obtain ⟨t, m, rfl, hdone⟩ := done_of_returnedNil hnil
  exact ⟨s, t, m, hs, hth, hdone,
    reply_to_own_request smallClient answeredCall s hs (by decide +kernel) 0 t m hth hdone⟩

/-- The first Invoke gives up waiting; the second one takes its connection, and then the response to
the first request arrives. -/
def staleReply : List (ClientAction Unit) :=
  dialOnly ++ [.run 0 .go, .run 0 (.read 0 (str "i/o timeout"))] ++ steps 0 6 ++ reuseConn ++
    [respond 0 1 [42], .run 2 (.read 4096 [])] ++ steps 2 7

theorem staleReply_not_own : ∃ (s : ClientState Unit) (t : InvokeThread Unit) (m : Message),
    exec (clientStep smallClient) .init staleReply = some s ∧ s.threads[2]? = some (.invoke t) ∧
      t.pc = .done (.ok m) ∧ ¬ OwnReply smallClient s 2 m := by
  have hrun : ∃ s ∈ exec (clientStep smallClient) .init staleReply,
      (∃ th ∈ s.threads[2]?, returnedNil th = true) ∧
        ∀ k ∈ s.shared.conns, ∀ a ∈ k.answers, ∀ r ∈ k.sent[a.request]?, r.sender ≠ 2 := by
    decide +kernel
  obtain ⟨s, hs, ⟨th, hth, hnil⟩, hsender⟩ := hrun
  obtain ⟨t, m, rfl, hdone⟩ := done_of_returnedNil hnil
  refine ⟨s, t, m, hs, hth, hdone, ?_⟩
  rintro ⟨c, k, hk, a, ha, r, hr, hi, _⟩
  exact hsender k (List.mem_of_getElem? hk) a ha r hr hi

end Proofs
end Zrpc
