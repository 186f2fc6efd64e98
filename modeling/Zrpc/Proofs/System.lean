import Zrpc.Proofs.RequestNumbers
import Zrpc.Proofs.SystemWire

/-!
# The invariant of a client and its servers

In every run of a client with all its goroutines and of any number of servers with theirs, the two
ends of a connection agree: the server has read the first of the requests that the client wrote, and
what the client has got are the first of the responses that the server wrote.
-/

namespace Zrpc.Proofs

open Zrpc.Lib

variable {V T : Type}

/-! ### The two ends of a connection -/

/-- The message was made for the call of the goroutine that sent it. -/
def Prepared (cfg : SystemConfig V T) (calls : Nat → Option (Call V)) (r : SentRequest)
    (m : Message) : Prop :=
  Carried cfg.client.env m ∧ ∃ call order ctx req, calls r.sender = some call ∧
    prepareMessage cfg.client.env cfg.client.proto order call ctx = .ok req ∧
    m = stampRequest r.seq req

/-- What the client has sent is what the server reads, and what the client has got are the first
writes of the server. -/
structure Wired (cfg : SystemConfig V T) (calls : Nat → Option (Call V))
    (servers : List StreamState) (l : Link) (k : ClientConn) : Prop where
  requests : List.Forall₂ (Prepared cfg calls) k.sent l.requests
  bytes : l.written = l.requests.flatMap (frameOf cfg.client.env cfg.clientChoice)
  own : ∀ a ∈ k.answers, ∃ r, k.sent[a.request]? = some r ∧ (wireHeader a.frame).seq = r.seq
  unaccepted : l.peer = none → k.answers = []
  accepted : ∀ j p, l.peer = some (j, p) → ∃ t b, servers[j]? = some t ∧ t.inbound[p]? = some b ∧
    b.whole = l.written ∧
    k.answers.map Answer.frame <+: (t.write.writesOn p).map ConnWrite.frame

section Wired

variable {cfg : SystemConfig V T} {calls calls' : Nat → Option (Call V)}
  {servers servers' : List StreamState} {l : Link} {k k' : ClientConn}

lemma wired_new (cfg : SystemConfig V T) (calls : Nat → Option (Call V))
    (servers : List StreamState) (hsent : k.sent = []) (hanswers : k.answers = []) :
    Wired cfg calls servers .new k := by
  refine ⟨?_, rfl, ?_, fun _ => hanswers, fun j p hpeer => ?_⟩
  · rw [hsent]
    exact .nil
  · rw [hanswers]
    intro a ha
    cases ha
  · cases hpeer

lemma Wired.congr (h : Wired cfg calls servers l k) (hsent : k'.sent = k.sent)
    (hanswers : k'.answers = k.answers) : Wired cfg calls servers l k' := by
  obtain ⟨hreq, hbytes, hown, hun, hacc⟩ := h
  rw [← hsent] at hreq hown
  rw [← hanswers] at hown hun hacc
  exact ⟨hreq, hbytes, hown, hun, hacc⟩

lemma Wired.of_calls (h : Wired cfg calls servers l k)
    (hcalls : ∀ i call, calls i = some call → calls' i = some call) :
    Wired cfg calls' servers l k := by
  refine ⟨h.requests.imp ?_, h.bytes, h.own, h.unaccepted, h.accepted⟩
  rintro r m ⟨hm, call, order, ctx, req, hcall, hrest⟩
  exact ⟨hm, call, order, ctx, req, hcalls _ _ hcall, hrest⟩

/-- The server at the other end goes on. -/
lemma Wired.of_servers (h : Wired cfg calls servers l k)
    (hservers : ∀ j p t b, l.peer = some (j, p) → servers[j]? = some t → t.inbound[p]? = some b →
      ∃ t' b', servers'[j]? = some t' ∧ t'.inbound[p]? = some b' ∧ b'.whole = b.whole ∧
        t.write.log <+: t'.write.log) : Wired cfg calls servers' l k := by
  refine ⟨h.requests, h.bytes, h.own, h.unaccepted, fun j p hpeer => ?_⟩
  obtain ⟨t, b, ht, hb, hwhole, hwrites⟩ := h.accepted j p hpeer
  obtain ⟨t', b', ht', hb', hwhole', hlog⟩ := hservers j p t b hpeer ht hb
  refine ⟨t', b', ht', hb', hwhole'.trans hwhole, hwrites.trans ?_⟩
  exact (hlog.filter _).map _

end Wired

/-! ### Steps of the client -/

/-- What a step of the client does to what is on one of its connections. -/
inductive LineMove (s : ClientState T) (a : ClientAction T) (c : Nat) (k k' : ClientConn) : Prop
  | same (hsent : k'.sent = k.sent) (hanswers : k'.answers = k.answers)
  | send {i th seq} (ha : a = .run i .go) (hi : s.threads[i]? = some th)
    (hth : th.sending = some (c, seq)) (hsent : k'.sent = k.sent ++ [⟨i, seq⟩])
    (hanswers : k'.answers = k.answers)
  | answer {request header body} (ha : a = .answer c request header body)
    (h : k.answer request header body = some k')

section Client

variable {cfg : ClientConfig V T} {s t : ClientState T} {a : ClientAction T} {c : Nat}
  {k' : ClientConn}

/-- A connection was there before the step, or nothing is on it yet. -/
lemma clientStep_line (h : clientStep cfg s a = some t) (hk' : t.shared.conns[c]? = some k') :
    (∃ k, s.shared.conns[c]? = some k ∧ LineMove s a c k k') ∨
      s.shared.conns[c]? = none ∧ k'.sent = [] ∧ k'.answers = [] := by
  cases clientStep_move h with
  | @run i inp th op th' hi hstep =>
    cases hk : s.shared.conns[c]? with
    | none =>
      obtain ⟨p, rfl, -⟩ := conns_apply_new hk hk'
      exact .inr ⟨rfl, rfl, rfl⟩
    | some k =>
      obtain ⟨k₁, hk₁, hmove⟩ := wire_apply op hk
      cases hk₁.symm.trans hk'
      refine .inl ⟨k, rfl, ?_⟩
      cases hmove with
      | same hs ha _ => exact .same hs ha
      | read _ hs ha _ => exact .same hs ha
      | @send r hop hs ha _ =>
        cases threadStep_numbers hstep with
        | number hop' _ _ => cases hop.symm.trans hop'
        | send hop' hth hinp _ =>
          cases hop.symm.trans hop'
          exact .send (by rw [hinp]) hi hth hs ha
        | other hop' _ =>
          rw [hop] at hop'
          cases hop'
  | @answer d request header body k₀ k₁ hk₀ hans =>
    rcases getElem?_set_cases hk' with ⟨rfl, rfl⟩ | ⟨-, hold⟩
    · exact .inl ⟨k₀, hk₀, .answer rfl hans⟩
    · exact .inl ⟨k', hold, .same rfl rfl⟩
  | start a => exact .inl ⟨k', hk', .same rfl rfl⟩

lemma length_conns_le (h : clientStep cfg s a = some t) :
    s.shared.conns.length ≤ t.shared.conns.length := by
  cases clientStep_move h with
  | run _ _ => exact apply_conns_length _ _
  | answer _ _ => exact (List.length_set ..).ge
  | start a => exact le_refl _

lemma length_threads_le (h : clientStep cfg s a = some t) :
    s.threads.length ≤ t.threads.length := by
  cases clientStep_move h with
  | run _ _ =>
    rw [List.length_append, List.length_set]
    exact Nat.le_add_right _ _
  | answer _ _ => exact le_refl _
  | start a =>
    rw [List.length_append]
    exact Nat.le_add_right _ _

lemma settledWrite_of_quiet {i : Nat} {inp : Input}
    (h : ∀ th, s.threads[i]? = some th → inp = .go → th.sending = none) :
    SettledWrite s (.run i inp) := by
  cases inp with
  | go =>
    intro th hth c hc k hk
    have hnone := h th hth rfl
    cases th with
    | invoke t =>
      simp only [Thread.writes] at hc
      simp only [Thread.sending] at hnone
      split at hc
      · next hpc hcells =>
        rw [hpc, hcells] at hnone
        cases hnone
      · cases hc
    | _ => cases hc
  | _ => trivial

/-- The goroutine that is about to write does so. -/
lemma threadStep_sending {sh : ClientShared} {id : Nat} {th th' : Thread T} {op : ClientOp}
    {seq : UInt64} (h : threadStep cfg sh id th .go = some (op, th'))
    (hth : th.sending = some (c, seq)) : op = .send c ⟨id, seq⟩ ∧ ∃ k, sh.conns[c]? = some k := by
  cases threadStep_move h with
  | @invoke t _ _ hr =>
    obtain ⟨validMethod, replyType, retry, lastErr, cells, pc⟩ := t
    simp only [Thread.sending] at hth
    split at hth <;> cases hth
    cases invokeStep_turn hr with
    | write hcells hk =>
      cases hcells
      exact ⟨rfl, _, hk⟩
    | unwritten _ hinp => cases hinp
  | heartbeat hr =>
    cases heartbeatStep_turn hr with
    | write hk =>
      cases hth
      exact ⟨rfl, _, hk⟩
    | unwritten _ hinp => cases hinp
    | _ => cases hth
  | prewarm => cases hth
  | closer => cases hth

/-- What `conn.Write` of a request does. -/
lemma clientStep_send {i : Nat} {th : Thread T} {seq : UInt64}
    (h : clientStep cfg s (.run i .go) = some t) (hi : s.threads[i]? = some th)
    (hth : th.sending = some (c, seq)) :
    ∃ k, s.shared.conns[c]? = some k ∧ t.shared.conns[c]? = some { k with sent := k.sent ++ [⟨i, seq⟩] } ∧
      ∀ d, d ≠ c → t.shared.conns[d]? = s.shared.conns[d]? := by
  obtain ⟨th₀, op, th', hi', hstep, rfl⟩ := clientStep_run h
  cases hi.symm.trans hi'
  obtain ⟨rfl, k, hk⟩ := threadStep_sending hstep hth
  refine ⟨k, hk, ?_, fun d hd => ?_⟩
  · simp [ClientShared.apply, ClientShared.onConn, hk]
  · simp [ClientShared.apply, ClientShared.onConn, Ne.symm hd]

end Client

/-! ### Whole runs -/

/-- The client has numbers left; a request is written on a connection whose earlier requests are all
answered and whose answers are all read, and fits the frame format; a server reads it into memory of
its own. -/
def SystemOk (cfg : SystemConfig V T) (s : System V T) (a : SystemAction V T) : Prop :=
  s.client.shared.calls.sequence.toNat + 1 < 2 ^ 64 ∧
    match a with
    | .send i order ctx => SettledWrite s.client (.run i .go) ∧
      ∀ target ∈ s.sending i, ∀ call ∈ s.calls i,
        ∀ r ∈ (cfg.request order ctx call target.2).toOption, Carried cfg.client.env r.1
    | .server j a => ∀ t ∈ s.servers[j]?,
      OwnFrames cfg.client.env (cfg.server j).opt.maxReceiveMessageSize t a
    | _ => True

structure SystemInv (cfg : SystemConfig V T) (s : System V T) : Prop where
  replies : Replies cfg.client s.client
  numbered : Numbered s.client
  returned : Accepted cfg.client s.client
  callers : ∀ i, s.client.threads.length ≤ i → s.calls i = none
  streams : ∀ (j : Nat) (t : StreamState), s.servers[j]? = some t →
    StreamInv cfg.client.env cfg.client.proto (cfg.server j) cfg.serverChoice t
  links : s.links.length = s.client.shared.conns.length
  wired : ∀ (c : Nat) (l : Link) (k : ClientConn), s.links[c]? = some l →
    s.client.shared.conns[c]? = some k → Wired cfg s.calls s.servers l k
  peers : ∀ (c c' : Nat) (l l' : Link) (peer : Nat × Nat), s.links[c]? = some l →
    s.links[c']? = some l' → l.peer = some peer → l'.peer = some peer → c = c'

section Runs

variable {cfg : SystemConfig V T} {s t : System V T}

lemma clientTurn_eq_some {a : ClientAction T} (h : s.clientTurn cfg a = some t) :
    ∃ c, clientStep cfg.client s.client a = some c ∧ t = { s with
      client := c
      links := s.links ++ List.replicate (c.shared.conns.length - s.links.length) .new } := by
  unfold System.clientTurn at h
  split at h
  · next c hc => exact ⟨c, hc, (Option.some.inj h).symm⟩
  · cases h

/-- The links after a step of the client. -/
lemma turn_cases {a : ClientAction T} {c : ClientState T} {x : Nat} {l : Link} {k' : ClientConn}
    (hs : SystemInv cfg s) (hc : clientStep cfg.client s.client a = some c)
    (hl : (s.links ++ List.replicate (c.shared.conns.length - s.links.length) .new)[x]? = some l)
    (hk' : c.shared.conns[x]? = some k') :
    (∃ k, s.links[x]? = some l ∧ s.client.shared.conns[x]? = some k ∧ LineMove s.client a x k k') ∨
      s.links[x]? = none ∧ l = .new ∧ k'.sent = [] ∧ k'.answers = [] := by
  rw [List.getElem?_append] at hl
  split at hl
  · next hlt =>
    rcases clientStep_line hc hk' with ⟨k, hk, hmove⟩ | ⟨hnone, -⟩
    · exact .inl ⟨k, hl, hk, hmove⟩
    · rw [List.getElem?_eq_getElem (hs.links ▸ hlt)] at hnone
      cases hnone
  · next hlt =>
    have hnone := List.getElem?_eq_none (not_lt.mp hlt)
    have hnew := List.eq_of_mem_replicate (List.mem_of_getElem? hl)
    rcases clientStep_line hc hk' with ⟨k, hk, -⟩ | ⟨-, hsent, hanswers⟩
    · exact absurd (hs.links ▸ (List.getElem?_eq_some_iff.mp hk).1) hlt
    · exact .inr ⟨hnone, hnew, hsent, hanswers⟩

lemma turn_peers {n : Nat} (hs : SystemInv cfg s) (x y : Nat) (l l' : Link) (peer : Nat × Nat)
    (hl : (s.links ++ List.replicate n .new)[x]? = some l)
    (hl' : (s.links ++ List.replicate n .new)[y]? = some l') (hpeer : l.peer = some peer)
    (hpeer' : l'.peer = some peer) : x = y := by
  have hold : ∀ {x : Nat} {l : Link}, (s.links ++ List.replicate n Link.new)[x]? = some l →
      l.peer = some peer → s.links[x]? = some l := by
    intro x l hl hpeer
    rw [List.getElem?_append] at hl
    split at hl
    · exact hl
    · rw [List.eq_of_mem_replicate (List.mem_of_getElem? hl)] at hpeer
      cases hpeer
  exact hs.peers x y l l' peer (hold hl hpeer) (hold hl' hpeer') hpeer hpeer'

/-- A step of the client keeps the invariant if it keeps the two ends of each connection wired. -/
lemma systemInv_turn {a : ClientAction T} (hs : SystemInv cfg s)
    (hwrap : s.client.shared.calls.sequence.toNat + 1 < 2 ^ 64) (hok : SettledWrite s.client a)
    (h : s.clientTurn cfg a = some t)
    (hwired : ∀ c l k k', s.links[c]? = some l → s.client.shared.conns[c]? = some k →
      LineMove s.client a c k k' → Wired cfg s.calls s.servers l k') : SystemInv cfg t := by
  obtain ⟨c, hc, rfl⟩ := clientTurn_eq_some h
  have hconns := length_conns_le hc
  have hthreads := length_threads_le hc
  refine ⟨replies_step hs.replies hok hc, numbered_step hs.numbered hwrap hc,
    accepted_step hs.returned hc, fun i hi => hs.callers i (hthreads.trans hi), hs.streams, ?_,
    fun x l k hl hk => ?_, turn_peers hs⟩
  · dsimp only
    rw [List.length_append, List.length_replicate, hs.links]
    omega
  · rcases turn_cases hs hc hl hk with ⟨k₀, hl₀, hk₀, hmove⟩ | ⟨-, rfl, hsent, hanswers⟩
    · exact hwired x l k₀ k hl₀ hk₀ hmove
    · exact wired_new cfg _ _ hsent hanswers

/-- A step of the client that writes no request and gets no response. -/
lemma systemInv_quiet {a : ClientAction T} (hs : SystemInv cfg s)
    (hwrap : s.client.shared.calls.sequence.toNat + 1 < 2 ^ 64) (hok : SettledWrite s.client a)
    (hsend : ∀ i th, a = .run i .go → s.client.threads[i]? = some th → th.sending = none)
    (hanswer : ∀ c request header body, a ≠ .answer c request header body)
    (h : s.clientTurn cfg a = some t) : SystemInv cfg t := by
  refine systemInv_turn hs hwrap hok h fun c l k k' hl hk hmove => ?_
  cases hmove with
  | same hsent hanswers => exact (hs.wired c l k hl hk).congr hsent hanswers
  | send ha hi hth _ _ => cases (hsend _ _ ha hi).symm.trans hth
  | answer ha _ => exact absurd ha (hanswer _ _ _ _)

/-- A step of the client that starts a goroutine. -/
lemma systemInv_new {a : ClientAction T} (hs : SystemInv cfg s)
    (hwrap : s.client.shared.calls.sequence.toNat + 1 < 2 ^ 64) (ha : (newThread a).length = 1)
    (h : s.clientTurn cfg a = some t) : SystemInv cfg t := by
  cases a with
  | run i inp => cases ha
  | answer c request header body => cases ha
  | _ =>
    refine systemInv_quiet hs hwrap ?_ (fun _ _ he => by cases he)
      (fun _ _ _ _ he => by cases he) h
    trivial

/-- A new call. -/
lemma systemInv_start {a : ClientAction T} {call : Call V} (hs : SystemInv cfg s)
    (hwrap : s.client.shared.calls.sequence.toNat + 1 < 2 ^ 64)
    (ha : (newThread a).length = 1) (h : s.start cfg a call = some t) : SystemInv cfg t := by
  unfold System.start at h
  split at h
  · next u hu =>
    cases h
    have hinv := systemInv_new hs hwrap ha hu
    obtain ⟨c, hc, rfl⟩ := clientTurn_eq_some hu
    have hthreads : c.threads.length = s.client.threads.length + 1 := by
      cases clientStep_move hc with
      | start a => rw [List.length_append, ha]
      | run _ _ => cases ha
      | answer _ _ => cases ha
    have hcalls : ∀ i call', s.calls i = some call' →
        (if i = s.client.threads.length then some call else s.calls i) = some call' := by
      intro i call' hi
      rw [if_neg, hi]
      rintro rfl
      rw [hs.callers _ (le_refl _)] at hi
      cases hi
    refine ⟨hinv.replies, hinv.numbered, hinv.returned, fun i hi => ?_, hinv.streams, hinv.links,
      fun x l k hl hk => (hinv.wired x l k hl hk).of_calls hcalls, hinv.peers⟩
    dsimp only at hi ⊢
    rw [if_neg (by omega)]
    exact hs.callers i (by omega)
  · cases h

lemma request_eq_ok {order : List MDEntry} {ctx : CallCtx} {call : Call V} {seq : UInt64}
    {req : Message} {frame : Bytes} (h : cfg.request order ctx call seq = .ok (req, frame)) :
    frame = frameOf cfg.client.env cfg.clientChoice req ∧
      ∃ req₀, prepareMessage cfg.client.env cfg.client.proto order call ctx = .ok req₀ ∧
        req = stampRequest seq req₀ := by
  obtain ⟨req₀, hprep, hrest⟩ := bind_eq_ok h
  dsimp only at hrest
  rw [encode_eq] at hrest
  cases hrest
  exact ⟨rfl, req₀, hprep, rfl⟩

/-- The bytes of a request reach no connection but its own. -/
lemma receive_other {servers : List StreamState} {frame : Bytes} {j p j' p' : Nat}
    (hne : (j', p') ≠ (j, p)) {t : StreamState} {b : Inbound} (ht : servers[j']? = some t)
    (hb : t.inbound[p']? = some b) :
    ∃ t' b', (servers.modify j fun t => t.receive p frame)[j']? = some t' ∧
      t'.inbound[p']? = some b' ∧ b'.whole = b.whole ∧ t.write.log <+: t'.write.log := by
  rw [List.getElem?_modify, ht]
  by_cases hj : j = j'
  · have hp : p ≠ p' := fun hp => hne (by rw [hj, hp])
    refine ⟨t.receive p frame, b, by simp [hj], ?_, rfl, List.prefix_rfl⟩
    simp [StreamState.receive, hp, hb]
  · exact ⟨t, b, by simp [hj], hb, rfl, List.prefix_rfl⟩

lemma receive_own {servers : List StreamState} {j p : Nat} {t : StreamState} {b : Inbound}
    (frame : Bytes) (ht : servers[j]? = some t) (hb : t.inbound[p]? = some b) :
    ∃ t' b', (servers.modify j fun t => t.receive p frame)[j]? = some t' ∧
      t'.inbound[p]? = some b' ∧ b'.whole = b.whole ++ frame ∧ t.write = t'.write := by
  refine ⟨t.receive p frame, ⟨b.whole ++ frame, ⟨b.reader.data ++ frame, b.reader.failure⟩⟩,
    by simp [ht], ?_, rfl, rfl⟩
  simp [StreamState.receive, hb]

/-- The servers after a request was written on a connection with the given peer. -/
def sentTo (servers : List StreamState) (frame : Bytes) : Option (Nat × Nat) → List StreamState
  | some (j, p) => servers.modify j fun t => t.receive p frame
  | none => servers

lemma transmit_eq {conn : Nat} {l : Link} (req : Message) (frame : Bytes)
    (h : s.links[conn]? = some l) : s.transmit conn req frame = { s with
      links := s.links.set conn ⟨l.peer, l.requests ++ [req], l.written ++ frame⟩
      servers := sentTo s.servers frame l.peer } := by
  unfold System.transmit
  rw [h]
  rfl

lemma streams_sentTo {servers : List StreamState} (frame : Bytes) (peer : Option (Nat × Nat))
    (hs : ∀ (j : Nat) (t : StreamState), servers[j]? = some t →
      StreamInv cfg.client.env cfg.client.proto (cfg.server j) cfg.serverChoice t)
    (j : Nat) (t : StreamState) (ht : (sentTo servers frame peer)[j]? = some t) :
    StreamInv cfg.client.env cfg.client.proto (cfg.server j) cfg.serverChoice t := by
  cases peer with
  | none => exact hs j t ht
  | some peer =>
    unfold sentTo at ht
    dsimp only at ht
    rw [List.getElem?_modify] at ht
    obtain ⟨t₀, ht₀, rfl⟩ := Option.map_eq_some_iff.mp ht
    split
    · exact streamInv_receive (hs j t₀ ht₀) _ _
    · exact hs j t₀ ht₀

lemma Wired.send {calls : Nat → Option (Call V)} {servers : List StreamState} {l : Link}
    {k : ClientConn} (h : Wired cfg calls servers l k) {r : SentRequest} {req : Message}
    {frame : Bytes} (hreq : Prepared cfg calls r req)
    (hframe : frame = frameOf cfg.client.env cfg.clientChoice req) :
    Wired cfg calls (sentTo servers frame l.peer)
      ⟨l.peer, l.requests ++ [req], l.written ++ frame⟩ { k with sent := k.sent ++ [r] } := by
  refine ⟨?_, ?_, fun a ha => ?_, h.unaccepted, fun j p hpeer => ?_⟩
  · exact List.rel_append h.requests (.cons hreq .nil)
  · dsimp only
    rw [h.bytes, hframe, List.flatMap_append, List.flatMap_singleton]
  · obtain ⟨r', hr', hseq⟩ := h.own a ha
    exact ⟨r', (List.getElem?_append_left (List.getElem?_eq_some_iff.mp hr').1).trans hr', hseq⟩
  · have hpeer' : l.peer = some (j, p) := hpeer
    obtain ⟨t, b, ht, hb, hwhole, hwrites⟩ := h.accepted j p hpeer'
    obtain ⟨t', b', ht', hb', hwhole', hwrite⟩ := receive_own frame ht hb
    rw [hpeer']
    exact ⟨t', b', ht', hb', by rw [hwhole', hwhole], hwrite ▸ hwrites⟩

/-- A request is written. -/
lemma systemInv_send {i conn : Nat} {seq : UInt64} {th : Thread T} {call : Call V}
    {order : List MDEntry} {ctx : CallCtx} {req : Message} {frame : Bytes} {u : System V T}
    (hs : SystemInv cfg s) (hwrap : s.client.shared.calls.sequence.toNat + 1 < 2 ^ 64)
    (hok : SettledWrite s.client (.run i .go)) (hi : s.client.threads[i]? = some th)
    (hth : th.sending = some (conn, seq)) (hcall : s.calls i = some call)
    (hreq : cfg.request order ctx call seq = .ok (req, frame)) (hcarried : Carried cfg.client.env req)
    (hu : s.clientTurn cfg (.run i .go) = some u) : SystemInv cfg (u.transmit conn req frame) := by
  obtain ⟨c, hc, rfl⟩ := clientTurn_eq_some hu
  obtain ⟨hframe, req₀, hprep, rfl⟩ := request_eq_ok hreq
  obtain ⟨k, hk, hk', hother⟩ := clientStep_send hc hi hth
  have hconn : conn < s.links.length := hs.links ▸ (List.getElem?_eq_some_iff.mp hk).1
  have hconns := length_conns_le hc
  have hthreads := length_threads_le hc
  obtain ⟨l, hl⟩ : ∃ l, s.links[conn]? = some l := ⟨_, List.getElem?_eq_getElem hconn⟩
  have hturn : (s.links ++ List.replicate (c.shared.conns.length - s.links.length) .new)[conn]? =
      some l := (List.getElem?_append_left hconn).trans hl
  have hprepared : Prepared cfg s.calls ⟨i, seq⟩ (stampRequest seq req₀) :=
    ⟨hcarried, call, order, ctx, req₀, hcall, hprep, rfl⟩
  rw [transmit_eq _ _ hturn]
  refine ⟨replies_step hs.replies hok hc, numbered_step hs.numbered hwrap hc,
    accepted_step hs.returned hc, fun i hi => hs.callers i (hthreads.trans hi),
    streams_sentTo frame l.peer hs.streams, ?_, fun x l' k₁ hl' hk₁ => ?_,
    fun x y l₁ l₂ peer hl₁ hl₂ => ?_⟩
  · dsimp only
    rw [List.length_set, List.length_append, List.length_replicate, hs.links]
    omega
  · rcases getElem?_set_cases hl' with ⟨rfl, rfl⟩ | ⟨hne, hold⟩
    · cases hk'.symm.trans hk₁
      exact (hs.wired conn l k hl hk).send hprepared hframe
    · -- the other connections have other peers
      have hk₀ := (hother x (Ne.symm hne)).symm.trans hk₁
      have hlt : x < s.links.length := hs.links ▸ (List.getElem?_eq_some_iff.mp hk₀).1
      have hl₀ := (List.getElem?_append_left hlt).symm.trans hold
      refine (hs.wired x l' k₁ hl₀ hk₀).of_servers fun j p t b hpeer ht hb => ?_
      dsimp only
      cases hlp : l.peer with
      | none => exact ⟨t, b, ht, hb, rfl, List.prefix_rfl⟩
      | some peer =>
        refine receive_other (fun he => hne ?_) ht hb
        exact hs.peers conn x l l' (j, p) hl hl₀ (he ▸ hlp) hpeer
  · have hpeer : ∀ {x : Nat} {l₁ : Link}, ((s.links ++ List.replicate
        (c.shared.conns.length - s.links.length) Link.new).set conn
          ⟨l.peer, l.requests ++ [stampRequest seq req₀], l.written ++ frame⟩)[x]? = some l₁ →
        ∃ l₀, (s.links ++ List.replicate (c.shared.conns.length - s.links.length) .new)[x]? = some l₀ ∧
          l₀.peer = l₁.peer := by
      intro x l₁ hl₁
      rcases getElem?_set_cases hl₁ with ⟨rfl, rfl⟩ | ⟨-, hold⟩
      · exact ⟨l, hturn, rfl⟩
      · exact ⟨l₁, hold, rfl⟩
    obtain ⟨m₁, hm₁, hp₁⟩ := hpeer hl₁
    obtain ⟨m₂, hm₂, hp₂⟩ := hpeer hl₂
    rw [← hp₁, ← hp₂]
    exact turn_peers hs x y m₁ m₂ peer hm₁ hm₂

lemma SystemInv.peer (hs : SystemInv cfg s) {x j p : Nat} {l : Link} (hl : s.links[x]? = some l)
    (hpeer : l.peer = some (j, p)) :
    ∃ t b, s.servers[j]? = some t ∧ t.inbound[p]? = some b ∧ b.whole = l.written := by
  have hlt : x < s.client.shared.conns.length := hs.links ▸ (List.getElem?_eq_some_iff.mp hl).1
  obtain ⟨t, b, ht, hb, hwhole, -⟩ :=
    (hs.wired x l _ hl (List.getElem?_eq_getElem hlt)).accepted j p hpeer
  exact ⟨t, b, ht, hb, hwhole⟩

/-- A server accepts a connection. -/
lemma systemInv_accept {j conn : Nat} {l : Link} {t t' : StreamState} (hs : SystemInv cfg s)
    (hl : s.links[conn]? = some l) (hnone : l.peer = none) (ht : s.servers[j]? = some t)
    (h : streamStep cfg.client.env cfg.client.proto (cfg.server j) cfg.serverChoice t
      (.accept l.written) = some t') :
    SystemInv cfg { s with
      links := s.links.set conn ⟨some (j, t.inbound.length), l.requests, l.written⟩
      servers := s.servers.set j t' } := by
  have hlt := (List.getElem?_eq_some_iff.mp ht).1
  have ht' : (s.servers.set j t')[j]? = some t' := List.getElem?_set_self hlt
  obtain ⟨hinbound, hwrite⟩ : t'.inbound = t.inbound ++ [⟨l.written, ⟨l.written, ioEOF⟩⟩] ∧
      t'.write = t.write := by
    cases streamStep_move h
    exact ⟨rfl, rfl⟩
  have hgo : ∀ (i p : Nat) (u : StreamState) (b : Inbound), s.servers[i]? = some u →
      u.inbound[p]? = some b → ∃ u' b', (s.servers.set j t')[i]? = some u' ∧ u'.inbound[p]? = some b' ∧
        b'.whole = b.whole ∧ u.write.log <+: u'.write.log := by
    intro i p u b hu hb
    by_cases hij : j = i
    · subst hij
      cases ht.symm.trans hu
      refine ⟨t', b, ht', ?_, rfl, hwrite ▸ List.prefix_rfl⟩
      rw [hinbound, List.getElem?_append_left (List.getElem?_eq_some_iff.mp hb).1]
      exact hb
    · exact ⟨u, b, (List.getElem?_set_ne hij).trans hu, hb, rfl, List.prefix_rfl⟩
  refine ⟨hs.replies, hs.numbered, hs.returned, hs.callers, fun i u hu => ?_, ?_,
    fun x l' k hl' hk => ?_, fun x y l₁ l₂ peer hl₁ hl₂ hp₁ hp₂ => ?_⟩
  · rcases getElem?_set_cases hu with ⟨rfl, rfl⟩ | ⟨-, hold⟩
    · have hown : OwnFrames cfg.client.env (cfg.server j).opt.maxReceiveMessageSize t
          (.accept l.written) := trivial
      exact streamInv_step (hs.streams j t ht) hown h
    · exact hs.streams i u hold
  · dsimp only
    rw [List.length_set]
    exact hs.links
  · rcases getElem?_set_cases hl' with ⟨rfl, rfl⟩ | ⟨-, hold⟩
    · have hw := hs.wired conn l k hl hk
      refine ⟨hw.requests, hw.bytes, hw.own, fun he => (by cases he),
        fun j' p hpeer => ?_⟩
      cases hpeer
      refine ⟨t', _, ht', by rw [hinbound, List.getElem?_concat_length], rfl, ?_⟩
      rw [hw.unaccepted hnone]
      exact List.nil_prefix
    · exact (hs.wired x l' k hold hk).of_servers fun i p u b _ hu hb => hgo i p u b hu hb
  · have hfresh : ∀ {z : Nat} {l₀ : Link}, s.links[z]? = some l₀ →
        l₀.peer ≠ some (j, t.inbound.length) := by
      intro z l₀ hl₀ hpeer
      obtain ⟨u, b, hu, hb, -⟩ := hs.peer hl₀ hpeer
      cases ht.symm.trans hu
      exact absurd (List.getElem?_eq_some_iff.mp hb).1 (lt_irrefl _)
    rcases getElem?_set_cases hl₁ with ⟨rfl, rfl⟩ | ⟨-, hold₁⟩
    · rcases getElem?_set_cases hl₂ with ⟨rfl, rfl⟩ | ⟨-, hold₂⟩
      · rfl
      · exact absurd (hp₂.trans hp₁.symm) (hfresh hold₂)
    · rcases getElem?_set_cases hl₂ with ⟨rfl, rfl⟩ | ⟨-, hold₂⟩
      · exact absurd (hp₁.trans hp₂.symm) (hfresh hold₁)
      · exact hs.peers x y l₁ l₂ peer hold₁ hold₂ hp₁ hp₂

/-- A server goes on. -/
lemma systemInv_server {j : Nat} {a : StreamAction} {t t' : StreamState} (hs : SystemInv cfg s)
    (ht : s.servers[j]? = some t) (ha : a.isAccept = false)
    (hown : OwnFrames cfg.client.env (cfg.server j).opt.maxReceiveMessageSize t a)
    (h : streamStep cfg.client.env cfg.client.proto (cfg.server j) cfg.serverChoice t a = some t') :
    SystemInv cfg { s with servers := s.servers.set j t' } := by
  have hlt := (List.getElem?_eq_some_iff.mp ht).1
  obtain ⟨hinbound, hlog⟩ := streamStep_wire h ha
  refine ⟨hs.replies, hs.numbered, hs.returned, hs.callers, fun i u hu => ?_, hs.links,
    fun x l k hl hk => ?_, hs.peers⟩
  · rcases getElem?_set_cases hu with ⟨rfl, rfl⟩ | ⟨-, hold⟩
    · exact streamInv_step (hs.streams j t ht) hown h
    · exact hs.streams i u hold
  · refine (hs.wired x l k hl hk).of_servers fun i p u b _ hu hb => ?_
    by_cases hij : j = i
    · subst hij
      cases ht.symm.trans hu
      obtain ⟨b', hb', hwhole⟩ := hinbound p b hb
      exact ⟨t', b', List.getElem?_set_self hlt, hb', hwhole, hlog⟩
    · exact ⟨u, b, (List.getElem?_set_ne hij).trans hu, hb, rfl, List.prefix_rfl⟩

lemma prefix_concat {α : Type} {xs ys : List α} {y : α} (h : xs <+: ys)
    (hy : ys[xs.length]? = some y) : xs ++ [y] <+: ys := by
  obtain ⟨rest, rfl⟩ := h
  rw [List.getElem?_append_right (le_refl _), Nat.sub_self] at hy
  cases rest with
  | nil => cases hy
  | cons z rest =>
    cases hy
    exact ⟨rest, List.append_assoc ..⟩

lemma answer_seq {k k' : ClientConn} {request : Nat} {header : Header} {body : Bytes}
    (h : k.answer request header body = some k') :
    ∃ r, k.sent[request]? = some r ∧ header.seq = r.seq := by
  unfold ClientConn.answer at h
  split at h
  · cases h
  · next r hr =>
    split at h
    · next hc => exact ⟨r, hr, hc.2.1⟩
    · cases h

/-- A response reaches the client. -/
lemma systemInv_deliver {conn request j p : Nat} {header : Header} {body : Bytes} {l : Link}
    {k : ClientConn} {u : StreamState} {w : ConnWrite} (hs : SystemInv cfg s)
    (hwrap : s.client.shared.calls.sequence.toNat + 1 < 2 ^ 64) (hl : s.links[conn]? = some l)
    (hpeer : l.peer = some (j, p)) (hk : s.client.shared.conns[conn]? = some k)
    (hu : s.servers[j]? = some u) (hw : (u.write.writesOn p)[k.answers.length]? = some w)
    (hframe : w.frame = frameBytes header body)
    (h : s.clientTurn cfg (.answer conn request header body) = some t) : SystemInv cfg t := by
  have hok : SettledWrite s.client (.answer conn request header body) := trivial
  refine systemInv_turn hs hwrap hok h fun c l' k₀ k' hl' hk₀ hmove => ?_
  cases hmove with
  | same hsent hanswers => exact (hs.wired c l' k₀ hl' hk₀).congr hsent hanswers
  | send ha _ _ _ _ => cases ha
  | answer ha hans =>
    cases ha
    cases hl.symm.trans hl'
    cases hk.symm.trans hk₀
    have hwired := hs.wired conn l k hl hk
    obtain ⟨r, hr, hseq⟩ := answer_seq hans
    obtain ⟨-, -, -, -, rfl⟩ := answer_spec hans
    refine ⟨hwired.requests, hwired.bytes, fun a ha => ?_, fun he => ?_, fun j' p' hpeer' => ?_⟩
    · rcases List.mem_append.mp ha with hold | hnew
      · exact hwired.own a hold
      · rw [List.mem_singleton.mp hnew]
        exact ⟨r, hr, by rw [wireHeader_frameBytes, hseq]⟩
    · cases hpeer.symm.trans he
    · cases hpeer.symm.trans hpeer'
      obtain ⟨t, b, ht, hb, hwhole, hwrites⟩ := hwired.accepted j p hpeer
      cases hu.symm.trans ht
      refine ⟨u, b, hu, hb, hwhole, ?_⟩
      rw [List.map_append, List.map_singleton, ← hframe]
      refine prefix_concat hwrites ?_
      rw [List.length_map, List.getElem?_map, hw]
      rfl

lemma systemInv_step {a : SystemAction V T} (hs : SystemInv cfg s) (hok : SystemOk cfg s a)
    (h : systemStep cfg s a = some t) : SystemInv cfg t := by
  obtain ⟨hwrap, hcond⟩ := hok
  cases a with
  | invoke method args replyType =>
    simp only [systemStep] at h
    split at h
    · exact systemInv_start hs hwrap rfl h
    · exact systemInv_new hs hwrap rfl h
  | heartbeat => exact systemInv_start hs hwrap rfl h
  | close => exact systemInv_new hs hwrap rfl h
  | updateServers servers => exact systemInv_new hs hwrap rfl h
  | run i inp =>
    have hnone : ∀ th, s.client.threads[i]? = some th → inp = .go → th.sending = none := by
      rintro th hth rfl
      by_contra hne
      obtain ⟨target, htarget⟩ := Option.ne_none_iff_exists'.mp hne
      have hsending : s.sending i = some target := by
        unfold System.sending
        rw [hth]
        exact htarget
      simp only [systemStep, hsending] at h
      cases h
    have hturn : s.clientTurn cfg (.run i inp) = some t := by
      simp only [systemStep] at h
      split at h
      · cases h
      · exact h
    refine systemInv_quiet hs hwrap (settledWrite_of_quiet hnone) (fun j th he hth => ?_)
      (fun _ _ _ _ he => by cases he) hturn
    cases he
    exact hnone th hth rfl
  | send i order ctx =>
    simp only [systemStep] at h
    split at h
    · next conn seq call hsending hcall =>
      split at h
      · next req frame u hreq hu =>
        cases h
        obtain ⟨hsettled, hcarried⟩ := hcond
        obtain ⟨th, hi, hth⟩ : ∃ th, s.client.threads[i]? = some th ∧
            th.sending = some (conn, seq) := by
          unfold System.sending at hsending
          split at hsending
          · next th hi => exact ⟨th, hi, hsending⟩
          · cases hsending
        refine systemInv_send hs hwrap hsettled hi hth hcall hreq ?_ hu
        refine hcarried _ hsending _ hcall (req, frame) ?_
        rw [hreq]
        rfl
      · cases h
    · cases h
  | accept j conn =>
    simp only [systemStep] at h
    split at h
    · next requests written u hl hu =>
      split at h
      · next u' hu' =>
        cases h
        exact systemInv_accept hs hl rfl hu hu'
      · cases h
    · cases h
  | server j a =>
    simp only [systemStep] at h
    split at h
    · next u hu =>
      split at h
      · cases h
      · next ha =>
        split at h
        · next u' hu' =>
          cases h
          exact systemInv_server hs hu (Bool.eq_false_iff.mpr ha) (hcond u hu) hu'
        · cases h
    · cases h
  | deliver conn request header body =>
    simp only [systemStep] at h
    split at h
    · next j p requests written k hl hk =>
      split at h
      · next u hu =>
        split at h
        · next w hw =>
          split at h
          · next hc => exact systemInv_deliver hs hwrap hl rfl hk hu hw hc.2 h
          · cases h
        · cases h
      · cases h
    · cases h

lemma systemInv_init (workers : List Nat) : SystemInv cfg (.init workers) := by
  refine ⟨replies_init, numbered_init, accepted_init, fun _ _ => rfl, fun j t ht => ?_, rfl,
    fun c l k hl => (by cases hl), fun c c' l l' peer hl => (by cases hl)⟩
  change (workers.map StreamState.init)[j]? = some t at ht
  obtain ⟨n, -, rfl⟩ := List.mem_map.mp (List.mem_of_getElem? ht)
  exact streamInv_init _ _ _ _ n

lemma systemInv_run {workers : List Nat} {acts : List (SystemAction V T)}
    (hok : Guarded (systemStep cfg) (SystemOk cfg) (.init workers) acts)
    (h : exec (systemStep cfg) (.init workers) acts = some s) : SystemInv cfg s :=
  exec_invariant_guarded _ (fun _ _ _ hs hok h => systemInv_step hs hok h) (systemInv_init workers)
    hok h

end Runs

end Zrpc.Proofs
