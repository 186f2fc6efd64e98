import Zrpc.Proofs.RemoteCall
import Zrpc.Proofs.System

/-!
# Calls over a whole system

What an Invoke returns is what the handler of its method returned for its arguments, on one of the
servers: the client takes the response to its own request, and that response was made by serving
the request that the client wrote for the call. Conversely, every response that a server writes is
one that the client takes.
-/

namespace Zrpc.Proofs

open Zrpc.Lib

variable {V T : Type}

/-! ### The reply of the handler -/

lemma requestFor_of_prepareMessage {E : Env} {P : Proto V T} {order : List MDEntry} {ctx : CallCtx}
    {svc mtd : GoString} {args : V} {req : Message}
    (h : prepareMessage E P order ⟨svc, mtd, some args⟩ ctx = .ok req) :
    ∃ payload, P.codecMarshal (some args) = .ok payload ∧ RequestFor svc mtd payload 0 req ∧
      req.header.getMessageType = .request := by
  unfold prepareMessage at h
  split at h
  · cases h
  · next payload hpayload =>
    obtain ⟨md, -, hreq⟩ := bind_eq_ok h
    cases hreq
    refine ⟨payload, hpayload, ⟨rfl, rfl, rfl, ?_, ?_, ?_, ?_⟩, ?_⟩
    all_goals
      dsimp only
      split <;> decide

lemma stampRequest_type (seq : UInt64) (req : Message) :
    (stampRequest seq req).header.getMessageType = req.header.getMessageType := by
  unfold stampRequest
  dsimp only
  split
  · exact (flags_setHeartBeat req.header true).1
  · rfl

/-- What a server reads of a request. -/
lemma arrived_request {E : Env} {c : ∀ md, EncodeChoice md} {svc mtd : GoString} {payload : Bytes}
    {seq : UInt64} {req : Message} (h : RequestFor svc mtd payload seq req) :
    RequestFor svc mtd payload seq (arrived E c req) ∧
      (arrived E c req).header.getMessageType = req.header.getMessageType := by
  obtain ⟨hflags, hheart⟩ := choosePayload_flags E req
  exact ⟨⟨h.serviceName, h.serviceMethod, h.payload, hflags.magic.trans h.magic,
    hheart.trans h.heartbeat, hflags.status.trans h.status, hflags.seq.trans h.seq⟩, hflags.type⟩

section Answered

variable {cfg : SystemConfig V T} {s : System V T}

lemma Prepared.seq {calls : Nat → Option (Call V)} {r : SentRequest} {m : Message}
    (h : Prepared cfg calls r m) : m.header.seq = r.seq := by
  obtain ⟨-, call, order, ctx, req, -, -, rfl⟩ := h
  rfl

lemma Wired.request {calls : Nat → Option (Call V)} {servers : List StreamState} {l : Link}
    {k : ClientConn} (h : Wired cfg calls servers l k) {m : Message} (hm : m ∈ l.requests) :
    ∃ r ∈ k.sent, Prepared cfg calls r m := by
  obtain ⟨y, hy⟩ := List.mem_iff_getElem?.mp hm
  obtain ⟨r, hr, hprep⟩ := forall₂_getElem? h.requests hy
  exact ⟨r, List.mem_of_getElem? hr, hprep⟩

/-- The requests that a server has read from a connection are the first that the client wrote. -/
lemma Wired.read {calls : Nat → Option (Call V)} {servers : List StreamState} {l : Link}
    {k : ClientConn} (h : Wired cfg calls servers l k) (hE : GzipLaw cfg.client.env)
    {t : StreamState} {S : Server V T} {b : Inbound} {p : Nat}
    (ht : StreamInv cfg.client.env cfg.client.proto S cfg.serverChoice t)
    (hb : t.inbound[p]? = some b) (hwhole : b.whole = l.written) :
    t.requestsOn p = (l.requests.take (t.requestsOn p).length).map
      (arrived cfg.client.env cfg.clientChoice) := by
  have hcarried : ∀ m ∈ l.requests, Carried cfg.client.env m := by
    intro m hm
    obtain ⟨r, -, hprep⟩ := h.request hm
    exact hprep.1
  have hdecoded := ht.consumed.decoded p b hb
  rw [hwhole, h.bytes] at hdecoded
  exact decodeMany_carried hE hcarried hdecoded

lemma Wired.read_of_mem {calls : Nat → Option (Call V)} {servers : List StreamState} {l : Link}
    {k : ClientConn} (h : Wired cfg calls servers l k) (hE : GzipLaw cfg.client.env)
    {t : StreamState} {S : Server V T} {b : Inbound} {x p : Nat} {req : Message}
    (ht : StreamInv cfg.client.env cfg.client.proto S cfg.serverChoice t)
    (hb : t.inbound[p]? = some b) (hwhole : b.whole = l.written)
    (hx : t.received[x]? = some (p, req)) :
    ∃ r ∈ k.sent, ∃ m, Prepared cfg calls r m ∧
      req = arrived cfg.client.env cfg.clientChoice m := by
  have hread : req ∈ t.requestsOn p :=
    List.mem_map.mpr ⟨(p, req), List.mem_filter.mpr ⟨List.mem_of_getElem? hx, by simp⟩, rfl⟩
  rw [h.read hE ht hb hwhole] at hread
  obtain ⟨m, hm, rfl⟩ := List.mem_map.mp hread
  obtain ⟨r, hr, hprep⟩ := h.request (List.mem_of_mem_take hm)
  exact ⟨r, hr, m, hprep, rfl⟩

lemma arrived_seq (E : Env) (c : ∀ md, EncodeChoice md) (m : Message) :
    (arrived E c m).header.seq = m.header.seq :=
  (choosePayload_flags E m).1.seq

/-- No two responses that a server has written on a connection have the same number. -/
lemma Wired.written_nodup {calls : Nat → Option (Call V)} {servers : List StreamState} {l : Link}
    {k : ClientConn} (h : Wired cfg calls servers l k) (hE : GzipLaw cfg.client.env)
    {t : StreamState} {S : Server V T} {b : Inbound} {p : Nat}
    (ht : StreamInv cfg.client.env cfg.client.proto S cfg.serverChoice t)
    (hb : t.inbound[p]? = some b) (hwhole : b.whole = l.written)
    (hnodup : (k.sent.map SentRequest.seq).Nodup) :
    ((t.write.writesOn p).map (fun w => (wireHeader w.frame).seq)).Nodup := by
  have hseqs : l.requests.map (fun m => m.header.seq) = k.sent.map SentRequest.seq := by
    have hforall := h.requests
    generalize k.sent = sent at hforall
    generalize l.requests = requests at hforall
    induction hforall with
    | nil => rfl
    | cons hprep _ ih => rw [List.map_cons, List.map_cons, ih, hprep.seq]
  have hread : ((t.requestsOn p).map (fun req => req.header.seq)).Nodup := by
    rw [h.read hE ht hb hwhole, List.map_map]
    have hsame : (fun req : Message => req.header.seq) ∘ arrived cfg.client.env cfg.clientChoice =
        fun m => m.header.seq := funext fun m => arrived_seq _ _ m
    rw [hsame]
    rw [← hseqs] at hnodup
    exact hnodup.sublist ((List.take_sublist _ _).map _)
  obtain ⟨seqs, hperm, hsub⟩ := ht.seqs p
  exact hperm.nodup_iff.mp (hread.sublist hsub)

/-- A response on a connection of the client was made by serving the request that it answers. -/
lemma SystemInv.answered (hs : SystemInv cfg s) (hE : GzipLaw cfg.client.env) {c : Nat}
    {k : ClientConn} (hk : s.client.shared.conns[c]? = some k) {a : Answer} (ha : a ∈ k.answers)
    {r : SentRequest} (hr : k.sent[a.request]? = some r) :
    ∃ j t x p m, s.servers[j]? = some t ∧ Prepared cfg s.calls r m ∧
      t.received[x]? = some (p, arrived cfg.client.env cfg.clientChoice m) ∧
      (x ∈ t.pool.serve.executed ∨ Refused t.pool x) ∧
      ∃ sent ∈ (cfg.server j).serveRequest cfg.client.env cfg.client.proto cfg.serverChoice
        (arrived cfg.client.env cfg.clientChoice m), sent.frame = a.frame := by
  have hlt : c < s.links.length := hs.links ▸ (List.getElem?_eq_some_iff.mp hk).1
  have hwired := hs.wired c _ k (List.getElem?_eq_getElem hlt) hk
  cases hpeer : s.links[c].peer with
  | none =>
    rw [hwired.unaccepted hpeer] at ha
    cases ha
  | some peer =>
    obtain ⟨j, p⟩ := peer
    obtain ⟨t, b, ht, hb, hwhole, hwrites⟩ := hwired.accepted j p hpeer
    obtain ⟨w, hw, hframe⟩ := List.mem_map.mp (hwrites.subset (List.mem_map_of_mem ha))
    obtain ⟨x, req, hx, hdone, sent, hsent, hsame⟩ := (hs.streams j t ht).source hw
    obtain ⟨r₁, hr₁, m, hprep, rfl⟩ := hwired.read_of_mem hE (hs.streams j t ht) hb hwhole hx
    -- the number of the response tells which request it answers
    have hseq : r₁.seq = r.seq := by
      obtain ⟨r₂, hr₂, hown⟩ := hwired.own a ha
      cases hr.symm.trans hr₂
      have hwire := (serveRequest_seq _ _ _ _ _).subset (List.mem_map_of_mem hsent)
      rw [List.mem_singleton, hsame, hframe, hown] at hwire
      rw [hwire, arrived_seq, hprep.seq]
    have hr₀ : r₁ = r :=
      List.inj_on_of_nodup_map (hs.numbered.nodup hk) hr₁ (List.mem_of_getElem? hr) hseq
    subst hr₀
    exact ⟨j, t, x, p, m, ht, hprep, hx, hdone, sent, hsent, hsame.trans hframe⟩

end Answered

section Replied

variable {E : Env} {c : ∀ md, EncodeChoice md}

/-- A message whose frame the client has taken fits the frame format. -/
lemma carried_of_frame {m : Message} {h : Header} {body : Bytes}
    (hframe : frameOf E c m = frameBytes h body) (hmagic : h.checkMagicNumber = true)
    (hbody : body.length < 2 ^ 32) (hcounts : ∀ e ∈ m.metadata.entries, e.2.length ≤ 255) :
    Carried E m := by
  refine ⟨?_, hcounts, ?_⟩
  · have hwire := congrArg wireHeader hframe
    unfold frameOf at hwire
    rw [wireHeader_frameBytes, wireHeader_frameBytes] at hwire
    rw [← hwire] at hmagic
    rcases choosePayload_header E m with hc | hc <;> rw [hc] at hmagic <;> exact hmagic
  · have hlen := congrArg List.length hframe
    unfold frameOf frameBytes at hlen
    rw [List.length_append, List.length_append, length_toBytes, length_toBytes, length_lp,
      length_lp, length_encodedBody (c m.metadata).write_perm] at hlen
    omega

/-- A request that `auth` let in and that is answered was executed. -/
lemma executed_of_admitted {P : Proto V T} {S : Server V T} {t : StreamState} {x p : Nat}
    {req : Message} {ctx : Ctx} (ht : StreamInv E P S c t) (hx : t.received[x]? = some (p, req))
    (hdone : x ∈ t.pool.serve.executed ∨ Refused t.pool x)
    (hauth : S.authorize E P c req = .ok (.inl ctx)) : x ∈ t.pool.serve.executed := by
  rcases hdone with hdone | ⟨req', dataLen, hthread⟩
  · exact hdone
  · obtain ⟨conn, hx'⟩ := ht.tracked.connection hthread
    cases hx.symm.trans hx'
    obtain ⟨sent, hrefused⟩ := ht.tracked.refused x req' dataLen hthread
    rw [hauth] at hrefused
    cases hrefused

end Replied

instance (E : Env) (m : Message) : Decidable (Carried E m) :=
  decidable_of_iff (m.header.checkMagicNumber = true ∧
    (∀ e ∈ m.metadata.entries, e.2.length ≤ 255) ∧ dataLen E m < 2 ^ 32)
    ⟨fun h => ⟨h.1, h.2.1, h.2.2⟩, fun h => ⟨h.magic, h.counts, h.length⟩⟩

instance (cfg : SystemConfig V T) (s : System V T) : ∀ a, Decidable (SystemOk cfg s a)
  | .send i order ctx => inferInstanceAs (Decidable (_ ∧ SettledWrite s.client (.run i .go) ∧
      ∀ target ∈ s.sending i, ∀ call ∈ s.calls i,
        ∀ r ∈ (cfg.request order ctx call target.2).toOption, Carried cfg.client.env r.1))
  | .server j a => inferInstanceAs (Decidable (_ ∧ ∀ t ∈ s.servers[j]?,
      OwnFrames cfg.client.env (cfg.server j).opt.maxReceiveMessageSize t a))
  | .invoke _ _ _ | .heartbeat | .close | .updateServers _ | .run _ _ | .accept _ _
  | .deliver _ _ _ _ => inferInstanceAs (Decidable (_ ∧ True))

/-- A client with one echo server. -/
def echoSystem : SystemConfig Bytes Unit :=
  ⟨smallClient, fun _ => echoServer plainOption, .plain, .plain⟩

/-- The steps of the goroutines in a run of a client. -/
def clientTurns (acts : List (ClientAction Unit)) : List (SystemAction Bytes Unit) :=
  acts.filterMap fun
    | .run i inp => some (.run i inp)
    | _ => none

/-- The server reads the request, serves it and writes the response. -/
def echoServed : List StreamAction :=
  [.turn (.serve (.check 0)), .read 0, .turn (.serve (.authorize 0)), .turn (.serve (.dispatch 0))] ++
    writeAnswer 0

/-- The client dials and writes its request before the server accepts the connection. -/
def echoWritten : List (SystemAction Bytes Unit) :=
  [.invoke (fullMethod (str "Greeter") (str "SayHello")) [10, 1, 65] ()] ++ clientTurns dialOnly ++
    [.send 0 [] ⟨none, none⟩, .accept 0 0] ++ echoServed.map (.server 0)

def echoCall : List (SystemAction Bytes Unit) :=
  echoWritten ++
    [.deliver 0 0 ⟨magicNumber, 0, 0x80, 1⟩
      (bodyBytes (str "Greeter") (str "SayHello") [] [10, 1, 65]), .run 0 (.read 4096 [])] ++
    clientTurns (steps 0 7)

/-- An answer is a frame with the identity of its request. -/
lemma Responds.frame {E : Env} {c : ∀ md, EncodeChoice md} {req : Message} {sent : Sent}
    (h : Responds E c req sent) : ∃ header body, sent.frame = frameBytes header body ∧
      Header.identity header = Header.identity req.header := by
  obtain ⟨res, hsend, hid⟩ := h
  unfold Message.send at hsend
  rw [encode_eq] at hsend
  cases hsend
  obtain ⟨hflags, -⟩ := choosePayload_flags E res
  exact ⟨_, _, rfl, (Prod.ext hflags.magic hflags.seq).trans hid⟩

/-- The request that the next response answers has no answer yet: an earlier one would have the same
number. -/
lemma Wired.fresh {cfg : SystemConfig V T} {calls : Nat → Option (Call V)}
    {servers : List StreamState} {l : Link} {k : ClientConn} (h : Wired cfg calls servers l k)
    {writes : List ConnWrite} {w : ConnWrite} {request : Nat} {r : SentRequest}
    (hwrites : k.answers.map Answer.frame <+: writes.map ConnWrite.frame)
    (hnodup : (writes.map (fun w => (wireHeader w.frame).seq)).Nodup)
    (hr : k.sent[request]? = some r) (hw : writes[k.answers.length]? = some w)
    (hseq : (wireHeader w.frame).seq = r.seq) : ∀ a ∈ k.answers, a.request ≠ request := by
  rintro a ha rfl
  obtain ⟨r', hr', hown⟩ := h.own a ha
  cases hr.symm.trans hr'
  obtain ⟨y, hy⟩ := List.mem_iff_getElem?.mp ha
  have hlt := (List.getElem?_eq_some_iff.mp hy).1
  have hnext := (List.getElem?_eq_some_iff.mp hw).1
  obtain ⟨w', hw', hframe⟩ : ∃ w', writes[y]? = some w' ∧ w'.frame = a.frame := by
    obtain ⟨rest, hrest⟩ := hwrites
    have hget := congrArg (fun frames => frames[y]?) hrest
    rw [List.getElem?_append_left (by rwa [List.length_map]), List.getElem?_map, hy,
      List.getElem?_map] at hget
    exact Option.map_eq_some_iff.mp hget.symm
  have hnumbers : (writes.map (fun w => (wireHeader w.frame).seq))[y]? =
      (writes.map (fun w => (wireHeader w.frame).seq))[k.answers.length]? := by
    rw [List.getElem?_map, List.getElem?_map, hw', hw, Option.map_some, Option.map_some, hframe,
      hown, hseq]
  have hbound : y < (writes.map (fun w => (wireHeader w.frame).seq)).length := by
    rw [List.length_map]
    omega
  exact absurd ((List.getElem?_inj hbound hnodup).mp hnumbers) (Nat.ne_of_lt hlt)

/-- In every run of a client and its servers in which requests are written on settled connections
and read into memory of their own, the next response that a server has written as a whole on a
connection is one that the client takes: it carries the number of a request that was written on this
connection and has no answer yet. -/
theorem written_response_taken (cfg : SystemConfig V T) (hE : GzipLaw cfg.client.env)
    (workers : List Nat) (acts : List (SystemAction V T)) (s : System V T)
    (h : exec (systemStep cfg) (.init workers) acts = some s)
    (hok : Guarded (systemStep cfg) (SystemOk cfg) (.init workers) acts)
    (hpanic : s.client.shared.panicked = false) (c j p : Nat) (l : Link) (k : ClientConn)
    (hl : s.links[c]? = some l) (hpeer : l.peer = some (j, p))
    (hk : s.client.shared.conns[c]? = some k) (u : StreamState) (hu : s.servers[j]? = some u)
    (w : ConnWrite) (hw : (u.write.writesOn p)[k.answers.length]? = some w)
    (hwhole : w.count = w.frame.length) (hlen : w.frame.length < 2 ^ 32) :
    ∃ request r header body t, k.sent[request]? = some r ∧ (wireHeader w.frame).seq = r.seq ∧
      (∀ a ∈ k.answers, a.request ≠ request) ∧
      systemStep cfg s (.deliver c request header body) = some t := by
  have hs := systemInv_run hok h
  have hwired := hs.wired c l k hl hk
  obtain ⟨u', b, hu', hb, hbytes, hwrites⟩ := hwired.accepted j p hpeer
  cases hu.symm.trans hu'
  have hstream := hs.streams j u hu
  obtain ⟨x, req, hx, -, sent, hsent, hframe⟩ := hstream.source (List.mem_of_getElem? hw)
  obtain ⟨r, hr, m, hprep, rfl⟩ := hwired.read_of_mem hE hstream hb hbytes hx
  obtain ⟨request, hrequest⟩ := List.mem_iff_getElem?.mp hr
  obtain ⟨header, body, hsentframe, hid⟩ := (serveRequest_responds hsent).frame
  have hwframe : w.frame = frameBytes header body := hframe.symm.trans hsentframe
  obtain ⟨hmagic, hseq⟩ := Prod.mk.inj hid
  have hseq' : header.seq = r.seq := by rw [hseq, arrived_seq, hprep.seq]
  have hwseq : (wireHeader w.frame).seq = r.seq := by rw [hwframe, wireHeader_frameBytes, hseq']
  have hcheck : header.checkMagicNumber = true := by
    have hsame : header.magic = m.header.magic :=
      hmagic.trans (choosePayload_flags cfg.client.env m).1.magic
    have hcarried := hprep.1.magic
    unfold Header.checkMagicNumber at hcarried ⊢
    rw [hsame, hcarried]
  have hbody : body.length < 2 ^ 32 := by
    rw [hwframe] at hlen
    unfold frameBytes at hlen
    rw [List.length_append, length_lp] at hlen
    omega
  have hfresh : ∀ a ∈ k.answers, a.request ≠ request :=
    hwired.fresh hwrites (hwired.written_nodup hE hstream hb hbytes (hs.numbered.nodup hk)) hrequest hw
      hwseq
  have hanswer : k.answer request header body =
      some { k with answers := k.answers ++ [⟨request, frameBytes header body⟩] } := by
    unfold ClientConn.answer
    rw [hrequest]
    exact if_pos ⟨hfresh, hseq', hcheck, hbody⟩
  obtain ⟨peer, requests, written⟩ := l
  cases hpeer
  have hstep : ∃ t, s.clientTurn cfg (.answer c request header body) = some t := by
    unfold System.clientTurn clientStep
    simp only [hpanic, hk, hanswer, Bool.false_eq_true, if_false]
    exact ⟨_, rfl⟩
  obtain ⟨t, ht⟩ := hstep
  refine ⟨request, r, header, body, t, hrequest, hwseq, hfresh, ?_⟩
  simp only [systemStep, hl, hk, hu, hw]
  rw [if_pos ⟨hwhole, hwframe⟩]
  exact ht

theorem written_response_taken_echoWritten : ∃ (s : System Bytes Unit) (request : Nat)
    (header : Header) (body : Bytes) (t : System Bytes Unit),
    exec (systemStep echoSystem) (.init [0]) echoWritten = some s ∧
      systemStep echoSystem s (.deliver 0 request header body) = some t := by
  have hrun : ∃ s ∈ exec (systemStep echoSystem) (.init [0]) echoWritten,
      s.client.shared.panicked = false ∧ ∃ l ∈ s.links[0]?, l.peer = some (0, 0) ∧
        ∃ k ∈ s.client.shared.conns[0]?, ∃ u ∈ s.servers[0]?,
          ∃ w ∈ (u.write.writesOn 0)[k.answers.length]?, w.count = w.frame.length ∧
            w.frame.length < 2 ^ 32 := by
    decide +kernel
  obtain ⟨s, hs, hpanic, l, hl, hpeer, k, hk, u, hu, w, hw, hwhole, hlen⟩ := hrun
  obtain ⟨request, r, header, body, t, -, -, -, ht⟩ := written_response_taken echoSystem
    storedEnv_law [0] echoWritten s hs (by decide +kernel) hpanic 0 0 0 l k hl hpeer hk u hu w hw
    hwhole hlen
  exact ⟨s, request, header, body, t, hs, ht⟩

end Zrpc.Proofs
