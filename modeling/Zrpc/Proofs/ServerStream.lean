import Zrpc.Proofs.RequestThreads
import Zrpc.Proofs.StreamOutput

/-!
# What a client gets back on its connection

Any number of connections are served at once. Every frame on a connection is the answer to a request
read from that connection, and no request is answered twice; once everything is processed and
written, the connection carries the answers that serving its requests one by one would give, in some
order.
-/

namespace Zrpc.Proofs

open Zrpc.Lib

variable {V T : Type}

/-! ### The answers, in the order in which requests are served -/

/-- The frames that serving a request alone writes, with the connection they belong on. -/
def answerKeys (E : Env) (P : Proto V T) (S : Server V T) (c : ∀ md, EncodeChoice md)
    (r : Nat × Message) : List (Nat × Bytes) :=
  (S.serveRequest E P c r.2).map (fun m => (r.1, m.frame))

/-- The goroutines that write were started by the requests in `order`, each of them served once. -/
structure Answers (E : Env) (P : Proto V T) (S : Server V T) (c : ∀ md, EncodeChoice md)
    (s : PoolState) (received : List (Nat × Message)) (w : WriteState) (order : List Nat) : Prop where
  nodup : order.Nodup
  mem : ∀ i, i ∈ order ↔ i ∈ s.serve.executed ∨ Refused s i
  keys : w.writers.map FrameWriter.key = order.flatMap (handOut (answerKeys E P S c) received)

section Answering

variable {E : Env} {P : Proto V T} {S : Server V T} {c : ∀ md, EncodeChoice md} {s t : PoolState}
  {received : List (Nat × Message)} {w : WriteState} {order : List Nat} {a : PoolAction} {i : Nat}

lemma spawn_keys (w : WriteState) (conn : Nat) (sent : List Sent) :
    (w.spawn conn sent).writers.map FrameWriter.key =
      w.writers.map FrameWriter.key ++ sent.map (fun m => (conn, m.frame)) := by
  unfold WriteState.spawn
  rw [List.map_append, List.map_map]
  rfl

/-- A function taken from the channel, or run directly, writes what serving its request writes. -/
lemma processAt_admitted {conn dataLen : Nat} {req : Message} {ctx : Ctx}
    (hget : received[i]? = some (conn, req))
    (hr : t.serve.requests[i]? = some ⟨req, dataLen, .finished (some ctx)⟩)
    (hauth : S.authorize E P c req = .ok (.inl ctx)) :
    processAt E P S c received t.serve.requests w i = w.spawn conn (S.serveRequest E P c req) := by
  unfold processAt Server.serveRequest
  simp only [hget, hr, hauth]

lemma startedBetween_same (he : t.serve.executed = s.serve.executed) : startedBetween s t = [] := by
  unfold startedBetween
  rw [he, List.drop_length]

lemma startedBetween_one (he : t.serve.executed = s.serve.executed ++ [i]) :
    startedBetween s t = [i] := by
  unfold startedBetween
  rw [he, List.drop_left]

lemma refused_congr (hreq : t.serve.requests = s.serve.requests) (i : Nat) :
    Refused t i ↔ Refused s i := by
  unfold Refused
  rw [hreq]

/-- A goroutine that moves on, and is not refused by the move, refuses nothing. -/
lemma refused_set {r r' : RequestThread} (hr : s.serve.requests[i]? = some r)
    (hreq : t.serve.requests = s.serve.requests.set i r') (hpc : r.pc ≠ .finished none)
    (hpc' : r'.pc ≠ .finished none) (j : Nat) : Refused t j ↔ Refused s j := by
  have hlt := (List.getElem?_eq_some_iff.mp hr).1
  unfold Refused
  rw [hreq]
  by_cases hij : i = j
  · subst hij
    rw [List.getElem?_set_self hlt, hr]
    constructor
    · rintro ⟨req, dataLen, heq⟩
      cases heq
      exact absurd rfl hpc'
    · rintro ⟨req, dataLen, heq⟩
      cases heq
      exact absurd rfl hpc
  · rw [List.getElem?_set_ne hij]

lemma Answers.lt (hs : Accounted E P S c s received) (h : Answers E P S c s received w order) :
    ∀ i ∈ order, i < received.length := by
  intro i hi
  rcases (h.mem i).mp hi with hex | ⟨req, dataLen, hr⟩
  · obtain ⟨conn, req, dataLen, ctx, hget, -⟩ := hs.admitted i (.inl hex)
    exact (List.getElem?_eq_some_iff.mp hget).1
  · obtain ⟨conn, hget⟩ := hs.connection hr
    exact (List.getElem?_eq_some_iff.mp hget).1

lemma Answers.congr (h : Answers E P S c s received w order)
    (he : t.serve.executed = s.serve.executed)
    (href : ∀ i, Refused t i ↔ Refused s i) :
    Answers E P S c t received w order := by
  refine ⟨h.nodup, fun i => ?_, h.keys⟩
  rw [he, href]
  exact h.mem i

/-- One more request is served. -/
lemma Answers.serve {conn : Nat} {req : Message} (h : Answers E P S c s received w order)
    (hget : received[i]? = some (conn, req)) (hnew : i ∉ order)
    (hmem : ∀ j, (j ∈ t.serve.executed ∨ Refused t j) ↔
      (j ∈ s.serve.executed ∨ Refused s j) ∨ j = i) :
    Answers E P S c t received (w.spawn conn (S.serveRequest E P c req)) (order ++ [i]) := by
  refine ⟨?_, fun j => ?_, ?_⟩
  · exact List.nodup_append.mpr ⟨h.nodup, List.nodup_singleton i, fun a ha b hb =>
      fun hab => hnew (List.mem_singleton.mp hb ▸ hab ▸ ha)⟩
  · rw [hmem, ← h.mem, List.mem_append, List.mem_singleton]
  · rw [spawn_keys, h.keys, List.flatMap_append, List.flatMap_singleton, handOut_of_getElem? hget]
    rfl

/-- A request that the step reads is served later. -/
lemma Answers.read {r : List (Nat × Message)} (hs : Accounted E P S c s received)
    (h : Answers E P S c s received w order) : Answers E P S c s (received ++ r) w order := by
  refine ⟨h.nodup, h.mem, ?_⟩
  rw [flatMap_handOut_append (h.lt hs)]
  exact h.keys

lemma refused_read {req : Message} {dataLen : Nat}
    (hreq : t.serve.requests = s.serve.requests ++ [⟨req, dataLen, .started⟩]) (i : Nat) :
    Refused t i ↔ Refused s i := by
  unfold Refused
  rw [hreq]
  refine exists_congr fun r => exists_congr fun n => ?_
  rw [List.getElem?_append]
  split
  · rfl
  · next hlt =>
    rw [List.getElem?_eq_none (not_lt.mp hlt)]
    refine iff_of_false (fun h => ?_) (by simp)
    cases List.mem_singleton.mp (List.mem_of_getElem? h)

lemma not_mem_of_waiting (hp : PoolInv s) (h : Answers E P S c s received w order) {r : RequestThread}
    (hr : s.serve.requests[i]? = some r) (hpc : r.pc.ended = false) : i ∉ order := by
  intro hi
  rcases (h.mem i).mp hi with hex | ⟨req, dataLen, hr'⟩
  · have hfresh : s.serve.concluded i = false := by
      unfold ServeState.concluded
      rw [hr]
      exact hpc
    have hzero := (hp.fresh i hfresh).2
    have hpos := List.count_pos_iff.mpr hex
    unfold ServeState.holds at hzero
    omega
  · rw [hr'] at hr
    cases hr
    cases hpc

end Answering

/-- One step of the pool, with the goroutines it starts to write answers. -/
lemma Answers.turn {E : Env} {P : Proto V T} {S : Server V T} {c : ∀ md, EncodeChoice md}
    {s : StreamState} {t : PoolState} {order : List Nat} {a : PoolAction}
    (hs : Accounted E P S c s.pool s.received) (hp : PoolInv s.pool) (hpt : PoolInv t)
    (h : Answers E P S c s.pool s.received s.write order) (ha : a.isRead = false)
    (hm : RequestMove E P S c s.pool a t) : ∃ order', Answers E P S c t s.received
      ((startedBetween s.pool t).foldl (processAt E P S c s.received t.serve.requests)
        (s.reject E P S c a)) order' := by
  have hother : (∀ i, a ≠ .serve (.authorize i)) → s.reject E P S c a = s.write := by
    intro hne
    unfold StreamState.reject
    split
    · exact absurd rfl (hne _)
    · rfl
  cases hm with
  | idle hne _ hreq _ he _ =>
    rw [startedBetween_same he, hother hne]
    exact ⟨order, h.congr he (refused_congr hreq)⟩
  | read _ _ => cases ha
  | overwrite hr hpooled _ _ =>
    rw [hs.own _ (List.mem_of_getElem? hr)] at hpooled
    cases hpooled
  | @letIn i req _ ctx _ hr hauth hreq hw =>
    obtain ⟨conn, hget⟩ := hs.connection hr
    have hrej : s.reject E P S c (.serve (.authorize i)) = s.write := by
      simp only [StreamState.reject, hget, hr, hauth]
    rw [startedBetween_same hw.executed, hrej]
    exact ⟨order, h.congr hw.executed (refused_set hr hreq (by simp) (by simp))⟩
  | @refuse i req dataLen sent _ hr hauth hreq hw =>
    obtain ⟨conn, hget⟩ := hs.connection hr
    have hrej : s.reject E P S c (.serve (.authorize i)) =
        s.write.spawn conn (S.serveRequest E P c req) := by
      simp only [StreamState.reject, Server.serveRequest, hget, hr, hauth]
    have hlt := (List.getElem?_eq_some_iff.mp hr).1
    rw [startedBetween_same hw.executed, hrej]
    refine ⟨order ++ [i], h.serve hget (not_mem_of_waiting hp h hr rfl) fun j => ?_⟩
    rw [hw.executed, or_assoc]
    refine or_congr_right ?_
    unfold Refused
    rw [hreq]
    by_cases hij : i = j
    · subst hij
      rw [List.getElem?_set_self hlt]
      exact iff_of_true ⟨req, dataLen, rfl⟩ (.inr rfl)
    · rw [List.getElem?_set_ne hij]
      exact (or_iff_left (Ne.symm hij)).symm
  | @panic i req _ e _ hr hauth _ hreq hw =>
    obtain ⟨conn, hget⟩ := hs.connection hr
    have hrej : s.reject E P S c (.serve (.authorize i)) = s.write := by
      simp only [StreamState.reject, hget, hr, hauth]
    rw [startedBetween_same hw.executed, hrej]
    exact ⟨order, h.congr hw.executed (refused_congr hreq)⟩
  | @dispatch i req dataLen ctx _ hr hreq hto =>
    obtain ⟨conn, hget⟩ := hs.connection hr
    have hauth := hs.dispatching i req dataLen ctx hr
    have href := refused_set hr hreq (by simp) (by simp)
    have hlt := (List.getElem?_eq_some_iff.mp hr).1
    have hr' : t.serve.requests[i]? = some ⟨req, dataLen, .finished (some ctx)⟩ := by
      rw [hreq, List.getElem?_set_self hlt]
    rw [hother (by simp)]
    rcases hto with ⟨-, ⟨-, he, -⟩⟩ | ⟨-, he, -⟩ | ⟨-, he, -⟩
    · rw [startedBetween_same he]
      exact ⟨order, h.congr he href⟩
    · rw [startedBetween_same he]
      exact ⟨order, h.congr he href⟩
    · rw [startedBetween_one he, List.foldl_cons, List.foldl_nil, processAt_admitted hget hr' hauth]
      refine ⟨order ++ [i], h.serve hget (not_mem_of_waiting hp h hr rfl) fun j => ?_⟩
      rw [he, href, List.mem_append, List.mem_singleton]
      exact or_right_comm
  | @receive v i _ hreq hq he _ =>
    have hadmitted := hs.admitted i (.inr (hq ▸ List.mem_cons_self))
    obtain ⟨conn, req, dataLen, ctx, hget, hr, hauth⟩ := hadmitted
    have hr' : t.serve.requests[i]? = some ⟨req, dataLen, .finished (some ctx)⟩ := hreq ▸ hr
    have hnew : i ∉ order := by
      intro hi
      rcases (h.mem i).mp hi with hex | hrefused
      · have honce := hpt.once i
        have hpos := List.count_pos_iff.mpr hex
        simp only [ServeState.holds, he, List.count_append, List.count_singleton_self] at honce
        omega
      · exact (hs.admitted i (.inr (hq ▸ List.mem_cons_self))).not_refused hrefused
    rw [hother (by simp), startedBetween_one he, List.foldl_cons, List.foldl_nil,
      processAt_admitted hget hr' hauth]
    refine ⟨order ++ [i], h.serve hget hnew fun j => ?_⟩
    rw [he, refused_congr hreq, List.mem_append, List.mem_singleton]
    exact or_right_comm

/-! ### Whole runs -/

/-- What a step of a server can do, from the bytes it reads to the bytes it writes. -/
inductive StreamMove (E : Env) (P : Proto V T) (S : Server V T) (c : ∀ md, EncodeChoice md)
    (s : StreamState) : StreamAction → StreamState → Prop
  | accept {input p} (hp : poolStep E P S c s.pool (.serve .accept) = some p) :
    StreamMove E P S c s (.accept input)
      { s with pool := p, inbound := s.inbound ++ [⟨input, ⟨input, ioEOF⟩⟩] }
  | read {conn b req r p} (hb : s.inbound[conn]? = some b)
    (hdec : decode E S.opt.maxReceiveMessageSize b.reader = (.ok req, r))
    (hp : poolStep E P S c s.pool
      (.serve (.read conn req (b.dataLen E S.opt.maxReceiveMessageSize))) = some p) :
    StreamMove E P S c s (.read conn)
      { s with
        pool := p
        inbound := s.inbound.set conn ⟨b.whole, r⟩
        received := s.received ++ [(conn, req)] }
  | turn {a p} (ha : a.isRead = false) (hp : poolStep E P S c s.pool a = some p) :
    StreamMove E P S c s (.turn a)
      { s with
        pool := p
        write := (startedBetween s.pool p).foldl (processAt E P S c s.received p.serve.requests)
          (s.reject E P S c a) }
  | writer {a w} (ha : s.mayWrite a = true) (hw : writeStep E P S c s.write a = some w) :
    StreamMove E P S c s (.writer a) { s with write := w }

/-- The frames that a step reads have memory of their own: their data are at most 1024 bytes or more
than the largest pooled buffer. -/
def OwnFrames (E : Env) (maxLength : Int) (s : StreamState) : StreamAction → Prop
  | .read conn => ∀ b ∈ s.inbound[conn]?, ownFrame (b.dataLen E maxLength) = true
  | _ => True

instance (E : Env) (maxLength : Int) (s : StreamState) : ∀ a, Decidable (OwnFrames E maxLength s a)
  | .read conn => inferInstanceAs (Decidable (∀ b ∈ s.inbound[conn]?, _))
  | .accept _ | .turn _ | .writer _ => isTrue trivial

structure StreamInv (E : Env) (P : Proto V T) (S : Server V T) (c : ∀ md, EncodeChoice md)
    (s : StreamState) : Prop where
  pool : PoolInv s.pool
  tracked : Accounted E P S c s.pool s.received
  answers : ∃ order, Answers E P S c s.pool s.received s.write order
  logged : Logged s.write
  consumed : Consumed E S.opt.maxReceiveMessageSize s

section Run

variable {E : Env} {P : Proto V T} {S : Server V T} {c : ∀ md, EncodeChoice md} {s t : StreamState}

lemma logged_foldl (received : List (Nat × Message)) (requests : List RequestThread)
    (is : List Nat) {w : WriteState} (h : Logged w) :
    Logged (is.foldl (processAt E P S c received requests) w) := by
  induction is generalizing w with
  | nil => exact h
  | cons i is ih =>
    refine ih ?_
    unfold processAt
    split
    · exact h.spawn _ _
    · exact h

lemma logged_reject (h : Logged s.write) (a : PoolAction) : Logged (s.reject E P S c a) := by
  unfold StreamState.reject
  split
  · split
    · split
      · exact h.spawn _ _
      · exact h
    · exact h
  · exact h

/-- A step that is no read moves the pool and starts the writers of its answers. -/
lemma streamInv_turn {a : PoolAction} {p : PoolState} (hs : StreamInv E P S c s)
    (ha : a.isRead = false) (h : poolStep E P S c s.pool a = some p) :
    StreamInv E P S c { s with
      pool := p
      write := (startedBetween s.pool p).foldl (processAt E P S c s.received p.serve.requests)
        (s.reject E P S c a) } := by
  obtain ⟨order, hanswers⟩ := hs.answers
  have hmove := (poolStep_move h).thread
  have hp : PoolInv p := (poolStep_move h).inv hs.pool
  have hnoread : ∀ conn req dataLen, a ≠ .serve (.read conn req dataLen) := by
    rintro conn req dataLen rfl
    cases ha
  have hown : ReadsOwn a := by
    unfold ReadsOwn
    split
    · exact absurd rfl (hnoread _ _ _)
    · trivial
  have htracked := hs.tracked.step (poolStep_alive h) hown hmove
  have hnone : readBy a = [] := readBy_eq_nil hnoread
  rw [hnone, List.append_nil] at htracked
  exact ⟨hp, htracked, hanswers.turn hs.tracked hs.pool hp ha hmove,
    logged_foldl _ _ _ (logged_reject hs.logged a), hs.consumed.congr rfl rfl⟩

lemma streamInv_accept {input : Bytes} {p : PoolState} (hs : StreamInv E P S c s)
    (h : poolStep E P S c s.pool (.serve .accept) = some p) :
    StreamInv E P S c
      { s with pool := p, inbound := s.inbound ++ [⟨input, ⟨input, ioEOF⟩⟩] } := by
  obtain ⟨order, hanswers⟩ := hs.answers
  have hmove := (poolStep_move h).thread
  have hown : ReadsOwn (.serve .accept) := trivial
  have htracked := hs.tracked.step (poolStep_alive h) hown hmove
  rw [readBy_eq_nil (by simp), List.append_nil] at htracked
  refine ⟨(poolStep_move h).inv hs.pool, htracked, ⟨order, ?_⟩, hs.logged, hs.consumed.accept rfl rfl⟩
  cases hmove with
  | idle _ _ hreq _ he _ => exact hanswers.congr he (refused_congr hreq)

lemma streamInv_read {conn dataLen : Nat} {b : Inbound} {req : Message} {r : Reader} {p : PoolState}
    (hs : StreamInv E P S c s) (hb : s.inbound[conn]? = some b)
    (hdec : decode E S.opt.maxReceiveMessageSize b.reader = (.ok req, r))
    (hown : ownFrame dataLen = true)
    (h : poolStep E P S c s.pool (.serve (.read conn req dataLen)) = some p) :
    StreamInv E P S c { s with
      pool := p
      inbound := s.inbound.set conn ⟨b.whole, r⟩
      received := s.received ++ [(conn, req)] } := by
  obtain ⟨order, hanswers⟩ := hs.answers
  have hmove := (poolStep_move h).thread
  have hreads : ReadsOwn (.serve (.read conn req dataLen)) := hown
  refine ⟨(poolStep_move h).inv hs.pool, hs.tracked.step (poolStep_alive h) hreads hmove,
    ⟨order, ?_⟩, hs.logged, hs.consumed.read hb hdec rfl rfl⟩
  cases hmove with
  | idle _ hread _ _ _ _ => exact absurd rfl (hread _ _ _)
  | read hreq hw => exact (hanswers.read hs.tracked).congr hw.executed (refused_read hreq)

lemma streamStep_move {a : StreamAction} (h : streamStep E P S c s a = some t) :
    StreamMove E P S c s a t := by
  cases a with
  | accept input =>
    simp only [streamStep] at h
    split at h <;> cases h
    next hp => exact .accept hp
  | read conn =>
    simp only [streamStep] at h
    split at h
    · next hb =>
      split at h
      · next hdec =>
        split at h <;> cases h
        next hp => exact .read hb hdec hp
      · cases h
    · cases h
  | turn a =>
    simp only [streamStep] at h
    split at h
    · cases h
    · next hread =>
      split at h <;> cases h
      next hp => exact .turn (Bool.eq_false_of_not_eq_true hread) hp
  | writer a =>
    simp only [streamStep] at h
    split at h
    · next ha =>
      split at h <;> cases h
      next hw => exact .writer (Bool.and_eq_true_iff.mp ha).1 hw
    · cases h

lemma streamInv_step {a : StreamAction} (hs : StreamInv E P S c s)
    (hown : OwnFrames E S.opt.maxReceiveMessageSize s a)
    (h : streamStep E P S c s a = some t) : StreamInv E P S c t := by
  cases streamStep_move h with
  | accept hp => exact streamInv_accept hs hp
  | read hb hdec hp => exact streamInv_read hs hb hdec (hown _ hb) hp
  | turn ha hp => exact streamInv_turn hs ha hp
  | writer ha hw =>
    obtain ⟨order, hanswers⟩ := hs.answers
    obtain ⟨hkeys, hlogged⟩ := writer_step ha hw hs.logged
    exact ⟨hs.pool, hs.tracked, ⟨order, hanswers.nodup, hanswers.mem, hkeys.trans hanswers.keys⟩,
      hlogged, hs.consumed.congr rfl rfl⟩

lemma streamInv_init (E : Env) (P : Proto V T) (S : Server V T) (c : ∀ md, EncodeChoice md)
    (n : Nat) : StreamInv E P S c (.init n) := by
  refine ⟨poolInv_init n, ⟨rfl, ?_, ?_, ?_, ?_, ?_⟩, ⟨[], List.nodup_nil, fun i => ?_, rfl⟩, .refl _,
    ⟨?_, ?_⟩⟩
  · intro r hr
    cases hr
  · intro i req dataLen ctx h
    cases h
  · intro i req dataLen h
    cases h
  · rintro i (h | h) <;> cases h
  · intro _ i req dataLen ctx h
    cases h
  · refine iff_of_false (by simp) ?_
    rintro (h | ⟨req, dataLen, h⟩) <;> cases h
  · intro r hr
    cases hr
  · intro conn b hb
    cases hb

/-- The frames that serving the requests of a connection one after the other writes. -/
def framesAlone (E : Env) (P : Proto V T) (S : Server V T) (c : ∀ md, EncodeChoice md)
    (reqs : List Message) : List Bytes :=
  reqs.flatMap (fun req => (S.serveRequest E P c req).map Sent.frame)

lemma framesAlone_seq (E : Env) (P : Proto V T) (S : Server V T) (c : ∀ md, EncodeChoice md)
    (reqs : List Message) : ((framesAlone E P S c reqs).map (fun frame => (wireHeader frame).seq)).Sublist
      (reqs.map (fun req => req.header.seq)) := by
  induction reqs with
  | nil => exact .refl _
  | cons req reqs ih =>
    have hone := serveRequest_seq E P S c req
    unfold framesAlone at ih ⊢
    rw [List.flatMap_cons, List.map_append, List.map_map]
    exact hone.append ih

lemma framesAlone_requestsOn (s : StreamState) (conn : Nat) :
    ((s.received.flatMap (answerKeys E P S c)).filter (fun k => k.1 = conn)).map Prod.snd =
      framesAlone E P S c (s.requestsOn conn) := by
  unfold StreamState.requestsOn framesAlone
  induction s.received with
  | nil => rfl
  | cons r rs ih =>
    rw [List.flatMap_cons, List.filter_append, List.map_append, ih]
    by_cases hr : r.1 = conn
    · have hall : (answerKeys E P S c r).filter (fun k => k.1 = conn) = answerKeys E P S c r := by
        rw [List.filter_eq_self]
        intro k hk
        obtain ⟨m, -, rfl⟩ := List.mem_map.mp hk
        exact decide_eq_true hr
      have hframes : (answerKeys E P S c r).map Prod.snd =
          (S.serveRequest E P c r.2).map Sent.frame := by
        unfold answerKeys
        rw [List.map_map]
        rfl
      rw [hall, hframes, List.filter_cons_of_pos (by simpa using hr), List.map_cons,
        List.flatMap_cons]
    · have hnone : (answerKeys E P S c r).filter (fun k => k.1 = conn) = [] := by
        rw [List.filter_eq_nil_iff]
        intro k hk
        obtain ⟨m, -, rfl⟩ := List.mem_map.mp hk
        simpa using hr
      rw [hnone, List.filter_cons_of_neg (by simpa using hr)]
      rfl

lemma writesOn_frames (w : WriteState) (conn : Nat) :
    (w.writesOn conn).map ConnWrite.frame =
      ((w.log.map ConnWrite.key).filter (fun k => k.1 = conn)).map Prod.snd := by
  unfold WriteState.writesOn
  rw [List.filter_map, List.map_map]
  rfl

lemma output_sublist (ws : List FrameWriter) :
    (ws.flatMap FrameWriter.output).Sublist (ws.map FrameWriter.key) := by
  induction ws with
  | nil => exact .refl _
  | cons w ws ih =>
    have hw : (FrameWriter.output w).Sublist [FrameWriter.key w] := by
      unfold FrameWriter.output
      split
      · exact .refl _
      · exact List.nil_sublist _
    exact hw.append ih

lemma StreamInv.frames (hs : StreamInv E P S c s) (conn : Nat) :
    ((s.write.writesOn conn).map ConnWrite.frame).Subperm
      (framesAlone E P S c (s.requestsOn conn)) := by
  obtain ⟨order, hanswers⟩ := hs.answers
  have hlog : (s.write.log.map ConnWrite.key).Subperm (s.received.flatMap (answerKeys E P S c)) := by
    have hserved := flatMap_handOut_subperm (answerKeys E P S c) hanswers.nodup
      (hanswers.lt hs.tracked)
    rw [← hanswers.keys] at hserved
    exact (hs.logged.subperm.trans (output_sublist _).subperm).trans hserved
  rw [writesOn_frames, ← framesAlone_requestsOn]
  exact subperm_map _ (hlog.filter _)

lemma StreamInv.seqs (hs : StreamInv E P S c s) (conn : Nat) :
    ((s.write.writesOn conn).map (fun w => (wireHeader w.frame).seq)).Subperm
      ((s.requestsOn conn).map (fun req => req.header.seq)) := by
  have hseq := subperm_map (fun frame => (wireHeader frame).seq) (hs.frames conn)
  rw [List.map_map] at hseq
  exact hseq.trans (framesAlone_seq E P S c _).subperm

end Run

/-- The bytes of a message that is not compressed. -/
def plainFrame (m : Message) : Bytes :=
  match m.encode storedEnv (.plain _) with
  | .ok (frame, _) => frame
  | .error _ => []

/-- A goroutine writes its answer of 49 bytes. -/
def writeAnswer (w : Nat) : List StreamAction :=
  [.writer (.getConnMutex w), .writer (.lock w), .writer (.write w 49), .writer (.unlock w)]

/-- A client sends two requests and another one sends one; a single worker takes the second request
of the first client first, and the answers are written in a third order. -/
def twoClients : List StreamAction :=
  [.accept (plainFrame authorizedRequest ++
      plainFrame { authorizedRequest with header := ⟨magicNumber, 1, 0x10, 8⟩ }),
    .accept (plainFrame authorizedRequest), .turn (.serve (.check 0)), .read 0,
    .turn (.serve (.check 1)), .read 1, .turn (.serve (.check 0)), .read 0,
    .turn (.serve (.authorize 0)), .turn (.serve (.authorize 2)), .turn (.serve (.authorize 1)),
    .turn (.serve (.dispatch 2)), .turn (.worker 0), .turn (.serve (.dispatch 1)),
    .turn (.serve (.dispatch 0)), .turn (.worker 0), .turn (.worker 0), .turn (.worker 0),
    .turn (.worker 0)] ++ writeAnswer 1 ++ writeAnswer 0 ++ writeAnswer 2

/-- Every request that was read has been dispatched or refused, the channel is empty and every
answer has been given to `conn.Write`. -/
structure AtRest (s : StreamState) : Prop where
  served : ∀ r ∈ s.pool.serve.requests, RequestPc.ended r.pc = true
  channel : s.pool.serve.queue = []
  written : ∀ w ∈ s.write.writers, WriterPc.wrote w.pc = true

instance (s : StreamState) : Decidable (AtRest s) :=
  decidable_of_iff ((∀ r ∈ s.pool.serve.requests, RequestPc.ended r.pc = true) ∧
    s.pool.serve.queue = [] ∧ ∀ w ∈ s.write.writers, WriterPc.wrote w.pc = true)
    ⟨fun h => ⟨h.1, h.2.1, h.2.2⟩, fun h => ⟨h.served, h.channel, h.written⟩⟩

/-- The condition under which a step loses no request: the goroutine of `stop` that empties the
channel finds it empty, and functions are only sent to workers that exist. -/
def StreamKeeps (opt : ServerOption) (s : StreamState) : StreamAction → Prop
  | .turn a => Keeps opt s.pool a
  | _ => True

instance (opt : ServerOption) (s : StreamState) : ∀ a, Decidable (StreamKeeps opt s a)
  | .turn a => inferInstanceAs (Decidable (Keeps opt s.pool a))
  | .accept _ | .read _ | .writer _ => isTrue trivial

section Rest

variable {E : Env} {P : Proto V T} {S : Server V T} {c : ∀ md, EncodeChoice md} {s t : StreamState}

lemma streamStep_kept {a : StreamAction} (hs : StreamInv E P S c s) (hk : Kept s.pool)
    (ha : StreamKeeps S.opt s a) (h : streamStep E P S c s a = some t) : Kept t.pool := by
  cases streamStep_move h with
  | accept hp | read _ _ hp => exact (kept_iff_keeps hs.pool hk (poolStep_move hp)).mpr trivial
  | turn _ hp => exact (kept_iff_keeps hs.pool hk (poolStep_move hp)).mpr ha
  | writer => exact hk

/-- At rest, and with nothing lost, every request has been served. -/
lemma mem_order_at_rest {order : List Nat} (hs : StreamInv E P S c s) (hk : Kept s.pool)
    (hlive : s.pool.serve.crashed = false) (hrest : AtRest s)
    (h : Answers E P S c s.pool s.received s.write order) (i : Nat) :
    i ∈ order ↔ i < s.received.length := by
  refine ⟨h.lt hs.tracked i, fun hi => ?_⟩
  have hlen : s.pool.serve.requests.length = s.received.length := by
    have hmap := congrArg List.length hs.tracked.requests
    rwa [List.length_map, List.length_map] at hmap
  obtain ⟨⟨req, dataLen, pc⟩, hr⟩ : ∃ r, s.pool.serve.requests[i]? = some r :=
    ⟨_, List.getElem?_eq_getElem (hlen ▸ hi)⟩
  rw [h.mem]
  cases pc with
  | started | dispatching _ => cases hrest.served _ (List.mem_of_getElem? hr)
  | finished ctx =>
    cases ctx with
    | none => exact .inr ⟨req, dataLen, hr⟩
    | some ctx =>
      rcases hs.tracked.settled hlive i req dataLen ctx hr with hex | hsent
      · exact .inl hex
      · have hone := hk.holds i hsent
        rw [ServeState.holds, hrest.channel, List.count_nil, Nat.add_zero] at hone
        exact .inl (List.count_pos_iff.mp (by omega))

lemma output_of_wrote {ws : List FrameWriter} (h : ∀ w ∈ ws, WriterPc.wrote w.pc = true) :
    ws.flatMap FrameWriter.output = ws.map FrameWriter.key := by
  induction ws with
  | nil => rfl
  | cons w ws ih =>
    have hw : FrameWriter.output w = [FrameWriter.key w] := if_pos (h w List.mem_cons_self)
    rw [List.flatMap_cons, hw, ih (fun v hv => h v (List.mem_cons_of_mem _ hv))]
    rfl

lemma frames_at_rest (hs : StreamInv E P S c s) (hk : Kept s.pool)
    (hlive : s.pool.serve.crashed = false) (hrest : AtRest s) (conn : Nat) :
    ((s.write.writesOn conn).map ConnWrite.frame).Perm
      (framesAlone E P S c (s.requestsOn conn)) := by
  obtain ⟨order, hanswers⟩ := hs.answers
  have hlog : (s.write.log.map ConnWrite.key).Perm (s.received.flatMap (answerKeys E P S c)) := by
    have hserved := flatMap_handOut_perm (answerKeys E P S c) hanswers.nodup
      (mem_order_at_rest hs hk hlive hrest hanswers)
    rw [← hanswers.keys, ← output_of_wrote hrest.written] at hserved
    exact hs.logged.trans hserved
  rw [writesOn_frames, ← framesAlone_requestsOn]
  exact (hlog.filter _).map _

end Rest

end Zrpc.Proofs
