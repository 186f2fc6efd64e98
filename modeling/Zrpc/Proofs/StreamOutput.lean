import Zrpc.Lib.Served
import Zrpc.Proofs.ServerWrite
import Zrpc.ServerStream

/-!
# What goes in and out of a connection

An answer carries the sequence number of its request; the log of writes holds one write of each
goroutine that has made its own; and the requests of a connection are the messages at the front of
what its client sends.
-/

namespace Zrpc.Proofs

open Zrpc.Lib

variable {V T : Type}

/-! ### The sequence number of an answer -/

/-- What a response takes over from its request. -/
def Header.identity (h : Header) : UInt8 × UInt64 := (h.magic, h.seq)

section Sequence

variable {E : Env} {P : Proto V T} {S : Server V T} {c : ∀ md, EncodeChoice md}
  {opt : ServerOption} {req res : Message} {sent : Sent}

lemma handleError_identity {e : GoString} {res' : Message} (h : handleError E opt res e = .ok res') :
    Header.identity res'.header = Header.identity res.header := by
  obtain ⟨res₁, heq, hheader, -⟩ := handleError_eq E opt res e
  rw [h] at heq
  cases heq
  rw [hheader]
  rfl

lemma prepareResponse_identity {originalErr : Option GoString} {reply : Option V} {res' : Message}
    (h : prepareResponse E P opt originalErr req res reply = .ok res') :
    Header.identity res'.header = Header.identity res.header := by
  unfold prepareResponse at h
  cases reply with
  | none =>
    cases h
    rfl
  | some v =>
    dsimp only at h
    split at h
    · obtain ⟨pair, hpair, hrest⟩ := bind_eq_ok h
      cases hpair
      dsimp only at hrest
      split at hrest
      · cases hrest
        rfl
      · split at hrest <;> cases hrest <;> rfl
    · split at h
      · obtain ⟨res₁, herr, hrest⟩ := bind_eq_ok h
        cases hrest
        exact handleError_identity herr
      · cases h
        rfl

/-- The answer is a message with the identity of the request. -/
def Responds (E : Env) (c : ∀ md, EncodeChoice md) (req : Message) (sent : Sent) : Prop :=
  ∃ res : Message, res.send E c = .ok sent ∧ Header.identity res.header = Header.identity req.header

lemma sendResponse_responds {originalErr : Option GoString} {reply : Option V}
    (hres : Header.identity res.header = Header.identity req.header)
    (h : sendResponse E P opt c originalErr req res reply = .ok sent) : Responds E c req sent := by
  obtain ⟨res', hprep, hsend⟩ := bind_eq_ok h
  exact ⟨res', hsend, (prepareResponse_identity hprep).trans hres⟩

lemma reject_responds {e : GoString} (h : S.reject E P c req e = .ok sent) :
    Responds E c req sent := by
  obtain ⟨res, herr, hsend⟩ := bind_eq_ok h
  exact sendResponse_responds ((handleError_identity herr).trans rfl) hsend

lemma handleRequest_responds {ctx : Ctx} (h : S.handleRequest E P c ctx req = .ok sent) :
    Responds E c req sent := by
  have hset : ∀ attached : List MD, Header.identity (attached.foldl setMeta (responseOf req)).header =
      Header.identity req.header := by
    intro attached
    rw [(foldl_setMeta attached (responseOf req)).1]
    rfl
  obtain ⟨methods, -, hrest⟩ := bind_eq_ok h
  split at hrest
  · have hclone : Header.identity req.clone.header = Header.identity req.header := rfl
    exact sendResponse_responds hclone hrest
  · split at hrest
    · cases hrest
    · exact sendResponse_responds (hset _) hrest
    · obtain ⟨res, herr, hsend⟩ := bind_eq_ok hrest
      exact sendResponse_responds ((handleError_identity herr).trans (hset _)) hsend

/-- What `serveRequest` writes itself is the answer to a rejected request. -/
lemma authorize_refused (h : S.authorize E P c req = .ok (.inr sent)) :
    ∃ err, S.reject E P c req err = .ok sent := by
  obtain ⟨ctx, -, hrest⟩ := bind_eq_ok h
  dsimp only at hrest
  split at hrest
  · cases hrest
  · cases hrest
  · next err _ =>
    refine ⟨err, ?_⟩
    cases hrej : S.reject E P c req err with
    | ok sent' =>
      rw [hrej] at hrest
      cases hrest
      rfl
    | error e =>
      rw [hrej] at hrest
      cases hrest

/-- A request has at most one answer, and that has its identity. -/
lemma serveRequest_cases (E : Env) (P : Proto V T) (S : Server V T) (c : ∀ md, EncodeChoice md)
    (req : Message) : S.serveRequest E P c req = [] ∨
      ∃ sent, S.serveRequest E P c req = [sent] ∧ Responds E c req sent := by
  unfold Server.serveRequest
  split
  · next ctx _ =>
    unfold Server.processOneRequest
    dsimp only
    split
    · next sent hsent =>
      refine .inr ⟨sent, rfl, ?_⟩
      split at hsent
      · exact ⟨responseOf req, hsent, rfl⟩
      · exact handleRequest_responds hsent
    · exact .inl rfl
  · next sent hauth =>
    refine .inr ⟨sent, rfl, ?_⟩
    obtain ⟨err, hrej⟩ := authorize_refused hauth
    exact reject_responds hrej
  · exact .inl rfl

lemma serveRequest_responds (h : sent ∈ S.serveRequest E P c req) : Responds E c req sent := by
  rcases serveRequest_cases E P S c req with hnone | ⟨sent', hone, hresponds⟩
  · rw [hnone] at h
    cases h
  · rw [hone] at h
    rw [List.mem_singleton.mp h]
    exact hresponds

/-- The answer carries the request's sequence number. -/
lemma serveRequest_seq (E : Env) (P : Proto V T) (S : Server V T) (c : ∀ md, EncodeChoice md)
    (req : Message) : ((S.serveRequest E P c req).map (fun m => (wireHeader m.frame).seq)).Sublist
      [req.header.seq] := by
  rcases serveRequest_cases E P S c req with hnone | ⟨sent, hone, res, hsend, hid⟩
  · rw [hnone]
    exact List.nil_sublist _
  · obtain ⟨frame, hframe, -, -, hseq⟩ := send_eq E c res
    cases hsend.symm.trans hframe
    rw [hone, List.map_singleton, hseq, (Prod.mk.inj hid).2]

end Sequence

/-! ### Writers and the log -/

def FrameWriter.key (w : FrameWriter) : Nat × Bytes := (w.conn, w.frame)

def WriterPc.wrote : WriterPc → Bool
  | .written _ | .finished => true
  | .encoded | .waiting _ | .locked _ => false

def ConnWrite.key (w : ConnWrite) : Nat × Bytes := (w.conn, w.frame)

/-- What a goroutine has written. -/
def FrameWriter.output (w : FrameWriter) : List (Nat × Bytes) :=
  if WriterPc.wrote w.pc then [FrameWriter.key w] else []

/-- The log holds one write of each goroutine that has made its own. -/
def Logged (w : WriteState) : Prop :=
  (w.log.map ConnWrite.key).Perm (w.writers.flatMap FrameWriter.output)

lemma Logged.spawn {w : WriteState} (h : Logged w) (conn : Nat) (sent : List Sent) :
    Logged (w.spawn conn sent) := by
  have hnone : (sent.map (fun m => FrameWriter.mk conn m.frame .encoded)).flatMap
      FrameWriter.output = [] := by
    rw [List.flatMap_eq_nil_iff]
    intro v hv
    obtain ⟨m, -, rfl⟩ := List.mem_map.mp hv
    rfl
  unfold Logged WriteState.spawn
  rw [List.flatMap_append, hnone, List.append_nil]
  exact h

lemma Logged.setPc {w w' : WriteState} {i : Nat} {v : FrameWriter} {pc : WriterPc} (h : Logged w)
    (hv : w.writers[i]? = some v) (hwriters : w'.writers = w.writers.set i { v with pc := pc })
    (hlog : w'.log = w.log) (hpc : WriterPc.wrote pc = WriterPc.wrote v.pc) : Logged w' := by
  have hsame : FrameWriter.output { v with pc := pc } = FrameWriter.output v := by
    unfold FrameWriter.output
    rw [hpc]
    rfl
  have hperm := flatMap_set_perm FrameWriter.output hv { v with pc := pc }
  rw [hsame, List.perm_append_left_iff] at hperm
  unfold Logged
  rw [hwriters, hlog]
  exact h.trans hperm.symm

lemma Logged.write {w w' : WriteState} {i count : Nat} {v : FrameWriter} {pc : WriterPc}
    (h : Logged w) (hv : w.writers[i]? = some v)
    (hwriters : w'.writers = w.writers.set i { v with pc := pc })
    (hlog : w'.log = w.log ++ [⟨v.conn, v.frame, count⟩]) (hold : WriterPc.wrote v.pc = false)
    (hnew : WriterPc.wrote pc = true) : Logged w' := by
  have hperm := flatMap_set_perm FrameWriter.output hv { v with pc := pc }
  have hbefore : FrameWriter.output v = [] := by
    unfold FrameWriter.output
    rw [if_neg (by simp [hold])]
  have hafter : FrameWriter.output { v with pc := pc } = [(v.conn, v.frame)] := by
    unfold FrameWriter.output
    rw [if_pos hnew]
    rfl
  rw [hbefore, hafter, List.nil_append] at hperm
  unfold Logged
  rw [hwriters, hlog, List.map_append]
  exact (List.perm_append_comm.trans (h.append_left _)).trans hperm.symm

/-- A step of a writer or of `removeConn` starts no goroutine. -/
lemma writer_step {E : Env} {P : Proto V T} {S : Server V T} {c : ∀ md, EncodeChoice md}
    {s : StreamState} {a : WriteAction} {w : WriteState} (ha : s.mayWrite a = true)
    (h : writeStep E P S c s.write a = some w) (hs : Logged s.write) :
    w.writers.map FrameWriter.key = s.write.writers.map FrameWriter.key ∧ Logged w := by
  have hkeys : ∀ {i : Nat} {v : FrameWriter} (pc : WriterPc), s.write.writers[i]? = some v →
      (s.write.writers.set i { v with pc := pc }).map FrameWriter.key =
        s.write.writers.map FrameWriter.key := by
    intro i v pc hv
    have hv' : (s.write.writers.map FrameWriter.key)[i]? = some (FrameWriter.key v) := by
      rw [List.getElem?_map, hv]
      rfl
    rw [List.map_set]
    exact set_of_getElem? hv'
  cases a with
  | process _ _ _ | reject _ _ _ => cases ha
  | getConnMutex i =>
    simp only [writeStep] at h
    split at h <;> cases h
    rename_i conn frame hv
    unfold WriteState.getConnMutex
    split
    · exact ⟨hkeys _ hv, hs.setPc hv rfl rfl rfl⟩
    · exact ⟨hkeys _ hv, hs.setPc hv rfl rfl rfl⟩
  | lock i =>
    simp only [writeStep] at h
    split at h
    · rename_i conn frame mu hv
      split at h <;> cases h
      exact ⟨hkeys _ hv, hs.setPc hv rfl rfl rfl⟩
    · cases h
  | write i count =>
    simp only [writeStep, WriteState.write] at h
    split at h
    · rename_i conn frame mu hv
      split at h <;> cases h
      exact ⟨hkeys _ hv, hs.write hv rfl rfl rfl rfl⟩
    · cases h
  | unlock i =>
    simp only [writeStep] at h
    split at h <;> cases h
    rename_i conn frame mu hv
    exact ⟨hkeys _ hv, hs.setPc hv rfl rfl rfl⟩
  | dropMutex conn | close conn =>
    cases h
    exact ⟨rfl, hs⟩

/-! ### What was read -/

lemma decodeMany_concat {E : Env} {maxLength : Int} {k : Nat} {r r' r'' : Reader} {ms : List Message}
    {m : Message} (h : decodeMany E maxLength k r = (.ok ms, r'))
    (hm : decode E maxLength r' = (.ok m, r'')) :
    decodeMany E maxLength (k + 1) r = (.ok (ms ++ [m]), r'') := by
  induction k generalizing r ms with
  | zero =>
    cases h
    simp only [decodeMany, hm, List.nil_append]
  | succ k ih =>
    rw [decodeMany] at h
    split at h
    · cases h
    · next first r₁ hfirst =>
      split at h
      · cases h
      · next rest r₂ hrest =>
        cases h
        rw [decodeMany, hfirst]
        dsimp only
        rw [ih hrest]
        rfl

/-- The requests of each connection are the messages at the front of what its client sends. -/
structure Consumed (E : Env) (maxLength : Int) (s : StreamState) : Prop where
  conns : ∀ r ∈ s.received, r.1 < s.inbound.length
  decoded : ∀ (conn : Nat) (b : Inbound), s.inbound[conn]? = some b →
    decodeMany E maxLength (s.requestsOn conn).length ⟨b.whole, ioEOF⟩ =
      (.ok (s.requestsOn conn), b.reader)

section Reading

variable {E : Env} {maxLength : Int} {s t : StreamState}

lemma Consumed.congr (h : Consumed E maxLength s) (hin : t.inbound = s.inbound)
    (hre : t.received = s.received) : Consumed E maxLength t := by
  refine ⟨hin ▸ hre ▸ h.conns, fun conn b hb => ?_⟩
  unfold StreamState.requestsOn
  rw [hre]
  exact h.decoded conn b (hin ▸ hb)

lemma Consumed.accept {input : Bytes} (h : Consumed E maxLength s)
    (hin : t.inbound = s.inbound ++ [⟨input, ⟨input, ioEOF⟩⟩]) (hre : t.received = s.received) :
    Consumed E maxLength t := by
  have hrequests : ∀ conn, t.requestsOn conn = s.requestsOn conn := by
    intro conn
    unfold StreamState.requestsOn
    rw [hre]
  refine ⟨fun r hr => ?_, fun conn b hb => ?_⟩
  · have hlt := h.conns r (hre ▸ hr)
    rw [hin, List.length_append, List.length_singleton]
    omega
  · rw [hrequests]
    rw [hin, List.getElem?_append] at hb
    split at hb
    · exact h.decoded conn b hb
    · next hlt =>
      have hnone : s.requestsOn conn = [] := by
        unfold StreamState.requestsOn
        rw [List.map_eq_nil_iff, List.filter_eq_nil_iff]
        intro r hr heq
        exact hlt (of_decide_eq_true heq ▸ h.conns r hr)
      rw [hnone, List.mem_singleton.mp (List.mem_of_getElem? hb)]
      rfl

lemma Consumed.read {conn : Nat} {b : Inbound} {req : Message} {r : Reader}
    (h : Consumed E maxLength s) (hb : s.inbound[conn]? = some b)
    (hdec : decode E maxLength b.reader = (.ok req, r))
    (hin : t.inbound = s.inbound.set conn ⟨b.whole, r⟩)
    (hre : t.received = s.received ++ [(conn, req)]) : Consumed E maxLength t := by
  have hlt := (List.getElem?_eq_some_iff.mp hb).1
  refine ⟨fun p hp => ?_, fun k b' hb' => ?_⟩
  · rw [hin, List.length_set]
    rw [hre] at hp
    rcases List.mem_append.mp hp with hold | hnew
    · exact h.conns p hold
    · rw [List.mem_singleton.mp hnew]
      exact hlt
  · unfold StreamState.requestsOn
    rw [hin] at hb'
    rw [hre, List.filter_append, List.map_append]
    rcases getElem?_set_cases hb' with ⟨rfl, rfl⟩ | ⟨hne, hold⟩
    · have hone : [(conn, req)].filter (fun p => p.1 = conn) = [(conn, req)] := by simp
      rw [hone, List.length_append]
      exact decodeMany_concat (h.decoded conn b hb) hdec
    · have hnone : [(conn, req)].filter (fun p => p.1 = k) = [] := by simp [hne]
      rw [hnone, List.map_nil, List.append_nil]
      exact h.decoded k b' hold

end Reading

end Zrpc.Proofs
