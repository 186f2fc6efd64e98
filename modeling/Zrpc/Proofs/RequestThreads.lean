import Zrpc.Lib.Served
import Zrpc.Proofs.WorkerPool

/-!
# The goroutines of `serveRequest`

What the steps of a server with a worker pool do to the requests that were read: `auth` decides, the
request is refused, sent into the channel or processed, and a function from the channel belongs to a
request that was let in.
-/

namespace Zrpc.Proofs

open Zrpc.Lib

variable {V T : Type}

/-! ### What the pool's steps do to the requests -/

/-- A step leaves the channel and the processed requests as they are. -/
structure SameWork (s t : PoolState) : Prop where
  queue : t.serve.queue = s.serve.queue
  executed : t.serve.executed = s.serve.executed
  sent : t.sent = s.sent

/-- The steps of `poolStep`, as changes of the requests, the channel and the processed requests. -/
inductive RequestMove (E : Env) (P : Proto V T) (S : Server V T) (c : ∀ md, EncodeChoice md)
    (s : PoolState) : PoolAction → PoolState → Prop
  | idle {a} {t : PoolState} (ha : ∀ i, a ≠ .serve (.authorize i))
    (hread : ∀ conn req dataLen, a ≠ .serve (.read conn req dataLen))
    (hreq : t.serve.requests = s.serve.requests) (hq : t.serve.queue ⊆ s.serve.queue)
    (he : t.serve.executed = s.serve.executed) (hsent : t.sent = s.sent) : RequestMove E P S c s a t
  | read {conn req dataLen} {t : PoolState}
    (hreq : t.serve.requests = s.serve.requests ++ [⟨req, dataLen, .started⟩])
    (hw : SameWork s t) : RequestMove E P S c s (.serve (.read conn req dataLen)) t
  | overwrite {i r serviceName serviceMethod metadata} {t : PoolState}
    (hr : s.serve.requests[i]? = some r) (hpooled : ownFrame r.dataLen = false)
    (hreq : t.serve.requests =
      s.serve.requests.set i (r.overwrite serviceName serviceMethod metadata))
    (hw : SameWork s t) :
    RequestMove E P S c s (.serve (.overwrite i serviceName serviceMethod metadata)) t
  | letIn {i req dataLen ctx} {t : PoolState}
    (hr : s.serve.requests[i]? = some ⟨req, dataLen, .started⟩)
    (hauth : S.authorize E P c req = .ok (.inl ctx))
    (hreq : t.serve.requests = s.serve.requests.set i ⟨req, dataLen, .dispatching ctx⟩)
    (hw : SameWork s t) : RequestMove E P S c s (.serve (.authorize i)) t
  | refuse {i req dataLen sent} {t : PoolState}
    (hr : s.serve.requests[i]? = some ⟨req, dataLen, .started⟩)
    (hauth : S.authorize E P c req = .ok (.inr sent))
    (hreq : t.serve.requests = s.serve.requests.set i ⟨req, dataLen, .finished none⟩)
    (hw : SameWork s t) : RequestMove E P S c s (.serve (.authorize i)) t
  | panic {i req dataLen e} {t : PoolState}
    (hr : s.serve.requests[i]? = some ⟨req, dataLen, .started⟩)
    (hauth : S.authorize E P c req = .error e) (hdead : t.serve.crashed = true)
    (hreq : t.serve.requests = s.serve.requests) (hw : SameWork s t) :
    RequestMove E P S c s (.serve (.authorize i)) t
  | dispatch {i req dataLen ctx} {t : PoolState}
    (hr : s.serve.requests[i]? = some ⟨req, dataLen, .dispatching ctx⟩)
    (hreq : t.serve.requests = s.serve.requests.set i ⟨req, dataLen, .finished (some ctx)⟩)
    (hto : (t.serve.crashed = true ∧ SameWork s t) ∨
      (t.serve.queue = s.serve.queue ++ [i] ∧ t.serve.executed = s.serve.executed ∧
        t.sent = s.sent ++ [i]) ∨
      (t.serve.queue = s.serve.queue ∧ t.serve.executed = s.serve.executed ++ [i] ∧
        t.sent = s.sent)) : RequestMove E P S c s (.serve (.dispatch i)) t
  | receive {w i} {t : PoolState} (hreq : t.serve.requests = s.serve.requests)
    (hq : s.serve.queue = i :: t.serve.queue) (he : t.serve.executed = s.serve.executed ++ [i])
    (hsent : t.sent = s.sent) : RequestMove E P S c s (.worker w) t

section Pool

variable {E : Env} {P : Proto V T} {S : Server V T} {c : ∀ md, EncodeChoice md} {s t : PoolState}
  {a : PoolAction}

lemma DispatchMove.thread {i : Nat} {req : Message} {dataLen : Nat} {ctx : Ctx} {u : ServeState}
    (hr : s.serve.requests[i]? = some ⟨req, dataLen, .dispatching ctx⟩)
    (h : DispatchMove S.opt (s.serve.setRequest i ⟨req, dataLen, .finished (some ctx)⟩) i u) :
    RequestMove E P S c s (.serve (.dispatch i))
      { s with serve := u, sent := s.recordSent S.opt (.dispatch i) } := by
  cases h with
  | crash _ hclosed =>
    have hsends : s.serve.sends S.opt = false := not_sends_of_closed hclosed
    exact .dispatch hr rfl (.inl ⟨rfl, rfl, rfl, recordSent_direct hsends⟩)
  | send hsends => exact .dispatch hr rfl (.inr (.inl ⟨rfl, rfl, recordSent_send hsends⟩))
  | direct hsends => exact .dispatch hr rfl (.inr (.inr ⟨rfl, rfl, recordSent_direct hsends⟩))

lemma ServeMove.thread {b : ServeAction} {u : ServeState} (hw : b ≠ .work)
    (h : ServeMove E P S c s.serve b u) :
    RequestMove E P S c s (.serve b) { s with serve := u, sent := s.recordSent S.opt b } := by
  cases h with
  | work => exact absurd rfl hw
  | accept | check | hangUp | stop | startDrain | close | spin =>
    exact .idle (by simp) (by simp) rfl (List.Subset.refl _) rfl rfl
  | discard _ hq =>
    refine .idle (by simp) (by simp) rfl ?_ rfl rfl
    rw [hq]
    exact List.subset_cons_self _ _
  | read => exact .read rfl ⟨rfl, rfl, rfl⟩
  | overwrite hr hpooled => exact .overwrite hr hpooled rfl ⟨rfl, rfl, rfl⟩
  | letIn hr hauth => exact .letIn hr hauth rfl ⟨rfl, rfl, rfl⟩
  | refuse hr hauth => exact .refuse hr hauth rfl ⟨rfl, rfl, rfl⟩
  | panic hr hauth => exact .panic hr hauth rfl rfl ⟨rfl, rfl, rfl⟩
  | dispatch hr hd => exact hd.thread hr

lemma PoolMove.thread (h : PoolMove E P S c s a t) : RequestMove E P S c s a t := by
  cases h with
  | serve hb hu => exact (serveStep_move hu).thread hb
  | receive _ _ hq => exact .receive rfl hq rfl rfl
  | turn _ ha =>
    exact .idle (fun i => ha _) (fun conn req dataLen => ha _) rfl (List.Subset.refl _) rfl rfl

end Pool

/-! ### Requests and verdicts -/

/-- The request a step reads, with its connection. -/
def readBy : PoolAction → List (Nat × Message)
  | .serve (.read conn req _) => [(conn, req)]
  | _ => []

lemma readBy_eq_nil {a : PoolAction} (h : ∀ conn req dataLen, a ≠ .serve (.read conn req dataLen)) :
    readBy a = [] := by
  unfold readBy
  split
  · exact absurd rfl (h _ _ _)
  · rfl

/-- What the step reads lies in memory of its own. -/
def ReadsOwn : PoolAction → Prop
  | .serve (.read _ _ dataLen) => ownFrame dataLen = true
  | _ => True

/-- `auth` let request `i` in, and `serveRequest` has dispatched it with its context. -/
def Admitted (E : Env) (P : Proto V T) (S : Server V T) (c : ∀ md, EncodeChoice md) (s : PoolState)
    (received : List (Nat × Message)) (i : Nat) : Prop :=
  ∃ conn req dataLen ctx, received[i]? = some (conn, req) ∧
    s.serve.requests[i]? = some ⟨req, dataLen, .finished (some ctx)⟩ ∧
    S.authorize E P c req = .ok (.inl ctx)

/-- `auth` did not let request `i` in, and `serveRequest` has answered it. -/
def Refused (s : PoolState) (i : Nat) : Prop :=
  ∃ req dataLen, s.serve.requests[i]? = some ⟨req, dataLen, .finished none⟩

/-- The goroutines of `serveRequest` work on what was read, and act on the verdict of `auth`. -/
structure Accounted (E : Env) (P : Proto V T) (S : Server V T) (c : ∀ md, EncodeChoice md)
    (s : PoolState) (received : List (Nat × Message)) : Prop where
  requests : s.serve.requests.map RequestThread.req = received.map Prod.snd
  own : ∀ r ∈ s.serve.requests, ownFrame r.dataLen = true
  dispatching : ∀ (i : Nat) (req : Message) (dataLen : Nat) (ctx : Ctx),
    s.serve.requests[i]? = some ⟨req, dataLen, .dispatching ctx⟩ →
      S.authorize E P c req = .ok (.inl ctx)
  refused : ∀ (i : Nat) (req : Message) (dataLen : Nat),
    s.serve.requests[i]? = some ⟨req, dataLen, .finished none⟩ →
      ∃ sent, S.authorize E P c req = .ok (.inr sent)
  admitted : ∀ i, i ∈ s.serve.executed ∨ i ∈ s.serve.queue → Admitted E P S c s received i
  settled : s.serve.crashed = false → ∀ (i : Nat) (req : Message) (dataLen : Nat) (ctx : Ctx),
    s.serve.requests[i]? = some ⟨req, dataLen, .finished (some ctx)⟩ →
      i ∈ s.serve.executed ∨ i ∈ s.sent

section Tracking

variable {E : Env} {P : Proto V T} {S : Server V T} {c : ∀ md, EncodeChoice md} {s t : PoolState}
  {received : List (Nat × Message)} {a : PoolAction}

lemma Accounted.connection (hs : Accounted E P S c s received) {i : Nat} {r : RequestThread}
    (h : s.serve.requests[i]? = some r) : ∃ conn, received[i]? = some (conn, r.req) := by
  have hmap : (received.map Prod.snd)[i]? = some r.req := by
    rw [← hs.requests, List.getElem?_map, h]
    rfl
  rw [List.getElem?_map] at hmap
  obtain ⟨⟨conn, req⟩, hget, rfl⟩ := Option.map_eq_some_iff.mp hmap
  exact ⟨conn, hget⟩

lemma Admitted.append {i : Nat} (h : Admitted E P S c s received i) (more : List (Nat × Message)) :
    Admitted E P S c s (received ++ more) i := by
  obtain ⟨conn, req, dataLen, ctx, hget, hr, hauth⟩ := h
  have hlt := (List.getElem?_eq_some_iff.mp hget).1
  exact ⟨conn, req, dataLen, ctx, (List.getElem?_append_left hlt).trans hget, hr, hauth⟩

/-- A goroutine that has dispatched its request stays as it is. -/
lemma Admitted.keep {i : Nat} (h : Admitted E P S c s received i)
    (hreq : ∀ r, s.serve.requests[i]? = some r → r.pc.ended = true → t.serve.requests[i]? = some r) :
    Admitted E P S c t received i := by
  obtain ⟨conn, req, dataLen, ctx, hget, hr, hauth⟩ := h
  exact ⟨conn, req, dataLen, ctx, hget, hreq _ hr rfl, hauth⟩

lemma Admitted.not_refused {i : Nat} (h : Admitted E P S c s received i) : ¬Refused s i := by
  rintro ⟨req, dataLen, hr⟩
  obtain ⟨conn, req', dataLen', ctx, -, hr', -⟩ := h
  cases hr.symm.trans hr'

lemma Accounted.of_idle (hs : Accounted E P S c s received)
    (hreq : t.serve.requests = s.serve.requests) (hq : t.serve.queue ⊆ s.serve.queue)
    (he : t.serve.executed = s.serve.executed) (hsent : t.sent = s.sent)
    (halive : s.serve.crashed = false) : Accounted E P S c t received := by
  refine ⟨hreq ▸ hs.requests, hreq ▸ hs.own, hreq ▸ hs.dispatching, hreq ▸ hs.refused,
    fun i hi => ?_, fun _ => ?_⟩
  · have hold := hs.admitted i (hi.imp (fun h => he ▸ h) (fun h => hq h))
    exact hold.keep fun r hr _ => hreq ▸ hr
  · rw [hreq, he, hsent]
    exact hs.settled halive

/-- A goroutine moves on with its request. -/
lemma map_req_set {i : Nat} {req : Message} {dataLen dataLen' : Nat} {pc pc' : RequestPc}
    (hr : s.serve.requests[i]? = some ⟨req, dataLen, pc⟩) :
    (s.serve.requests.set i ⟨req, dataLen', pc'⟩).map RequestThread.req =
      s.serve.requests.map RequestThread.req := by
  have hr' : (s.serve.requests.map RequestThread.req)[i]? = some req := by
    rw [List.getElem?_map, hr]
    rfl
  rw [List.map_set]
  exact set_of_getElem? hr'

/-- Whoever is at the end of `serveRequest` is not the goroutine that moves. -/
lemma getElem?_set_of_ended {i j : Nat} {r r' x : RequestThread}
    (hr : s.serve.requests[i]? = some r) (hpc : r.pc.ended = false)
    (hx : s.serve.requests[j]? = some x) (hend : x.pc.ended = true) :
    (s.serve.requests.set i r')[j]? = some x := by
  have hij : i ≠ j := by
    rintro rfl
    cases hr.symm.trans hx
    rw [hpc] at hend
    cases hend
  exact (List.getElem?_set_ne hij).trans hx

/-- A goroutine of `serveRequest` moves on with its request, and no work is handed over. -/
lemma Accounted.of_set {i dataLen : Nat} {req : Message} {pc pc' : RequestPc}
    (hs : Accounted E P S c s received) (hr : s.serve.requests[i]? = some ⟨req, dataLen, pc⟩)
    (hpc : pc.ended = false)
    (hreq : t.serve.requests = s.serve.requests.set i ⟨req, dataLen, pc'⟩) (hw : SameWork s t)
    (halive : s.serve.crashed = false)
    (hgo : ∀ ctx, pc' = .dispatching ctx → S.authorize E P c req = .ok (.inl ctx))
    (hend : ∀ ctx, pc' = .finished ctx → ctx = none ∧ ∃ sent, S.authorize E P c req = .ok (.inr sent)) :
    Accounted E P S c t received := by
  refine ⟨?_, fun x hx => ?_, fun j r n ctx hj => ?_, fun j r n hj => ?_, fun j hj => ?_,
    fun _ j r n ctx hj => ?_⟩
  · rw [hreq, ← hs.requests]
    exact map_req_set hr
  · rw [hreq] at hx
    rcases List.mem_or_eq_of_mem_set hx with hold | rfl
    · exact hs.own x hold
    · exact hs.own ⟨req, dataLen, pc⟩ (List.mem_of_getElem? hr)
  · rw [hreq] at hj
    rcases getElem?_set_cases hj with ⟨-, hnew⟩ | ⟨-, hold⟩
    · cases hnew
      exact hgo ctx rfl
    · exact hs.dispatching j r n ctx hold
  · rw [hreq] at hj
    rcases getElem?_set_cases hj with ⟨-, hnew⟩ | ⟨-, hold⟩
    · cases hnew
      exact (hend none rfl).2
    · exact hs.refused j r n hold
  · rw [hw.executed, hw.queue] at hj
    refine (hs.admitted j hj).keep fun r hj' hended => ?_
    rw [hreq]
    exact getElem?_set_of_ended hr hpc hj' hended
  · rw [hreq] at hj
    rw [hw.executed, hw.sent]
    rcases getElem?_set_cases hj with ⟨-, hnew⟩ | ⟨-, hold⟩
    · cases hnew
      cases (hend _ rfl).1
    · exact hs.settled halive j r n ctx hold

/-- A request is read into memory of its own. -/
lemma Accounted.of_read {conn dataLen : Nat} {req : Message} (hs : Accounted E P S c s received)
    (hown : ownFrame dataLen = true)
    (hreq : t.serve.requests = s.serve.requests ++ [⟨req, dataLen, .started⟩]) (hw : SameWork s t)
    (halive : s.serve.crashed = false) : Accounted E P S c t (received ++ [(conn, req)]) := by
  have hget : ∀ {i : Nat} {r : RequestThread},
      (s.serve.requests ++ [⟨req, dataLen, .started⟩])[i]? = some r →
      r.pc ≠ .started → s.serve.requests[i]? = some r := by
    intro i r hi hpc
    rw [List.getElem?_append] at hi
    split at hi
    · exact hi
    · have hmem := List.mem_singleton.mp (List.mem_of_getElem? hi)
      exact absurd (hmem ▸ rfl) hpc
  refine ⟨?_, fun x hx => ?_, fun i r n ctx hi => ?_, fun i r n hi => ?_, fun i hi => ?_,
    fun _ i r n ctx hi => ?_⟩
  · rw [hreq, List.map_append, hs.requests, List.map_append]
    rfl
  · rw [hreq] at hx
    rcases List.mem_append.mp hx with hold | hnew
    · exact hs.own x hold
    · rw [List.mem_singleton.mp hnew]
      exact hown
  · rw [hreq] at hi
    exact hs.dispatching i r n ctx (hget hi (by simp))
  · rw [hreq] at hi
    exact hs.refused i r n (hget hi (by simp))
  · rw [hw.executed, hw.queue] at hi
    refine ((hs.admitted i hi).append _).keep fun r hr _ => ?_
    rw [hreq]
    exact (List.getElem?_append_left (List.getElem?_eq_some_iff.mp hr).1).trans hr
  · rw [hreq] at hi
    rw [hw.executed, hw.sent]
    exact hs.settled halive i r n ctx (hget hi (by simp))

/-- A request that was let in is dispatched. -/
lemma Accounted.of_dispatch {i dataLen : Nat} {req : Message} {ctx : Ctx}
    (hs : Accounted E P S c s received)
    (hr : s.serve.requests[i]? = some ⟨req, dataLen, .dispatching ctx⟩)
    (hreq : t.serve.requests = s.serve.requests.set i ⟨req, dataLen, .finished (some ctx)⟩)
    (hex : ∀ j, j ∈ t.serve.executed → j ∈ s.serve.executed ∨ j = i)
    (hqueue : ∀ j, j ∈ t.serve.queue → j ∈ s.serve.queue ∨ j = i)
    (hkeep : ∀ j, j ∈ s.serve.executed ∨ j ∈ s.sent → j ∈ t.serve.executed ∨ j ∈ t.sent)
    (hdone : t.serve.crashed = false → i ∈ t.serve.executed ∨ i ∈ t.sent)
    (halive : s.serve.crashed = false) : Accounted E P S c t received := by
  obtain ⟨conn, hget⟩ := hs.connection hr
  have hlt := (List.getElem?_eq_some_iff.mp hr).1
  have hnew : Admitted E P S c t received i := by
    refine ⟨conn, req, dataLen, ctx, hget, ?_, hs.dispatching i req dataLen ctx hr⟩
    rw [hreq]
    exact List.getElem?_set_self hlt
  refine ⟨?_, fun x hx => ?_, fun j r n ctx' hj => ?_, fun j r n hj => ?_, fun j hj => ?_,
    fun hlive j r n ctx' hj => ?_⟩
  · rw [hreq, ← hs.requests]
    exact map_req_set hr
  · rw [hreq] at hx
    rcases List.mem_or_eq_of_mem_set hx with hold | rfl
    · exact hs.own x hold
    · exact hs.own ⟨req, dataLen, .dispatching ctx⟩ (List.mem_of_getElem? hr)
  · rw [hreq] at hj
    rcases getElem?_set_cases hj with ⟨-, heq⟩ | ⟨-, hold⟩
    · cases heq
    · exact hs.dispatching j r n ctx' hold
  · rw [hreq] at hj
    rcases getElem?_set_cases hj with ⟨-, heq⟩ | ⟨-, hold⟩
    · cases heq
    · exact hs.refused j r n hold
  · by_cases hji : j = i
    · exact hji ▸ hnew
    · have hold : j ∈ s.serve.executed ∨ j ∈ s.serve.queue :=
        hj.imp (fun h => (hex j h).resolve_right hji) (fun h => (hqueue j h).resolve_right hji)
      refine (hs.admitted j hold).keep fun r hj' _ => ?_
      rw [hreq]
      exact (List.getElem?_set_ne (Ne.symm hji)).trans hj'
  · rw [hreq] at hj
    rcases getElem?_set_cases hj with ⟨rfl, -⟩ | ⟨-, hold⟩
    · exact hdone hlive
    · exact hkeep j (hs.settled halive j r n ctx' hold)

lemma Accounted.step (hs : Accounted E P S c s received) (halive : s.serve.crashed = false)
    (hown : ReadsOwn a) (h : RequestMove E P S c s a t) :
    Accounted E P S c t (received ++ readBy a) := by
  cases h with
  | idle ha hread hreq hq he hsent =>
    rw [readBy_eq_nil hread, List.append_nil]
    exact hs.of_idle hreq hq he hsent halive
  | read hreq hw => exact hs.of_read hown hreq hw halive
  | overwrite hr hpooled _ _ =>
    rw [hs.own _ (List.mem_of_getElem? hr)] at hpooled
    cases hpooled
  | letIn hr hauth hreq hw =>
    rw [readBy_eq_nil (by simp), List.append_nil]
    refine hs.of_set hr rfl hreq hw halive (fun ctx' h => ?_) (fun ctx' h => ?_)
    · cases h
      exact hauth
    · cases h
  | @refuse i req _ sent _ hr hauth hreq hw =>
    rw [readBy_eq_nil (by simp), List.append_nil]
    refine hs.of_set hr rfl hreq hw halive (fun ctx' h => ?_) (fun ctx' h => ?_)
    · cases h
    · cases h
      exact ⟨rfl, sent, hauth⟩
  | panic hr hauth hdead hreq hw =>
    rw [readBy_eq_nil (by simp), List.append_nil]
    exact hs.of_idle hreq (by rw [hw.queue]; exact List.Subset.refl _) hw.executed hw.sent halive
  | @dispatch i req _ ctx _ hr hreq hto =>
    rw [readBy_eq_nil (by simp), List.append_nil]
    refine hs.of_dispatch hr hreq (fun j hj => ?_) (fun j hj => ?_) (fun j hj => ?_) (fun hlive => ?_)
      halive
    · rcases hto with ⟨-, ⟨-, he, -⟩⟩ | ⟨-, he, -⟩ | ⟨-, he, -⟩
      · exact .inl (he ▸ hj)
      · exact .inl (he ▸ hj)
      · rw [he] at hj
        simpa using hj
    · rcases hto with ⟨-, ⟨hq, -, -⟩⟩ | ⟨hq, -, -⟩ | ⟨hq, -, -⟩
      · exact .inl (hq ▸ hj)
      · rw [hq] at hj
        simpa using hj
      · exact .inl (hq ▸ hj)
    · refine hj.imp (fun h => ?_) (fun h => ?_)
      · rcases hto with ⟨-, ⟨-, he, -⟩⟩ | ⟨-, he, -⟩ | ⟨-, he, -⟩ <;> rw [he] <;> simp [h]
      · rcases hto with ⟨-, ⟨-, -, hsent⟩⟩ | ⟨-, -, hsent⟩ | ⟨-, -, hsent⟩ <;> rw [hsent] <;> simp [h]
    · rcases hto with ⟨hdead, -⟩ | ⟨-, -, hsent⟩ | ⟨-, he, -⟩
      · rw [hlive] at hdead
        cases hdead
      · exact .inr (by simp [hsent])
      · exact .inl (by simp [he])
  | @receive w i _ hreq hq he hsent =>
    rw [readBy_eq_nil (by simp), List.append_nil]
    refine ⟨hreq ▸ hs.requests, hreq ▸ hs.own, hreq ▸ hs.dispatching, hreq ▸ hs.refused,
      fun j hj => ?_, fun _ j r n ctx hj => ?_⟩
    · have hold : j ∈ s.serve.executed ∨ j ∈ s.serve.queue := by
        rw [he] at hj
        rw [hq]
        simp only [List.mem_append, List.mem_cons, List.not_mem_nil, or_false] at hj ⊢
        tauto
      exact (hs.admitted j hold).keep fun r hr _ => hreq ▸ hr
    · rw [hreq] at hj
      rw [he, hsent]
      exact (hs.settled halive j r n ctx hj).imp (List.mem_append_left _) id

end Tracking

end Zrpc.Proofs
