import Zrpc.Proofs.ServerRun

/-!
# What happens to requests in the worker pool's channel

A function sent into `workerFuncChannel` is in the channel until a worker receives it or the
goroutine that `stop` starts throws it away. Nothing is lost exactly if that goroutine always
finds the channel empty and there are workers at all.
-/

namespace Zrpc

variable {V T : Type}

/-- `serveRequest` is done with request `i`: it has dispatched or rejected it. -/
def ServeState.concluded (s : ServeState) (i : Nat) : Bool :=
  match s.requests[i]? with
  | some r => r.pc.ended
  | none => false

/-- How often request `i` is in the channel or has been executed. -/
def ServeState.holds (s : ServeState) (i : Nat) : Nat := s.executed.count i + s.queue.count i

namespace Proofs

open Zrpc.Lib

/-- A round of the goroutine that empties the channel finds nothing to throw away. -/
def DiscardsNothing (s : ServeState) : ServeAction → Prop
  | .drain k false => s.stops[k]? = some .draining → s.queue = []
  | _ => True

/-! ### What a step of the server does to the channel -/

inductive ChannelMove (opt : ServerOption) (s : ServeState) : ServeAction → ServeState → Prop
  | other {a} {t : ServeState} (ha : ∀ i, a ≠ .dispatch i) (hkeep : DiscardsNothing s a)
    (hq : t.queue = s.queue) (he : t.executed = s.executed)
    (hc : ∀ i, t.concluded i = false → s.concluded i = false)
    (hclosed : s.chanClosed = true → t.chanClosed = true) : ChannelMove opt s a t
  | discard {a i} {t : ServeState} (ha : ∀ i, a ≠ .dispatch i) (hkeep : ¬DiscardsNothing s a)
    (hq : s.queue = i :: t.queue) (he : t.executed = s.executed)
    (hc : ∀ i, t.concluded i = false → s.concluded i = false) : ChannelMove opt s a t
  | send {i} {t : ServeState} (hs : s.sends opt = true) (hi : s.concluded i = false)
    (hq : t.queue = s.queue ++ [i]) (he : t.executed = s.executed)
    (hc : ∀ j, t.concluded j = false → s.concluded j = false ∧ j ≠ i) :
    ChannelMove opt s (.dispatch i) t
  | direct {i} {t : ServeState} (hs : s.sends opt = false) (hi : s.concluded i = false)
    (hq : t.queue = s.queue) (he : t.executed = s.executed ++ [i])
    (hc : ∀ j, t.concluded j = false → s.concluded j = false ∧ j ≠ i)
    (hclosed : t.chanClosed = s.chanClosed) : ChannelMove opt s (.dispatch i) t
  | crash {i} {t : ServeState} (hs : s.sends opt = false) (hq : t.queue = s.queue)
    (he : t.executed = s.executed) (hc : ∀ i, t.concluded i = false → s.concluded i = false)
    (hclosed : t.chanClosed = s.chanClosed) : ChannelMove opt s (.dispatch i) t

section Serve

variable {E : Env} {P : Proto V T} {S : Server V T} {c : ∀ md, EncodeChoice md}
  {s t : ServeState} {a : ServeAction}

lemma concluded_same (ht : t.requests = s.requests) (i : Nat) (h : t.concluded i = false) :
    s.concluded i = false := by
  unfold ServeState.concluded at h ⊢
  rwa [ht] at h

lemma concluded_of_set {i j : Nat} {r : RequestThread} {rs : List RequestThread}
    (hs : s.requests = rs) (ht : t.requests = rs.set i r) (hi : s.concluded i = false)
    (h : t.concluded j = false) : s.concluded j = false := by
  by_cases hij : i = j
  · exact hij ▸ hi
  · unfold ServeState.concluded at h ⊢
    rwa [ht, List.getElem?_set_ne hij, ← hs] at h

lemma concluded_finished {i j : Nat} {r r' : RequestThread} (hr : s.requests[i]? = some r)
    (ht : t.requests = s.requests.set i r') (hpc : r'.pc.ended = true)
    (h : t.concluded j = false) : s.concluded j = false ∧ j ≠ i := by
  have hne : j ≠ i := by
    rintro rfl
    have hlt := (List.getElem?_eq_some_iff.mp hr).1
    unfold ServeState.concluded at h
    rw [ht, List.getElem?_set_self hlt] at h
    dsimp only at h
    rw [hpc] at h
    cases h
  refine ⟨?_, hne⟩
  unfold ServeState.concluded at h ⊢
  rwa [ht, List.getElem?_set_ne hne.symm] at h

lemma concluded_overwrite {i j : Nat} {r : RequestThread} {serviceName serviceMethod : GoString}
    {metadata : MD} (hr : s.requests[i]? = some r)
    (ht : t.requests = s.requests.set i (r.overwrite serviceName serviceMethod metadata))
    (h : t.concluded j = false) : s.concluded j = false := by
  by_cases hij : i = j
  · subst hij
    have hlt := (List.getElem?_eq_some_iff.mp hr).1
    unfold ServeState.concluded at h ⊢
    rw [ht, List.getElem?_set_self hlt] at h
    rw [hr]
    exact (ended_overwrite r.pc metadata).symm.trans h
  · unfold ServeState.concluded at h ⊢
    rwa [ht, List.getElem?_set_ne hij] at h

lemma concluded_append (more : List RequestThread) (ht : t.requests = s.requests ++ more) (j : Nat)
    (h : t.concluded j = false) : s.concluded j = false := by
  unfold ServeState.concluded at h ⊢
  rw [ht] at h
  by_cases hlt : j < s.requests.length
  · rwa [List.getElem?_append_left hlt] at h
  · rw [List.getElem?_eq_none (not_lt.mp hlt)]

lemma DispatchMove.channel {opt : ServerOption} {i : Nat} {req : Message} {dataLen : Nat} {ctx : Ctx}
    (hr : s.requests[i]? = some ⟨req, dataLen, .dispatching ctx⟩)
    (h : DispatchMove opt (s.setRequest i ⟨req, dataLen, .finished (some ctx)⟩) i t) :
    ChannelMove opt s (.dispatch i) t := by
  have hi : s.concluded i = false := by simp [ServeState.concluded, hr, RequestPc.ended]
  have hc : ∀ {t : ServeState},
      t.requests = s.requests.set i ⟨req, dataLen, .finished (some ctx)⟩ →
      ∀ j, t.concluded j = false → s.concluded j = false ∧ j ≠ i :=
    fun ht j hj => concluded_finished hr ht rfl hj
  cases h with
  | crash _ hclosed =>
    exact .crash (not_sends_of_closed hclosed) rfl rfl (fun j hj => (hc rfl j hj).1) rfl
  | send hsends => exact .send hsends hi rfl rfl (hc rfl)
  | direct hsends => exact .direct hsends hi rfl rfl (hc rfl) rfl

lemma ServeMove.channel (hw : a ≠ .work) (h : ServeMove E P S c s a t) : ChannelMove S.opt s a t := by
  cases h with
  | work => exact absurd rfl hw
  | accept | check | hangUp | stop | panic =>
    exact .other (by simp) trivial rfl rfl (concluded_same rfl) id
  | read => exact .other (by simp) trivial rfl rfl (concluded_append _ rfl) id
  | overwrite hr => exact .other (by simp) trivial rfl rfl (fun _ => concluded_overwrite hr rfl) id
  | @letIn i _ _ _ hr | @refuse i _ _ _ hr =>
    have hi : s.concluded i = false := by simp [ServeState.concluded, hr, RequestPc.ended]
    exact .other (by simp) trivial rfl rfl (fun _ => concluded_of_set rfl rfl hi) id
  | dispatch hr hd => exact hd.channel hr
  | @startDrain k timeout hk =>
    have hkeep : DiscardsNothing s (.drain k timeout) := by
      cases timeout with
      | true => trivial
      | false =>
        intro hdraining
        cases hk.symm.trans hdraining
    exact .other (by simp) hkeep rfl rfl (concluded_same rfl) id
  | discard hk hq =>
    refine .discard (by simp) (fun hkeep => ?_) hq rfl (concluded_same rfl)
    cases hq.symm.trans (hkeep hk)
  | @close k timeout hk hnow =>
    have hkeep : DiscardsNothing s (.drain k timeout) := by
      cases timeout with
      | true => trivial
      | false =>
        intro _
        simpa [ServeState.closesNow, hk] using hnow
    exact .other (by simp) hkeep rfl rfl (concluded_same rfl) (fun _ => rfl)
  | spin hk hq hclosed => exact .other (by simp) (fun _ => hq) rfl rfl (concluded_same rfl) id

end Serve

/-! ### Steps of the pool -/

/-- A step of a worker that receives nothing, or a new worker: afterwards a worker is left, unless the
channel is closed and empty. -/
structure TurnMove (s : PoolState) (workers : List WorkerPc) : Prop where
  empty : workers = [] ↔ s.workers = []
  staff : (∃ w ∈ workers, w ≠ .returned) ∨ s.serve.chanClosed = true ∧ s.serve.queue = []

/-- What a step of a server with a worker pool can do. -/
inductive PoolMove (E : Env) (P : Proto V T) (S : Server V T) (c : ∀ md, EncodeChoice md)
    (s : PoolState) : PoolAction → PoolState → Prop
  | serve {a u} (ha : a ≠ .work) (hu : serveStep E P S c s.serve a = some u) :
    PoolMove E P S c s (.serve a) { s with serve := u, sent := s.recordSent S.opt a }
  | receive {w i queue completed} (hlive : s.serve.crashed = false)
    (hw : s.workers[w]? = some (.polling completed)) (hq : s.serve.queue = i :: queue) :
    PoolMove E P S c s (.worker w)
      { s with
        serve := s.serve.receive i queue
        workers := s.workers.set w (.running completed i) }
  | turn {a workers} (hlive : s.serve.crashed = false) (ha : ∀ b, a ≠ .serve b)
    (h : TurnMove s workers) : PoolMove E P S c s a { s with workers := workers }

section Pool

variable {E : Env} {P : Proto V T} {S : Server V T} {c : ∀ md, EncodeChoice md}
  {s t : PoolState} {a : PoolAction}

lemma turnMove_set {w : Nat} {pc pc' : WorkerPc} (hw : s.workers[w]? = some pc)
    (h : pc' ≠ .returned ∨ s.serve.chanClosed = true ∧ s.serve.queue = []) :
    TurnMove s (s.workers.set w pc') := by
  have hlt := (List.getElem?_eq_some_iff.mp hw).1
  refine ⟨by simp, ?_⟩
  rcases h with hne | hend
  · exact .inl ⟨pc', List.mem_of_getElem? (List.getElem?_set_self hlt), hne⟩
  · exact .inr hend

lemma poolStep_move (h : poolStep E P S c s a = some t) : PoolMove E P S c s a t := by
  cases a with
  | serve a =>
    cases a with
    | work => cases h
    | _ =>
      simp only [poolStep] at h
      split at h <;> cases h
      next hu => exact .serve (by simp) hu
  | worker w =>
    simp only [poolStep] at h
    split at h
    · cases h
    · next hlive =>
      have hlive := Bool.eq_false_of_not_eq_true hlive
      split at h
      · next completed hw =>
        split at h
        · split at h
          · next hq =>
            cases h
            exact .receive hlive hw hq
          · next hq =>
            cases h
            refine .turn hlive (by simp) (turnMove_set hw ?_)
            cases hcl : s.serve.chanClosed with
            | true => exact .inr ⟨rfl, hq⟩
            | false => exact .inl (by simp)
        · cases h
          refine .turn hlive (by simp) ⟨by simp [List.ne_nil_of_mem (List.mem_of_getElem? hw)], ?_⟩
          exact .inl ⟨.polling 0, by simp, by simp⟩
      · next hw =>
        cases h
        exact .turn hlive (by simp) (turnMove_set hw (.inl (by simp)))
      · cases h
  | scaleUp =>
    simp only [poolStep] at h
    split at h
    · cases h
    · next hn =>
      cases h
      obtain ⟨hlive, hne⟩ := not_or.mp hn
      exact .turn (Bool.eq_false_of_not_eq_true hlive) (by simp)
        ⟨by simp [hne], .inl ⟨.polling 0, by simp, by simp⟩⟩

lemma poolStep_alive (h : poolStep E P S c s a = some t) : s.serve.crashed = false := by
  cases poolStep_move h with
  | serve _ hu => exact serveStep_alive hu
  | receive hlive | turn hlive => exact hlive

end Pool

/-! ### Where a sent request is -/

/-- What holds in every run: a request is in the channel or executed at most once, and only if it was
dispatched; what is in the channel was sent; and a channel that is not closed and empty has a worker
left, if there ever was one. -/
structure PoolInv (s : PoolState) : Prop where
  fresh : ∀ i, s.serve.concluded i = false → i ∉ s.sent ∧ s.serve.holds i = 0
  once : ∀ i, s.serve.holds i ≤ 1
  queued : ∀ i ∈ s.serve.queue, i ∈ s.sent
  idle : s.workers = [] → ∀ i ∈ s.sent, s.serve.executed.count i = 0
  staffed : s.workers = [] ∨ (∃ w ∈ s.workers, w ≠ .returned) ∨
    s.serve.chanClosed = true ∧ s.serve.queue = []

/-- Every request sent into the channel is executed once or still there, and there are workers. -/
structure Kept (s : PoolState) : Prop where
  holds : ∀ i ∈ s.sent, s.serve.holds i = 1
  staff : s.workers = [] → s.sent = []

/-- The condition under which a step loses nothing: the drainer finds the channel empty, and a
function is only sent to workers that exist. -/
def Keeps (opt : ServerOption) (s : PoolState) : PoolAction → Prop
  | .serve (.dispatch _) => s.serve.sends opt = true → s.workers ≠ []
  | .serve a => DiscardsNothing s.serve a
  | _ => True

section Inv

variable {E : Env} {P : Proto V T} {S : Server V T} {c : ∀ md, EncodeChoice md} {opt : ServerOption}
  {s t : PoolState} {a : PoolAction}

lemma holds_of_eq {s t : ServeState} (hq : t.queue = s.queue) (he : t.executed = s.executed)
    (i : Nat) : t.holds i = s.holds i := by
  unfold ServeState.holds
  rw [hq, he]

lemma recordSent_other {b : ServeAction} (hb : ∀ i, b ≠ .dispatch i) :
    s.recordSent opt b = s.sent := by
  cases b <;> first | rfl | exact absurd rfl (hb _)

lemma recordSent_send {i : Nat} (h : s.serve.sends opt = true) :
    s.recordSent opt (.dispatch i) = s.sent ++ [i] := if_pos h

lemma recordSent_direct {i : Nat} (h : s.serve.sends opt = false) :
    s.recordSent opt (.dispatch i) = s.sent := if_neg (by simp [h])

lemma poolInv_of_same (hs : PoolInv s) (hsent : t.sent = s.sent) (hworkers : t.workers = s.workers)
    (hq : t.serve.queue = s.serve.queue) (he : t.serve.executed = s.serve.executed)
    (hc : ∀ i, t.serve.concluded i = false → s.serve.concluded i = false)
    (hclosed : s.serve.chanClosed = true → t.serve.chanClosed = true) : PoolInv t := by
  have hholds := holds_of_eq hq he
  refine ⟨fun i hi => ?_, fun i => ?_, ?_, ?_, ?_⟩
  · rw [hholds, hsent]
    exact hs.fresh i (hc i hi)
  · rw [hholds]
    exact hs.once i
  · rw [hq, hsent]
    exact hs.queued
  · rw [hworkers, hsent, he]
    exact hs.idle
  · rw [hworkers, hq]
    rcases hs.staffed with h | h | ⟨hcl, hnil⟩
    · exact .inl h
    · exact .inr (.inl h)
    · exact .inr (.inr ⟨hclosed hcl, hnil⟩)

lemma holds_discard {s t : ServeState} {i : Nat} (hq : s.queue = i :: t.queue)
    (he : t.executed = s.executed) (j : Nat) :
    t.holds j + (if i = j then 1 else 0) = s.holds j := by
  simp only [ServeState.holds, he, hq, List.count_cons, beq_iff_eq]
  omega

lemma holds_send {s t : ServeState} {i : Nat} (hq : t.queue = s.queue ++ [i])
    (he : t.executed = s.executed) (j : Nat) :
    t.holds j = s.holds j + if i = j then 1 else 0 := by
  simp only [ServeState.holds, he, hq, List.count_append, List.count_singleton, beq_iff_eq]
  omega

lemma holds_direct {s t : ServeState} {i : Nat} (hq : t.queue = s.queue)
    (he : t.executed = s.executed ++ [i]) (j : Nat) :
    t.holds j = s.holds j + if i = j then 1 else 0 := by
  simp only [ServeState.holds, he, hq, List.count_append, List.count_singleton, beq_iff_eq]
  omega

lemma holds_receive {s t : ServeState} {i : Nat} (hq : s.queue = i :: t.queue)
    (he : t.executed = s.executed ++ [i]) (j : Nat) : t.holds j = s.holds j := by
  simp only [ServeState.holds, he, hq, List.count_append, List.count_cons, List.count_nil,
    beq_iff_eq]
  omega

/-- One more occurrence of a request that was not dispatched before. -/
lemma once_of_fresh {u : ServeState} {i : Nat} (hs : PoolInv s) (hi : s.serve.concluded i = false)
    (hh : ∀ j, u.holds j = s.serve.holds j + if i = j then 1 else 0) (j : Nat) : u.holds j ≤ 1 := by
  have hj := hs.once j
  have hzero := (hs.fresh i hi).2
  rw [hh]
  split
  · next hij =>
    subst hij
    omega
  · omega

section

variable {u : ServeState} {i : Nat}

lemma poolInv_discard (hs : PoolInv s) (hq : s.serve.queue = i :: u.queue)
    (he : u.executed = s.serve.executed)
    (hc : ∀ j, u.concluded j = false → s.serve.concluded j = false) :
    PoolInv { s with serve := u } := by
  have hh := holds_discard hq he
  refine ⟨fun j hj => ⟨(hs.fresh j (hc j hj)).1, ?_⟩, fun j => ?_, fun j hj => ?_, ?_, ?_⟩
  · have hzero := (hs.fresh j (hc j hj)).2
    have := hh j
    dsimp only
    omega
  · have hone := hs.once j
    have := hh j
    dsimp only
    omega
  · exact hs.queued j (hq ▸ List.mem_cons_of_mem _ hj)
  · dsimp only
    rw [he]
    exact hs.idle
  · rcases hs.staffed with h | h | ⟨-, hnil⟩
    · exact .inl h
    · exact .inr (.inl h)
    · rw [hnil] at hq
      cases hq

lemma poolInv_send (hs : PoolInv s) (hsend : s.serve.sends opt = true)
    (hi : s.serve.concluded i = false) (hq : u.queue = s.serve.queue ++ [i])
    (he : u.executed = s.serve.executed)
    (hc : ∀ j, u.concluded j = false → s.serve.concluded j = false ∧ j ≠ i) :
    PoolInv { s with serve := u, sent := s.sent ++ [i] } := by
  have hh := holds_send hq he
  refine ⟨fun j hj => ?_, once_of_fresh hs hi hh, fun j hj => ?_, fun hnil j hj => ?_, ?_⟩
  · obtain ⟨hjs, hne⟩ := hc j hj
    obtain ⟨hnot, hzero⟩ := hs.fresh j hjs
    refine ⟨by simp [hnot, hne], ?_⟩
    rw [hh, if_neg (Ne.symm hne), hzero]
  · rw [hq] at hj
    rcases List.mem_append.mp hj with hold | hnew
    · exact List.mem_append_left _ (hs.queued j hold)
    · exact List.mem_append_right _ hnew
  · dsimp only
    rw [he]
    rcases List.mem_append.mp hj with hold | hnew
    · exact hs.idle hnil j hold
    · have hzero := (hs.fresh i hi).2
      rw [List.mem_singleton.mp hnew]
      unfold ServeState.holds at hzero
      omega
  · rcases hs.staffed with h | h | ⟨hcl, -⟩
    · exact .inl h
    · exact .inr (.inl h)
    · rw [open_of_sends hsend] at hcl
      cases hcl

lemma poolInv_direct (hs : PoolInv s) (hi : s.serve.concluded i = false)
    (hq : u.queue = s.serve.queue) (he : u.executed = s.serve.executed ++ [i])
    (hc : ∀ j, u.concluded j = false → s.serve.concluded j = false ∧ j ≠ i)
    (hclosed : u.chanClosed = s.serve.chanClosed) : PoolInv { s with serve := u } := by
  have hh := holds_direct hq he
  refine ⟨fun j hj => ?_, once_of_fresh hs hi hh, ?_, fun hnil j hj => ?_, ?_⟩
  · obtain ⟨hjs, hne⟩ := hc j hj
    obtain ⟨hnot, hzero⟩ := hs.fresh j hjs
    refine ⟨hnot, ?_⟩
    rw [hh, if_neg (Ne.symm hne), hzero]
  · dsimp only
    rw [hq]
    exact hs.queued
  · have hne : i ≠ j := by
      rintro rfl
      exact (hs.fresh i hi).1 hj
    have hzero := hs.idle hnil j hj
    simp only [he, List.count_append, List.count_singleton, beq_iff_eq, hne, if_false]
    omega
  · dsimp only
    rw [hq, hclosed]
    exact hs.staffed

lemma poolInv_receive {w completed : Nat} {queue : List Nat} (hs : PoolInv s)
    (hw : s.workers[w]? = some (.polling completed)) (hq : s.serve.queue = i :: queue) :
    PoolInv { s with
      serve := s.serve.receive i queue
      workers := s.workers.set w (.running completed i) } := by
  have hh : ∀ j, (s.serve.receive i queue).holds j = s.serve.holds j := holds_receive hq rfl
  have hne : s.workers ≠ [] := List.ne_nil_of_mem (List.mem_of_getElem? hw)
  refine ⟨fun j hj => ⟨(hs.fresh j hj).1, ?_⟩, fun j => ?_, fun j hj => ?_, fun hnil => ?_, ?_⟩
  · rw [hh]
    exact (hs.fresh j hj).2
  · rw [hh]
    exact hs.once j
  · exact hs.queued j (hq ▸ List.mem_cons_of_mem _ hj)
  · exact absurd (by simpa using hnil) hne
  · have hlt := (List.getElem?_eq_some_iff.mp hw).1
    exact .inr (.inl ⟨.running completed i,
      List.mem_of_getElem? (List.getElem?_set_self hlt), by simp⟩)

end

lemma PoolMove.inv (hs : PoolInv s) (h : PoolMove E P S c s a t) : PoolInv t := by
  cases h with
  | serve hb hu =>
    cases (serveStep_move hu).channel hb with
    | other ha _ hq he hc hclosed =>
      exact poolInv_of_same hs (recordSent_other ha) rfl hq he hc hclosed
    | crash hsend hq he hc hclosed =>
      exact poolInv_of_same hs (recordSent_direct hsend) rfl hq he hc (fun h => hclosed.trans h)
    | discard ha _ hq he hc =>
      rw [recordSent_other ha]
      exact poolInv_discard hs hq he hc
    | send hsend hi hq he hc =>
      rw [recordSent_send hsend]
      exact poolInv_send hs hsend hi hq he hc
    | direct hsend hi hq he hc hclosed =>
      rw [recordSent_direct hsend]
      exact poolInv_direct hs hi hq he hc hclosed
  | receive _ hw hq => exact poolInv_receive hs hw hq
  | turn _ _ hm =>
    refine ⟨hs.fresh, hs.once, hs.queued, fun h => hs.idle (hm.empty.mp h), ?_⟩
    exact .inr hm.staff

lemma poolInv_init (n : Nat) : PoolInv (.init n) := by
  refine ⟨fun i _ => ⟨by simp [PoolState.init], rfl⟩, fun i => Nat.zero_le _, ?_, ?_, ?_⟩
  · intro i hi
    cases hi
  · intro _ i hi
    cases hi
  · cases n with
    | zero => exact .inl rfl
    | succ n => exact .inr (.inl ⟨.polling 0, by simp [PoolState.init], by simp⟩)

lemma PoolMove.sent_subset (h : PoolMove E P S c s a t) : s.sent ⊆ t.sent := by
  cases h with
  | @serve b u hb hu =>
    cases (serveStep_move hu).channel hb with
    | other ha _ _ _ _ _ | discard ha _ _ _ _ => exact recordSent_other ha ▸ List.Subset.refl _
    | send hsend _ _ _ _ => exact recordSent_send hsend ▸ List.subset_append_left _ _
    | direct hsend _ _ _ _ _ | crash hsend _ _ _ _ =>
      exact recordSent_direct hsend ▸ List.Subset.refl _
  | receive | turn => exact List.Subset.refl _

lemma PoolMove.workers_nil (h : PoolMove E P S c s a t) : t.workers = [] ↔ s.workers = [] := by
  cases h with
  | serve => rfl
  | receive => simp
  | turn _ _ hm => exact hm.empty

/-- A request that was sent is never sent again. -/
lemma PoolMove.holds_le (hs : PoolInv s) (h : PoolMove E P S c s a t) {i : Nat} (hi : i ∈ s.sent) :
    t.serve.holds i ≤ s.serve.holds i := by
  have hnew : ∀ {j : Nat}, s.serve.concluded j = false → j ≠ i := by
    rintro j hj rfl
    exact (hs.fresh j hj).1 hi
  cases h with
  | serve hb hu =>
    cases (serveStep_move hu).channel hb with
    | other _ _ hq he _ _ | crash _ hq he _ _ => exact (holds_of_eq hq he i).le
    | discard _ _ hq he _ =>
      have := holds_discard hq he i
      dsimp only
      omega
    | send _ hj hq he _ =>
      dsimp only
      rw [holds_send hq he, if_neg (hnew hj)]
      omega
    | direct _ hj hq he _ _ =>
      dsimp only
      rw [holds_direct hq he, if_neg (hnew hj)]
      omega
  | receive _ _ hq => exact (holds_receive hq rfl i).le
  | turn => exact le_rfl

/-- What was lost stays lost. -/
lemma kept_of_kept (hs : PoolInv s) (h : PoolMove E P S c s a t) (ht : Kept t) : Kept s := by
  refine ⟨fun i hi => ?_, fun hnil => ?_⟩
  · have hone := ht.holds i (h.sent_subset hi)
    have hle := h.holds_le hs hi
    have hmax := hs.once i
    omega
  · have hsent := ht.staff (h.workers_nil.mpr hnil)
    exact List.subset_nil.mp (hsent ▸ h.sent_subset)

lemma kept_of_same (hk : Kept s) (hsent : t.sent = s.sent) (hworkers : t.workers = [] ↔ s.workers = [])
    (hh : ∀ i ∈ s.sent, t.serve.holds i = s.serve.holds i) : Kept t := by
  refine ⟨fun i hi => ?_, fun hnil => ?_⟩
  · rw [hsent] at hi
    rw [hh i hi]
    exact hk.holds i hi
  · rw [hsent]
    exact hk.staff (hworkers.mp hnil)

/-- The request at the head of the channel was sent; thrown away, it is nowhere. -/
lemma not_kept_discard {u : ServeState} {i : Nat} (hs : PoolInv s) (hk : Kept s)
    (hq : s.serve.queue = i :: u.queue) (he : u.executed = s.serve.executed) :
    ¬ Kept { s with serve := u } := by
  intro ht
  have hi : i ∈ s.sent := hs.queued i (hq ▸ List.mem_cons_self)
  have hone := ht.holds i hi
  have hlost := holds_discard hq he i
  have hold := hk.holds i hi
  rw [if_pos rfl] at hlost
  dsimp only at hone
  omega

lemma kept_send_iff {u : ServeState} {i : Nat} (hs : PoolInv s) (hk : Kept s)
    (hi : s.serve.concluded i = false) (hq : u.queue = s.serve.queue ++ [i])
    (he : u.executed = s.serve.executed) :
    Kept { s with serve := u, sent := s.sent ++ [i] } ↔ s.workers ≠ [] := by
  constructor
  · intro ht hnil
    have hsent := ht.staff hnil
    simp at hsent
  · intro hne
    refine ⟨fun j hj => ?_, fun hnil => absurd hnil hne⟩
    dsimp only at hj ⊢
    rw [holds_send hq he]
    obtain ⟨hnot, hzero⟩ := hs.fresh i hi
    rcases List.mem_append.mp hj with hold | hnew
    · have hij : i ≠ j := by
        rintro rfl
        exact hnot hold
      rw [if_neg hij, hk.holds j hold]
    · rw [List.mem_singleton.mp hnew, if_pos rfl, hzero]

lemma keeps_of_not_sends {i : Nat} (h : s.serve.sends opt = false) :
    Keeps opt s (.serve (.dispatch i)) := by
  intro hsend
  rw [h] at hsend
  cases hsend

lemma kept_iff_keeps (hs : PoolInv s) (hk : Kept s) (h : PoolMove E P S c s a t) :
    Kept t ↔ Keeps S.opt s a := by
  cases h with
  | @serve b u hb hu =>
    cases (serveStep_move hu).channel hb with
    | other ha hkeep hq he _ _ =>
      have hkeeps : Keeps S.opt s (.serve b) := by
        cases b <;> first | exact hkeep | exact absurd rfl (ha _)
      refine iff_of_true (kept_of_same hk (recordSent_other ha) Iff.rfl ?_) hkeeps
      exact fun i _ => holds_of_eq hq he i
    | discard ha hkeep hq he _ =>
      have hkeeps : ¬Keeps S.opt s (.serve b) := by
        cases b <;> first | exact hkeep | exact absurd rfl (ha _)
      rw [recordSent_other ha]
      exact iff_of_false (not_kept_discard hs hk hq he) hkeeps
    | @send i _ hsend hi hq he _ =>
      have hiff : Keeps S.opt s (.serve (.dispatch i)) ↔ s.workers ≠ [] :=
        ⟨fun h => h hsend, fun h _ => h⟩
      rw [hiff, recordSent_send hsend]
      exact kept_send_iff hs hk hi hq he
    | @direct i _ hsend hi hq he _ _ =>
      refine iff_of_true (kept_of_same hk (recordSent_direct hsend) Iff.rfl fun j hj => ?_)
        (keeps_of_not_sends hsend)
      have hij : i ≠ j := by
        rintro rfl
        exact (hs.fresh i hi).1 hj
      dsimp only
      rw [holds_direct hq he, if_neg hij, Nat.add_zero]
    | crash hsend hq he _ _ =>
      refine iff_of_true (kept_of_same hk (recordSent_direct hsend) Iff.rfl ?_)
        (keeps_of_not_sends hsend)
      exact fun j _ => holds_of_eq hq he j
  | receive _ _ hq =>
    refine iff_of_true (kept_of_same hk rfl (by simp) ?_) trivial
    exact fun j _ => holds_receive hq rfl j
  | turn _ ha hm =>
    have hkeeps : Keeps S.opt s a := by
      cases a with
      | serve b => exact absurd rfl (ha b)
      | worker _ | scaleUp => trivial
    exact iff_of_true (kept_of_same hk rfl hm.empty (fun _ _ => rfl)) hkeeps

lemma kept_init (n : Nat) : Kept (.init n) := by
  refine ⟨fun i hi => ?_, fun _ => rfl⟩
  cases hi

end Inv

/-! ### Whole runs -/

/-- Every function sent into the channel is executed exactly once or still waits in the channel, and
once the workers have returned it has been executed. -/
def Lossless (s : PoolState) : Prop :=
  ∀ i ∈ s.sent, s.serve.executed.count i + s.serve.queue.count i = 1 ∧
    ((∀ w ∈ s.workers, w = .returned) → s.serve.executed.count i = 1)

lemma lossless_iff_kept {s : PoolState} (hs : PoolInv s) : Lossless s ↔ Kept s := by
  constructor
  · intro h
    refine ⟨fun i hi => (h i hi).1, fun hnil => ?_⟩
    by_contra hne
    obtain ⟨i, hi⟩ := List.exists_mem_of_ne_nil _ hne
    have hone := (h i hi).2 (by simp [hnil])
    rw [hs.idle hnil i hi] at hone
    cases hone
  · intro h i hi
    refine ⟨h.holds i hi, fun hall => ?_⟩
    rcases hs.staffed with hnil | ⟨w, hw, hne⟩ | ⟨-, hq⟩
    · rw [h.staff hnil] at hi
      cases hi
    · exact absurd (hall w hw) hne
    · have hone := h.holds i hi
      rwa [ServeState.holds, hq, List.count_nil, Nat.add_zero] at hone

section Progress

variable {E : Env} {P : Proto V T} {S : Server V T} {c : ∀ md, EncodeChoice md} {s : PoolState}

lemma worker_receives {w i n : Nat} {queue : List Nat} (hc : s.serve.crashed = false)
    (hq : s.serve.queue = i :: queue) (hw : s.workers[w]? = some (.polling n))
    (hn : n < serverWorkerResetThreshold) :
    poolStep E P S c s (.worker w) = some { s with
      serve := s.serve.receive i queue
      workers := s.workers.set w (.running n i) } := by
  simp [poolStep, hc, hw, hn, hq]

lemma polling_receives {w i n : Nat} {queue : List Nat} (hc : s.serve.crashed = false)
    (hq : s.serve.queue = i :: queue) (hw : s.workers[w]? = some (.polling n)) :
    ∃ (ws : List Nat) (t : PoolState), exec (poolStep E P S c) s (ws.map .worker) = some t ∧
      t.serve = s.serve.receive i queue ∧ t.sent = s.sent := by
  by_cases hn : n < serverWorkerResetThreshold
  · have hstep := worker_receives (E := E) (P := P) (S := S) (c := c) hc hq hw hn
    exact ⟨[w], _, exec_cons_some.mpr ⟨_, hstep, rfl⟩, rfl, rfl⟩
  · -- the worker has made its rounds; the one it starts receives
    have hfirst : poolStep E P S c s (.worker w) =
        some { s with workers := s.workers.set w .returned ++ [.polling 0] } := by
      simp [poolStep, hc, hw, hn]
    have hnew : (s.workers.set w .returned ++ [.polling 0])[s.workers.length]? =
        some (.polling 0) := by
      rw [List.getElem?_append_right (by simp)]
      simp
    have hsecond := worker_receives (E := E) (P := P) (S := S) (c := c)
      (s := { s with workers := s.workers.set w .returned ++ [.polling 0] }) hc hq hnew
      (by decide)
    exact ⟨[w, s.workers.length], _,
      exec_cons_some.mpr ⟨_, hfirst, exec_cons_some.mpr ⟨_, hsecond, rfl⟩⟩, rfl, rfl⟩

lemma staff_receives {i : Nat} {queue : List Nat} (hc : s.serve.crashed = false)
    (hq : s.serve.queue = i :: queue) (hw : ∃ pc ∈ s.workers, pc ≠ .returned) :
    ∃ (ws : List Nat) (t : PoolState), exec (poolStep E P S c) s (ws.map .worker) = some t ∧
      t.serve = s.serve.receive i queue ∧ t.sent = s.sent := by
  obtain ⟨pc, hmem, hne⟩ := hw
  obtain ⟨w, hw⟩ := List.getElem?_of_mem hmem
  cases pc with
  | polling n => exact polling_receives hc hq hw
  | running n r =>
    have hstep : poolStep E P S c s (.worker w) =
        some { s with workers := s.workers.set w (.polling (n + 1)) } := by
      simp [poolStep, hc, hw]
    have hlt := (List.getElem?_eq_some_iff.mp hw).1
    obtain ⟨ws, t, hexec, hserve, hsent⟩ := polling_receives (E := E) (P := P) (S := S) (c := c)
      (s := { s with workers := s.workers.set w (.polling (n + 1)) }) hc hq
      (List.getElem?_set_self hlt)
    exact ⟨w :: ws, t, exec_cons_some.mpr ⟨_, hstep, hexec⟩, hserve, hsent⟩
  | returned => exact absurd rfl hne

/-- The workers can execute everything that waits in the channel. -/
lemma workers_empty_channel (hc : s.serve.crashed = false) (hi : PoolInv s) (hk : Kept s) :
    ∃ (ws : List Nat) (t : PoolState), exec (poolStep E P S c) s (ws.map .worker) = some t ∧
      PoolInv t ∧ Kept t ∧
      t.sent = s.sent ∧ t.serve.queue = [] := by
  induction hq : s.serve.queue generalizing s with
  | nil => exact ⟨[], s, rfl, hi, hk, rfl, hq⟩
  | cons i queue ih =>
    have hstaff : ∃ pc ∈ s.workers, pc ≠ .returned := by
      rcases hi.staffed with hnil | h | ⟨-, hnil⟩
      · have hmem := hi.queued i (hq ▸ List.mem_cons_self)
        rw [hk.staff hnil] at hmem
        cases hmem
      · exact h
      · rw [hnil] at hq
        cases hq
    obtain ⟨ws, t, hexec, hserve, hsent⟩ := staff_receives (E := E) (P := P) (S := S) (c := c)
      hc hq hstaff
    have hworkers : Guarded (poolStep E P S c) (fun _ a => ∃ w, a = .worker w) s
        (ws.map .worker) := by
      refine guarded_of_mem fun a ha _ => ?_
      obtain ⟨w, -, hw⟩ := List.mem_map.mp ha
      exact ⟨w, hw.symm⟩
    have hinv : PoolInv t ∧ Kept t := by
      refine exec_invariant_guarded (fun u => PoolInv u ∧ Kept u) ?_ ⟨hi, hk⟩ hworkers hexec
      rintro u _ v ⟨hu, hku⟩ ⟨w, rfl⟩ hstep
      have hm := poolStep_move hstep
      exact ⟨hm.inv hu, (kept_iff_keeps hu hku hm).mpr trivial⟩
    have hct : t.serve.crashed = false := by
      rw [hserve]
      exact hc
    have hqt : t.serve.queue = queue := by
      rw [hserve]
      rfl
    obtain ⟨ws', u, hexec', hiu, hku, hsent', hnil⟩ := ih hct hinv.1 hinv.2 hqt
    refine ⟨ws ++ ws', u, ?_, hiu, hku, hsent'.trans hsent, hnil⟩
    rw [List.map_append]
    exact exec_append_some.mpr ⟨t, hexec, hexec'⟩

end Progress

/-- In every run of a server with a worker pool, nothing that was sent into the channel is lost
exactly if every round of a drainer found the channel empty and every function was sent to workers
that exist; the workers can then execute all that is left. -/
theorem lossless_iff (E : Env) (P : Proto V T) (S : Server V T) (c : ∀ md, EncodeChoice md)
    (minWorkerPoolSize : Nat) (as : List PoolAction) (s : PoolState)
    (h : exec (poolStep E P S c) (.init minWorkerPoolSize) as = some s) :
    (Lossless s ↔ Guarded (poolStep E P S c) (Keeps S.opt) (.init minWorkerPoolSize) as) ∧
    (Lossless s → s.serve.crashed = false → ∃ (ws : List Nat) (t : PoolState),
      exec (poolStep E P S c) s (ws.map .worker) = some t ∧
        ∀ i ∈ s.sent, t.serve.executed.count i = 1) := by
  have hinv : PoolInv s := exec_invariant PoolInv
    (fun _ _ _ hs hstep => (poolStep_move hstep).inv hs) (poolInv_init minWorkerPoolSize) h
  rw [lossless_iff_kept hinv]
  constructor
  · exact exec_good_iff_guarded_of_inv PoolInv Kept
      (fun _ _ _ hs hstep => (poolStep_move hstep).inv hs)
      (fun _ _ _ hs hstep ht => kept_of_kept hs (poolStep_move hstep) ht)
      (fun _ _ _ hs hk hstep => kept_iff_keeps hs hk (poolStep_move hstep))
      (poolInv_init minWorkerPoolSize) (kept_init minWorkerPoolSize) h
  · intro hk hc
    obtain ⟨ws, t, hexec, _, hkt, hsent, hnil⟩ := workers_empty_channel (E := E) (P := P) (S := S)
      (c := c) hc hinv hk
    refine ⟨ws, t, hexec, fun i hi => ?_⟩
    have hone := hkt.holds i (hsent.symm ▸ hi)
    rwa [ServeState.holds, hnil, List.count_nil, Nat.add_zero] at hone

instance (s : ServeState) : ∀ a, Decidable (DiscardsNothing s a)
  | .drain _ timeout => match timeout with
    | false => inferInstanceAs (Decidable (_ → _))
    | true => isTrue trivial
  | .accept | .check _ | .read _ _ _ | .overwrite _ _ _ _ | .hangUp _ | .authorize _ | .dispatch _
  | .work | .stop => isTrue trivial

instance (opt : ServerOption) (s : PoolState) : ∀ a, Decidable (Keeps opt s a)
  | .serve a => match a with
    | .dispatch _ => inferInstanceAs (Decidable (_ → _))
    | .drain k timeout => inferInstanceAs (Decidable (DiscardsNothing s.serve (.drain k timeout)))
    | .accept | .check _ | .read _ _ _ | .overwrite _ _ _ _ | .hangUp _ | .authorize _ | .work
    | .stop => isTrue trivial
  | .worker _ | .scaleUp => isTrue trivial

/-- A request is read, let in and sent into the channel. -/
def sendRequest : List PoolAction :=
  [.accept, .check 0, .read 0 authorizedRequest 49, .authorize 0, .dispatch 0].map .serve

/-- The worker takes the request before `GracefulStop` empties and closes the channel. -/
def servedBeforeStop : List PoolAction :=
  sendRequest ++ [.worker 0, .serve .stop, .serve (.drain 0 false), .serve (.drain 0 false),
    .worker 0, .worker 0]

theorem lossless_servedBeforeStop : ∃ s,
    exec (poolStep storedEnv bytesProto (echoServer pooledOption) .plain) (.init 1)
      servedBeforeStop = some s ∧ s.sent = [0] ∧ Lossless s :=
  ⟨_, rfl, rfl, (lossless_iff storedEnv bytesProto (echoServer pooledOption) .plain 1
    servedBeforeStop _ rfl).1.mpr (by decide)⟩

/-- `GracefulStop` empties the channel before the worker polls it. -/
def drainedBeforeWork : List PoolAction :=
  sendRequest ++ [.serve .stop, .serve (.drain 0 false), .serve (.drain 0 false),
    .serve (.drain 0 false), .worker 0]

theorem drainedBeforeWork_not_lossless : ∃ s,
    exec (poolStep storedEnv bytesProto (echoServer pooledOption) .plain) (.init 1)
      drainedBeforeWork = some s ∧ s.workers = [.returned] ∧ ¬Lossless s := by
  refine ⟨_, rfl, rfl, fun h => ?_⟩
  have hone := (h 0 (by decide)).1
  revert hone
  decide

end Proofs
end Zrpc
