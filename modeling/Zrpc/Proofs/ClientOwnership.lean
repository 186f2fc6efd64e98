import Mathlib.Algebra.Order.BigOperators.Group.List
import Mathlib.Data.List.Induction
import Zrpc.Proofs.Answer
import Zrpc.Proofs.ClientMoves
import Zrpc.Lib.Tally

/-!
# Exclusive ownership of connections

A connection of a pool is in the pool's `hotQueue`, in its `coldQueue`, or in the hands of a
goroutine. Every operation moves it between these places, so a sum over all places can only grow
by dialling.
-/

namespace Zrpc.Proofs

open Zrpc.Lib

variable {V T : Type}

/-! ### Weights -/

def weigh (w : Nat × Nat → Nat) (l : List (Nat × Nat)) : Nat := (l.map w).sum

section Weigh

variable (w : Nat × Nat → Nat)

@[simp] lemma weigh_nil : weigh w [] = 0 := rfl

@[simp] lemma weigh_cons (x : Nat × Nat) (l : List (Nat × Nat)) :
    weigh w (x :: l) = w x + weigh w l := by
  simp [weigh]

@[simp] lemma weigh_append (l m : List (Nat × Nat)) : weigh w (l ++ m) = weigh w l + weigh w m := by
  simp [weigh]

lemma weigh_le_of_sublist {l m : List (Nat × Nat)} (h : l.Sublist m) : weigh w l ≤ weigh w m :=
  (h.map w).sum_le_sum (fun _ _ => Nat.zero_le _)

end Weigh

def inQueues (w : Nat × Nat → Nat) (pools : List ConnPool) : Nat :=
  tally (fun p q => weigh w (q.queued p)) pools

def inHands (w : Nat × Nat → Nat) (threads : List (Thread T)) : Nat :=
  tally (fun _ th => weigh w th.hands) threads

/-- The weight of all places of all connections. -/
def placed (w : Nat × Nat → Nat) (s : ClientState T) : Nat :=
  inQueues w s.shared.connPools + inHands w s.threads

/-- What an operation takes out of a queue. -/
def taken (w : Nat × Nat → Nat) (s : ClientShared) : ClientOp → Nat
  | .recvHot p => (s.connPools[p]?.bind (fun q => q.hotQueue.head?)).elim 0 (fun c => w (p, c))
  | .popCold p => (s.connPools[p]?.bind (fun q => q.coldQueue.getLast?)).elim 0 (fun c => w (p, c))
  | _ => 0

/-- What an operation dials. -/
def dialled (w : Nat × Nat → Nat) (s : ClientShared) : ClientOp → Nat
  | .dial p | .create p => w (p, s.conns.length)
  | _ => 0

/-- What an operation adds to a queue. -/
def given (w : Nat × Nat → Nat) : ClientOp → Nat
  | .sendHot p c | .pushCold p c | .addPrewarmed p c => w (p, c)
  | _ => 0

/-- The goroutine with `before` in its hands has `after` once it has performed `op`. -/
def Moves (w : Nat × Nat → Nat) (s : ClientShared) (op : ClientOp)
    (before after : List (Nat × Nat)) : Prop :=
  weigh w after + given w op ≤ weigh w before + taken w s op + dialled w s op

/-! ### The goroutines -/

section Programs

variable {w : Nat × Nat → Nat} {s : ClientShared} {op : ClientOp} {p : Nat} {inp : Input}

lemma moves_of_sublist {before after : List (Nat × Nat)} (hop : given w op = 0)
    (h : after.Sublist before) : Moves w s op before after := by
  have hle := weigh_le_of_sublist w h
  unfold Moves
  omega

/-- What the other deferred functions hold stays. -/
lemma Moves.append {before after : List (Nat × Nat)} (h : Moves w s op before after)
    (l : List (Nat × Nat)) : Moves w s op (before ++ l) (after ++ l) := by
  unfold Moves at *
  rw [weigh_append, weigh_append]
  omega

lemma given_of_isLocal (h : op.isLocal = true) : given w op = 0 := by
  cases op <;> first | rfl | cases h

lemma given_of_isHealthy {k : ClientConn} {c : Nat} {h : Health} {healthy : Bool}
    (ho : isHealthy k c h = some (op, healthy)) : given w op = 0 := by
  rcases isHealthy_op ho with rfl | ⟨rfl, -⟩ <;> rfl

lemma getStep_moves {pc : GetPc} {out : GetOut} (h : getStep s p pc inp = some (op, out)) :
    Moves w s op (pc.hands p) (out.hands p) := by
  cases getStep_move h with
  | look _ hands _ => exact moves_of_sublist rfl (hands ▸ .refl _)
  | recvHot hq hhot _ => simp [Moves, GetOut.hands, GetPc.hands, taken, hq, hhot, given]; omega
  | popCold hq hcold _ => simp [Moves, GetOut.hands, GetPc.hands, taken, hq, hcold, given]; omega
  | @health _ _ _ _ _ healthy hpc _ _ hh =>
    subst hpc
    apply moves_of_sublist (given_of_isHealthy hh)
    cases healthy <;> exact .refl _
  | mark hpc =>
    subst hpc
    exact moves_of_sublist rfl (.refl _)
  | release hpc =>
    subst hpc
    exact moves_of_sublist rfl (List.nil_sublist _)
  | @decrement _ stage _ hpc =>
    subst hpc
    apply moves_of_sublist rfl
    cases stage <;> exact .refl _
  | create _ _ hpc =>
    subst hpc
    simp [Moves, GetPc.hands, GetOut.hands, given, dialled]
  | count _ hpc =>
    subst hpc
    exact moves_of_sublist rfl (.refl _)

def putHands (p : Nat) (out : Option PutPc) : List (Nat × Nat) := out.elim [] (PutPc.hands p)

lemma putStep_moves {pc : PutPc} {out : Option PutPc} (h : putStep s p pc = some (op, out)) :
    Moves w s op (pc.hands p) (putHands p out) := by
  cases putStep_move h with
  | drop hop =>
    apply moves_of_sublist _ (List.nil_sublist _)
    rcases hop with rfl | rfl <;> rfl
  | keep hands =>
    exact moves_of_sublist rfl (show List.Sublist (PutPc.hands p _) _ from hands ▸ .refl _)
  | mark hpc =>
    subst hpc
    exact moves_of_sublist rfl (.refl _)
  | @give _ c hop hands =>
    rw [hands]
    rcases hop with rfl | rfl <;> simp [Moves, putHands, given] <;> omega
  | discard _ _ _ => exact moves_of_sublist rfl (List.nil_sublist _)

variable {cfg : ClientConfig V T} {id : Nat}

lemma deferredPuts_released {t : InvokeThread T} {cell : Cell} {rest : List Cell}
    (h : t.cells = cell :: rest) : deferredPuts t.released.cells = deferredPuts rest := by
  simp [InvokeThread.released, h, deferredPuts]

lemma invokeStep_moves {t t' : InvokeThread T} (h : invokeStep cfg s id t inp = some (op, t')) :
    Moves w s op t.hands t'.hands := by
  cases invokeStep_move h with
  | other hl => exact moves_of_sublist (given_of_isLocal hl.op) hl.hands
  | @get p pc _ out hpc hget =>
    have hm := (getStep_moves (w := w) hget).append (deferredPuts t.cells)
    rw [hands_get hpc]
    cases out with
    | next pc' => exact hm
    | got c => exact hm
    | failed err => exact hm
  | write hpc _ _ _ =>
    apply moves_of_sublist rfl
    simp [InvokeThread.hands, hpc, InvokeThread.goto]
  | closeConn hpc hcells =>
    apply moves_of_sublist rfl
    have hrel := deferredPuts_released hcells
    simp [InvokeThread.hands, hpc, InvokeThread.continueWith, usedAndDeferred, hcells, hrel]
  | recv _ _ _ _ hands _ _ => exact moves_of_sublist rfl hands
  | @put p pc result _ out hpc hput =>
    have hm := (putStep_moves (w := w) hput).append (deferredPuts t.cells)
    rw [hands_put hpc]
    cases out with
    | some pc' => exact hm
    | none => cases result <;> exact hm
  | @unwindPut p pc result _ out hpc hput =>
    have hm := (putStep_moves (w := w) hput).append (deferredPuts t.cells)
    rw [hands_unwindPut hpc]
    cases out <;> exact hm

lemma heartbeatStep_moves {pc pc' : HeartbeatPc}
    (h : heartbeatStep cfg s id pc inp = some (op, pc')) : Moves w s op pc.hands pc'.hands := by
  cases heartbeatStep_move h with
  | other hop _ hands _ _ _ _ => exact moves_of_sublist (given_of_isLocal hop) hands
  | @get p g _ out hpc hget =>
    subst hpc
    have hm := getStep_moves (w := w) hget
    cases out <;> exact hm
  | @health _ _ _ _ _ healthy hpc _ _ hh =>
    subst hpc
    apply moves_of_sublist (given_of_isHealthy hh)
    cases healthy <;> exact .refl _
  | write hpc _ | closeConn hpc =>
    subst hpc
    exact moves_of_sublist rfl (.refl _)
  | @put p g _ out hpc hput =>
    subst hpc
    have hm := putStep_moves (w := w) hput
    cases out <;> exact hm

lemma prewarmStep_moves {pc pc' : PrewarmPc} (h : prewarmStep s p pc inp = some (op, pc')) :
    Moves w s op (pc.hands p) (pc'.hands p) := by
  cases prewarmStep_move h with
  | look _ hpc' _ => exact moves_of_sublist rfl (hpc' ▸ List.nil_sublist _)
  | dial _ hpc =>
    subst hpc
    simp [Moves, PrewarmPc.hands, given, dialled]
  | add _ _ hpc =>
    subst hpc
    simp [Moves, PrewarmPc.hands, given]
    omega

def closeHands (p : Nat) : Option ClosePc → List (Nat × Nat)
  | some (.drained c) => [(p, c)]
  | _ => []

lemma closeStep_moves {pc : ClosePc} {out : Option ClosePc} (h : closeStep s p pc = some (op, out)) :
    Moves w s op (closeHands p (some pc)) (closeHands p out) := by
  cases closeStep_move h with
  | drain hq hhot hpc =>
    subst hpc
    simp [Moves, closeHands, taken, hq, hhot, given]
  | already _ _ _ | closePool _ _ _ | listEnd _ | listed _ | closeHot _ | drained _ | drainEnd _ _ _
  | reset _ => exact moves_of_sublist rfl (List.nil_sublist _)

lemma hands_pool (target : GoString) (p : Nat) (g : ClosePc) (todo : List GoString) :
    (CloserPc.pool target p g todo).hands = closeHands p (some g) := by
  cases g <;> rfl

lemma closerStep_moves {kind : CloserKind} {pc pc' : CloserPc}
    (h : closerStep s kind pc inp = some (op, pc')) : Moves w s op pc.hands pc'.hands := by
  cases closerStep_move h with
  | other hl => cases hl <;> exact moves_of_sublist rfl (List.nil_sublist _)
  | inside hpc hc =>
    rw [hpc, hands_pool, hands_pool]
    exact closeStep_moves hc
  | leave hpc hc hpc' =>
    have hm := closeStep_moves (w := w) hc
    rw [hpc, hands_pool]
    rcases hpc' with ⟨rfl, -⟩ | rfl <;> exact hm

lemma threadStep_moves {th th' : Thread T} (h : threadStep cfg s id th inp = some (op, th')) :
    Moves w s op th.hands th'.hands := by
  cases threadStep_move h with
  | invoke hr => exact invokeStep_moves hr
  | heartbeat hr => exact heartbeatStep_moves hr
  | prewarm hr => exact prewarmStep_moves hr
  | closer hr => exact closerStep_moves hr

end Programs

/-! ### The queues -/

section Queues

variable {w : Nat × Nat → Nat} {s : ClientShared}

lemma queued_eq (p : Nat) (q : ConnPool) : weigh w (q.queued p) =
    weigh w (q.hotQueue.map (fun c => (p, c))) + weigh w (q.coldQueue.map (fun c => (p, c))) := by
  rw [ConnPool.queued, List.map_append, weigh_append]

/-- A change of pool `p` changes the queues by what it changes in that pool. -/
lemma inQueues_onPool {p lost gained : Nat} {f : ConnPool → ConnPool}
    (hsome : ∀ q, s.connPools[p]? = some q →
      weigh w ((f q).queued p) + lost ≤ weigh w (q.queued p) + gained)
    (hnone : s.connPools[p]? = none → lost = 0) :
    inQueues w (s.onPool p f).connPools + lost ≤ inQueues w s.connPools + gained := by
  change tally _ (s.connPools.modify p f) + lost ≤ tally _ s.connPools + gained
  cases hq : s.connPools[p]? with
  | none =>
    have hlost := hnone hq
    rw [modify_of_none hq]
    omega
  | some q =>
    have hm := tally_modify (f := fun p q => weigh w (ConnPool.queued p q)) hq f
    have hle := hsome q hq
    omega

lemma weigh_dropLast (p : Nat) (l : List Nat) :
    weigh w (l.dropLast.map (fun c => (p, c))) + l.getLast?.elim 0 (fun c => w (p, c)) =
      weigh w (l.map (fun c => (p, c))) := by
  induction l using List.reverseRecOn with
  | nil => rfl
  | append_singleton l c _ => simp

lemma inQueues_apply (op : ClientOp) : inQueues w (s.apply op).connPools + taken w s op ≤
    inQueues w s.connPools + given w op := by
  cases op with
  | recvHot p =>
    apply inQueues_onPool
    · intro q hq
      rw [queued_eq, queued_eq]
      cases hhot : q.hotQueue <;> simp [taken, hq, hhot, given]
      omega
    · intro hq
      simp [taken, hq]
  | popCold p =>
    apply inQueues_onPool
    · intro q hq
      have hl := weigh_dropLast (w := w) p q.coldQueue
      rw [queued_eq, queued_eq]
      simp only [taken, hq, Option.bind_some, given]
      omega
    · intro hq
      simp [taken, hq]
  | sendHot p c | pushCold p c | addPrewarmed p c =>
    apply inQueues_onPool
    · intro q _
      rw [queued_eq, queued_eq]
      simp [taken, given]
      omega
    · exact fun _ => rfl
  | closePool p =>
    apply inQueues_onPool
    · intro q _
      rw [queued_eq, queued_eq]
      simp [taken, given]
    · exact fun _ => rfl
  | newPool target size =>
    simp [ClientShared.apply, inQueues, tally_append, newConnPool, ConnPool.queued, taken, given]
  | create p | count p c | closeCounted p c | decrement p | closeHot p | resetCreated p =>
    exact inQueues_onPool (fun q _ => le_rfl) (fun _ => rfl)
  | _ => exact le_rfl

end Queues

/-! ### Whole runs -/

section Runs

variable {w : Nat × Nat → Nat} {cfg : ClientConfig V T} {s t : ClientState T}

lemma inHands_spawned (op : ClientOp) (sh : ClientShared) :
    tally (fun _ th => weigh w (Thread.hands th)) (spawned sh op : List (Thread T)) = 0 := by
  cases op <;> rfl

/-- Nothing but dialling adds to the places of connections. -/
lemma placed_run {i : Nat} {inp : Input} {th th' : Thread T} {op : ClientOp}
    (hi : s.threads[i]? = some th) (h : threadStep cfg s.shared i th inp = some (op, th')) :
    placed w ⟨s.shared.apply op, s.threads.set i th' ++ spawned s.shared op⟩ ≤
      placed w s + dialled w s.shared op := by
  have hm := threadStep_moves (w := w) h
  have hq := inQueues_apply (w := w) (s := s.shared) op
  have hset := tally_set (f := fun _ th => weigh w (Thread.hands th)) hi th'
  have hsp := inHands_spawned (w := w) (T := T) op s.shared
  simp only [placed, inHands, tally_append, hsp]
  unfold Moves at hm
  omega

lemma placed_start (a : ClientAction T) :
    placed w { s with threads := s.threads ++ newThread a } = placed w s := by
  have hnew : tally (fun _ th => weigh w (Thread.hands th)) (newThread a) = 0 := by
    cases a <;> rfl
  simp only [placed, inHands, tally_append, hnew]
  rfl

/-- The weight of one connection. -/
def single (c : Nat) : Nat × Nat → Nat := fun x => if x.2 = c then 1 else 0

/-- Each connection has at most one place, and only dialled ones have any. -/
def Owned (s : ClientState T) : Prop :=
  ∀ c, placed (single c) s ≤ 1 ∧ (s.shared.conns.length ≤ c → placed (single c) s = 0)

lemma apply_conns_length (s : ClientShared) (op : ClientOp) :
    s.conns.length ≤ (s.apply op).conns.length := by
  cases op <;> simp [ClientShared.apply, ClientShared.onPool, ClientShared.onConn,
    ClientShared.addConn]

lemma dialled_single {s : ClientShared} {op : ClientOp} {c : Nat} (h : dialled (single c) s op ≠ 0) :
    dialled (single c) s op = 1 ∧ c = s.conns.length ∧ c < (s.apply op).conns.length := by
  have hc : ∀ p, single c (p, s.conns.length) ≠ 0 → single c (p, s.conns.length) = 1 ∧
      c = s.conns.length := by
    intro p hp
    by_cases he : s.conns.length = c
    · simp [single, he]
    · simp [single, he] at hp
  cases op with
  | dial p | create p =>
    obtain ⟨hone, hlen⟩ := hc p h
    exact ⟨hone, hlen, by simp [ClientShared.apply, ClientShared.addConn, ClientShared.onPool, hlen]⟩
  | _ => exact absurd rfl h

lemma owned_step {a : ClientAction T} (hs : Owned s) (h : clientStep cfg s a = some t) :
    Owned t := by
  intro c
  obtain ⟨hone, hfresh⟩ := hs c
  cases clientStep_move h with
  | @run i inp th op th' hi hstep =>
    have hp := placed_run (w := single c) hi hstep
    have hlen := apply_conns_length s.shared op
    by_cases hd : dialled (single c) s.shared op = 0
    · rw [hd] at hp
      refine ⟨by omega, fun hc => ?_⟩
      have hz := hfresh (le_trans hlen hc)
      omega
    · obtain ⟨hd1, hceq, hlt⟩ := dialled_single hd
      have hz := hfresh hceq.ge
      exact ⟨by omega, fun hc => absurd hlt (not_lt.mpr hc)⟩
  | answer hk hans => exact ⟨hone, fun hc => hfresh (by simpa using hc)⟩
  | start a =>
    rw [placed_start]
    exact ⟨hone, hfresh⟩

lemma owned_init : Owned (.init : ClientState T) := fun _ => ⟨Nat.zero_le _, fun _ => rfl⟩

lemma owned_of_exec {acts : List (ClientAction T)} (h : exec (clientStep cfg) .init acts = some s) :
    Owned s :=
  exec_invariant Owned (fun _ _ _ hs hstep => owned_step hs hstep) owned_init h

end Runs

/-! ### Use of a connection -/

section Use

variable {cfg : ClientConfig V T} {s : ClientShared} {op : ClientOp} {p c id : Nat} {inp : Input}

lemma used_of_isHealthy {k : ClientConn} {d : Nat} {h : Health} {healthy : Bool}
    (ho : isHealthy k d h = some (op, healthy)) (hc : op.used = some c) : d = c := by
  rcases isHealthy_op ho with rfl | ⟨rfl, -⟩
  · cases hc
  · exact Option.some.inj hc

lemma getStep_used {pc : GetPc} {out : GetOut} (h : getStep s p pc inp = some (op, out))
    (hc : op.used = some c) : (p, c) ∈ pc.hands p := by
  cases getStep_move h with
  | health hpc _ _ hh =>
    rw [hpc, used_of_isHealthy hh hc]
    exact List.mem_singleton_self _
  | mark hpc =>
    cases hc
    rw [hpc]
    exact List.mem_singleton_self _
  | look _ _ _ | recvHot _ _ _ | popCold _ _ _ | release _ | decrement _ _ | create _ _ _
  | count _ _ => cases hc

lemma putStep_used {pc : PutPc} {out : Option PutPc} (h : putStep s p pc = some (op, out))
    (hc : op.used = some c) : (p, c) ∈ pc.hands p := by
  cases putStep_move h with
  | mark hpc =>
    cases hc
    rw [hpc]
    exact List.mem_singleton_self _
  | drop hop => rcases hop with rfl | rfl <;> cases hc
  | give hop _ => rcases hop with rfl | rfl <;> cases hc
  | keep _ | discard _ _ _ => cases hc

/-- A goroutine only uses connections it has in its hands. -/
lemma threadStep_used {th th' : Thread T} (h : threadStep cfg s id th inp = some (op, th'))
    (hc : op.used = some c) : ∃ p, (p, c) ∈ th.hands := by
  cases threadStep_source h with
  | get _ hin hg => exact ⟨_, hands_of_inGet hin (getStep_used hg hc)⟩
  | put _ hin hg => exact ⟨_, hands_of_inPut hin (putStep_used hg hc)⟩
  | @health p _ _ _ _ _ _ _ _ hh =>
    rw [used_of_isHealthy hh hc]
    exact ⟨p, List.mem_singleton_self _⟩
  | write hhands _ =>
    cases hc
    exact ⟨_, hhands⟩
  | @recv t cell _ _ _ _ _ hpc hcells _ _ =>
    cases hc
    exact ⟨cell.pool, by simp [Thread.hands, InvokeThread.hands, hpc, hcells, usedAndDeferred]⟩
  | own hop _ _ | prewarm hop _ | closer hop _ =>
    cases op <;> first | (cases hop; done) | cases hc
  | closeConn => cases hc

end Use

/-! ### Exclusive ownership -/

/-- The number of places connection `c` is in: its occurrences in the queues of all pools and in
the hands of all goroutines. -/
def places (c : Nat) (s : ClientState T) : Nat :=
  (s.shared.connPools.map (fun q => q.hotQueue.count c + q.coldQueue.count c)).sum +
    (s.threads.map (fun th => (th.hands.map Prod.snd).count c)).sum

/-- Goroutine `i` can take a step that uses connection `c`. -/
def CanUse (cfg : ClientConfig V T) (s : ClientState T) (i c : Nat) : Prop :=
  ∃ th inp op th', s.threads[i]? = some th ∧
    threadStep cfg s.shared i th inp = some (op, th') ∧ op.used = some c

variable {s : ClientState T}

lemma weigh_single (c : Nat) (l : List (Nat × Nat)) :
    weigh (single c) l = (l.map Prod.snd).count c := by
  induction l with
  | nil => rfl
  | cons x l ih =>
    rw [weigh_cons, ih, List.map_cons, List.count_cons, single]
    simp only [beq_iff_eq]
    omega

lemma places_eq (c : Nat) (s : ClientState T) : places c s = placed (single c) s := by
  have hq : ∀ p q, weigh (single c) (ConnPool.queued p q) =
      q.hotQueue.count c + q.coldQueue.count c := by
    intro p q
    rw [weigh_single, ConnPool.queued, List.map_map]
    simp [Function.comp_def]
  unfold places placed inQueues inHands
  simp only [hq, weigh_single, tally_const]

lemma weigh_single_pos {c p : Nat} {l : List (Nat × Nat)} (h : (p, c) ∈ l) :
    0 < weigh (single c) l := by
  rw [weigh_single, List.count_pos_iff]
  exact List.mem_map_of_mem h

/-- What a goroutine has in its hands was dialled. -/
lemma conn_of_hands (hs : Owned s) {c i p : Nat} {th : Thread T} (hi : s.threads[i]? = some th)
    (hc : (p, c) ∈ th.hands) : ∃ k, s.shared.conns[c]? = some k := by
  have hle := le_tally (f := fun _ th => weigh (single c) (Thread.hands th)) hi
  have hpos := weigh_single_pos hc
  have hlt : c < s.shared.conns.length := by
    by_contra hge
    have hz := (hs c).2 (not_lt.mp hge)
    unfold placed inHands at hz
    omega
  exact ⟨_, List.getElem?_eq_getElem hlt⟩

lemma eq_of_hands (hs : Owned s) {c i j p p' : Nat} {th th' : Thread T}
    (hi : s.threads[i]? = some th) (hj : s.threads[j]? = some th')
    (hc : (p, c) ∈ th.hands) (hc' : (p', c) ∈ th'.hands) : i = j := by
  by_contra hne
  have hle := add_le_tally (f := fun _ th => weigh (single c) (Thread.hands th)) hi hj hne
  have hone := (hs c).1
  have h1 := weigh_single_pos hc
  have h2 := weigh_single_pos hc'
  unfold placed inHands at hone
  omega

/-- In every reachable state a connection is at most once in the queues and the hands of
goroutines, and no two goroutines can use it. -/
theorem exclusive_ownership (cfg : ClientConfig V T) (acts : List (ClientAction T))
    (s : ClientState T) (h : exec (clientStep cfg) .init acts = some s) (c : Nat) :
    places c s ≤ 1 ∧ ∀ i j, CanUse cfg s i c → CanUse cfg s j c → i = j := by
  have hs := owned_of_exec h
  refine ⟨places_eq c s ▸ (hs c).1, ?_⟩
  rintro i j ⟨th, inp, op, th', hi, hstep, huse⟩ ⟨uh, inp', op', uh', hj, hstep', huse'⟩
  obtain ⟨p, hp⟩ := threadStep_used hstep huse
  obtain ⟨p', hp'⟩ := threadStep_used hstep' huse'
  exact eq_of_hands hs hi hj hp hp'

/-- A client with pools of size 2 that does not retry. -/
def smallClient : ClientConfig Bytes Unit := ⟨storedEnv, bytesProto, 0, 2, 4096, Nat.two_pos⟩

/-- The steps of an Invoke up to the lookup of its pool. -/
def findPool (i : Nat) : List (ClientAction Unit) :=
  [.run i .go, .run i (.addr (str "s")), .run i .go]

def steps (i n : Nat) : List (ClientAction Unit) := List.replicate n (.run i .go)

/-- Two Invokes dial a connection each, and a third one is prewarmed. -/
def twoInvokes : List (ClientAction Unit) :=
  [.invoke true (), .invoke true ()] ++ findPool 0 ++ steps 0 7 ++ findPool 1 ++ steps 1 6 ++
    steps 2 3

theorem exclusive_ownership_twoInvokes : ∃ s,
    exec (clientStep smallClient) .init twoInvokes = some s ∧ s.shared.conns.length = 3 ∧
      places 1 s = 1 ∧ places 1 s ≤ 1 ∧
      ∀ i j, CanUse smallClient s i 1 → CanUse smallClient s j 1 → i = j :=
  ⟨_, rfl, by decide, by decide, exclusive_ownership smallClient twoInvokes _ rfl 1⟩

/-- An Invoke dials and stands before its write; `prewarmConnections` fails to dial. -/
def dialOnly : List (ClientAction Unit) :=
  [.invoke true ()] ++ findPool 0 ++ steps 0 1 ++ [.run 1 .go, .run 1 (.fail []), .run 1 .go] ++
    steps 0 10

end Zrpc.Proofs
