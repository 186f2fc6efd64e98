import Zrpc.Proofs.ClientCounts

/-!
# Who holds `p.mu`

`createNewConn` dials while it holds `p.mu`. So a pool is locked exactly while one goroutine is between
the dial and the count, and never two of them are.
-/

namespace Zrpc.Proofs

open Zrpc.Lib

variable {V T : Type}

def lockedOf (p : Nat) (s : ClientShared) : Bool := (s.connPools[p]?.map ConnPool.locked).getD false

/-- The goroutines in `createNewConn` of pool `p` that have dialled. -/
def dialling (p : Nat) (threads : List (Thread T)) : Nat :=
  tally (fun _ th => getShare GetPc.adding p (Thread.inGet th)) threads

def PoolLocked (s : ClientState T) : Prop :=
  ∀ p, dialling p s.threads = (lockedOf p s.shared).toNat

/-- What a step means for the mutex of pool `p`. -/
inductive DialMove (p : Nat) (s : ClientShared) (th : Thread T) : ClientOp → Thread T → Prop
  | other {op th'} (hcreate : op ≠ .create p) (hcount : ∀ c, op ≠ .count p c)
    (hshare : getShare GetPc.adding p th'.inGet = getShare GetPc.adding p th.inGet) :
    DialMove p s th op th'
  | create {q th'} (hq : s.connPools[p]? = some q) (hfree : q.locked = false)
    (hshare : getShare GetPc.adding p th'.inGet = getShare GetPc.adding p th.inGet + 1) :
    DialMove p s th (.create p) th'
  | count {q c th'} (hq : s.connPools[p]? = some q) (hands : (p, c) ∈ th.hands)
    (hshare : getShare GetPc.adding p th'.inGet + 1 = getShare GetPc.adding p th.inGet) :
    DialMove p s th (.count p c) th'

section Step

variable {cfg : ClientConfig V T} {s : ClientShared} {p id : Nat} {inp : Input} {op : ClientOp}
  {th th' : Thread T}

lemma getShare_of_not {f : GetPc → Bool} {p' : Nat} {g : GetPc} (h : f g = false) :
    getShare f p (some (p', g)) = 0 := by
  simp [getShare, h]

lemma getShare_of_balanced {p' : Nat} {out : GetOut} (h : out.Balanced) :
    getShare GetPc.adding p (out.inGet p') = 0 := by
  cases out with
  | next g => exact getShare_of_not h.2
  | got c | failed err => rfl

lemma ne_of_not_isCreate (h : op.isCreate = false) : op ≠ .create p ∧ ∀ c, op ≠ .count p c := by
  constructor
  · rintro rfl
    cases h
  · rintro c rfl
    cases h

lemma getStep_dials {p' : Nat} {g : GetPc} {out : GetOut} (h : getStep s p' g inp = some (op, out))
    (hin : th.inGet = some (p', g)) (hin' : th'.inGet = out.inGet p') : DialMove p s th op th' := by
  have hother : op.isCreate = false → g.adding = false →
      getShare GetPc.adding p (out.inGet p') = 0 → DialMove p s th op th' := by
    intro hop hg hout
    obtain ⟨hcreate, hcount⟩ := ne_of_not_isCreate (p := p) hop
    refine .other hcreate hcount ?_
    rw [hin, hin', hout, getShare_of_not hg]
  cases getStep_move h with
  | look hg _ hout => exact hother rfl hg.2 (getShare_of_balanced hout)
  | recvHot _ _ hg | popCold _ _ hg => exact hother rfl hg.2 (getShare_of_not rfl)
  | @health _ _ _ _ _ healthy hg _ _ hh =>
    subst hg
    have hop : op.isCreate = false := by
      rcases isHealthy_op hh with rfl | ⟨rfl, -⟩ <;> rfl
    exact hother hop rfl (getShare_of_not (by cases healthy <;> rfl))
  | mark hg =>
    subst hg
    exact hother rfl rfl rfl
  | release hg =>
    subst hg
    exact hother rfl rfl (getShare_of_not rfl)
  | @decrement _ stage _ hg =>
    subst hg
    exact hother rfl rfl (getShare_of_not (by cases stage <;> rfl))
  | create hq hfree hg =>
    subst hg
    by_cases hp : p' = p
    · subst hp
      exact .create hq hfree (by simp [hin, hin', GetOut.inGet, getShare, GetPc.adding])
    · exact .other (by simp [hp]) (by simp) (by simp [hin, hin', GetOut.inGet, getShare, hp])
  | count hq hg =>
    subst hg
    by_cases hp : p' = p
    · subst hp
      exact .count hq (hands_of_inGet hin (by simp [GetPc.hands]))
        (by simp [hin, hin', GetOut.inGet, getShare, GetPc.adding])
    · exact .other (by simp) (by simp [hp]) (by simp [hin, hin', GetOut.inGet, getShare, hp])

lemma threadStep_dials (h : threadStep cfg s id th inp = some (op, th')) : DialMove p s th op th' := by
  cases threadStep_getSpan h with
  | inside hin hget hin' => exact getStep_dials hget hin hin'
  | outside hin hin' hop =>
    obtain ⟨hcreate, hcount⟩ := ne_of_not_isCreate (p := p) hop
    refine .other hcreate hcount ?_
    rw [getShare_of_closedCheck rfl hin', hin, getShare]

lemma hands_of_count {c : Nat} (h : threadStep cfg s id th inp = some (.count p c, th')) :
    (p, c) ∈ th.hands := by
  cases threadStep_dials (p := p) h with
  | other _ hcount _ => exact absurd rfl (hcount c)
  | count _ hands _ => exact hands

lemma lockedOf_apply (hcreate : op ≠ .create p) (hcount : ∀ c, op ≠ .count p c) :
    lockedOf p (s.apply op) = lockedOf p s := by
  unfold lockedOf
  cases hq : s.connPools[p]? with
  | none =>
    cases hq' : (s.apply op).connPools[p]? with
    | none => rfl
    | some q' =>
      obtain ⟨_, _, _, rfl, _⟩ := pool_new hq hq'
      rfl
  | some q =>
    obtain ⟨q', hq', hm⟩ := pool_move op hq
    rw [hq']
    cases hm with
    | same he | queues he | counter he | add _ he | closePool _ he | closeHot _ he =>
      subst he
      rfl
    | create hop _ => exact absurd hop hcreate
    | count hop _ => exact absurd hop (hcount _)

lemma lockedOf_onPool {q : ConnPool} (hq : s.connPools[p]? = some q) (f : ConnPool → ConnPool) :
    lockedOf p (s.onPool p f) = (f q).locked := by
  simp [lockedOf, ClientShared.onPool, hq]

end Step

section Run

variable {cfg : ClientConfig V T} {s t : ClientState T} {a : ClientAction T}

lemma dialling_run {p i : Nat} {th : Thread T} (hi : s.threads[i]? = some th) (th' : Thread T)
    (op : ClientOp) :
    dialling p (s.threads.set i th' ++ spawned s.shared op) + getShare GetPc.adding p th.inGet =
      dialling p s.threads + getShare GetPc.adding p th'.inGet := by
  have hset := tally_set (f := fun _ th => getShare GetPc.adding p (Thread.inGet th)) hi th'
  have hspawned : tally (fun _ th => getShare GetPc.adding p (Thread.inGet th))
      (spawned s.shared op : List (Thread T)) = 0 := by
    cases op <;> rfl
  unfold dialling
  rw [tally_append, hspawned]
  omega

lemma poolLocked_step (hs : PoolLocked s) (h : clientStep cfg s a = some t) : PoolLocked t := by
  intro p
  have hp := hs p
  cases clientStep_move h with
  | @run i inp th op th' hi hstep =>
    have hrun := dialling_run (p := p) hi th' op
    dsimp only
    cases threadStep_dials (p := p) hstep with
    | other hcreate hcount hshare =>
      rw [lockedOf_apply hcreate hcount]
      omega
    | create hq hfree hshare =>
      have hbefore : lockedOf p s.shared = false := by simp [lockedOf, hq, hfree]
      have hafter : lockedOf p (s.shared.apply (.create p)) = true :=
        lockedOf_onPool (s := s.shared.addConn p) hq _
      rw [hbefore, Bool.toNat_false] at hp
      rw [hafter, Bool.toNat_true]
      omega
    | @count q c _ hq _ hshare =>
      have hafter : lockedOf p (s.shared.apply (.count p c)) = false := lockedOf_onPool hq _
      have hle := Bool.toNat_le (lockedOf p s.shared)
      rw [hafter, Bool.toNat_false]
      omega
  | answer _ _ => exact hp
  | start a =>
    have hnew : tally (fun _ th => getShare GetPc.adding p (Thread.inGet th))
        (newThread a : List (Thread T)) = 0 := by
      cases a <;> rfl
    unfold dialling at hp ⊢
    rw [tally_append, hnew]
    exact hp

lemma poolLocked_init : PoolLocked (.init : ClientState T) := fun _ => rfl

/-- While nobody is between the dial and the count, `p.mu` is free. -/
lemma free_of_dialling {p : Nat} {q : ConnPool} (hs : PoolLocked s)
    (hq : s.shared.connPools[p]? = some q) (h : dialling p s.threads = 0) : q.locked = false := by
  have hp := hs p
  rw [h] at hp
  have hlocked : lockedOf p s.shared = q.locked := by simp [lockedOf, hq]
  rw [hlocked] at hp
  cases hl : q.locked with
  | false => rfl
  | true =>
    rw [hl] at hp
    cases hp

end Run

end Zrpc.Proofs
