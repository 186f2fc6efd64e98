import Mathlib.Data.List.Basic

/-!
# A read-write lock

A lock that records which parties hold it. `Agrees` says that the lock holds exactly for those
parties whose own state says so; each operation keeps it.
-/

namespace Zrpc.Lib

universe u

/-- A read-write lock: the party that holds it for writing and those that hold it for reading. -/
structure RWLock (ι : Type u) where
  writer : Option ι
  readers : List ι

namespace RWLock

variable {ι : Type u}

def free : RWLock ι := ⟨none, []⟩

def lock (l : RWLock ι) (o : ι) : Option (RWLock ι) :=
  match l with
  | ⟨none, []⟩ => some ⟨some o, []⟩
  | _ => none

def rlock (l : RWLock ι) (o : ι) : Option (RWLock ι) :=
  match l.writer with
  | none => some ⟨none, o :: l.readers⟩
  | some _ => none

def unlock (l : RWLock ι) : RWLock ι := { l with writer := none }

def runlock [DecidableEq ι] (l : RWLock ι) (o : ι) : RWLock ι :=
  { l with readers := l.readers.erase o }

/-- The party holds the lock, for writing or for reading. -/
def Held (l : RWLock ι) (o : ι) : Prop := l.writer = some o ∨ o ∈ l.readers

lemma lock_eq_some {l l' : RWLock ι} {o : ι} (h : l.lock o = some l') :
    l = free ∧ l' = ⟨some o, []⟩ := by
  unfold lock at h
  split at h
  · exact ⟨rfl, (Option.some.inj h).symm⟩
  · cases h

lemma rlock_eq_some {l l' : RWLock ι} {o : ι} (h : l.rlock o = some l') :
    l.writer = none ∧ l' = ⟨none, o :: l.readers⟩ := by
  unfold rlock at h
  split at h
  · rename_i hw
    exact ⟨hw, (Option.some.inj h).symm⟩
  · cases h

/-- `W` and `R` are the parties that take themselves to hold the lock for writing and for
reading. -/
structure Agrees (l : RWLock ι) (W R : ι → Prop) : Prop where
  writer : ∀ o, l.writer = some o ↔ W o
  reader : ∀ o, o ∈ l.readers ↔ R o
  nodup : l.readers.Nodup

namespace Agrees

variable {l l' : RWLock ι} {W R W' R' : ι → Prop} {o : ι}

lemma congr (h : l.Agrees W R) (hW : ∀ p, W' p ↔ W p) (hR : ∀ p, R' p ↔ R p) :
    l.Agrees W' R' :=
  ⟨fun p => (h.writer p).trans (hW p).symm, fun p => (h.reader p).trans (hR p).symm, h.nodup⟩

lemma held_iff (h : l.Agrees W R) : l.Held o ↔ W o ∨ R o := or_congr (h.writer o) (h.reader o)

lemma writer_unique (h : l.Agrees W R) {p : ι} (ho : W o) (hp : W p) : o = p := by
  have hwo := (h.writer o).mpr ho
  have hwp := (h.writer p).mpr hp
  exact Option.some.inj (hwo.symm.trans hwp)

lemma lock (h : l.Agrees W R) (hl : l.lock o = some l') (hW : ∀ p, W' p ↔ p = o ∨ W p)
    (hR : ∀ p, R' p ↔ R p) : l'.Agrees W' R' := by
  obtain ⟨rfl, rfl⟩ := lock_eq_some hl
  have hnone : ∀ p, ¬W p := fun p hp => nomatch (h.writer p).mpr hp
  refine ⟨fun p => ?_, fun p => (h.reader p).trans (hR p).symm, List.nodup_nil⟩
  rw [hW, or_iff_left (hnone p), Option.some.injEq, eq_comm]

lemma rlock (h : l.Agrees W R) (hl : l.rlock o = some l') (ho : ¬R o) (hW : ∀ p, W' p ↔ W p)
    (hR : ∀ p, R' p ↔ p = o ∨ R p) : l'.Agrees W' R' := by
  obtain ⟨hfree, rfl⟩ := rlock_eq_some hl
  refine ⟨fun p => ?_, fun p => ?_, List.nodup_cons.mpr ⟨mt (h.reader o).mp ho, h.nodup⟩⟩
  · rw [hW, ← h.writer, hfree]
  · rw [List.mem_cons, hR, h.reader]

lemma unlock (h : l.Agrees W R) (ho : W o) (hW : ∀ p, W' p ↔ p ≠ o ∧ W p)
    (hR : ∀ p, R' p ↔ R p) : l.unlock.Agrees W' R' := by
  refine ⟨fun p => ?_, fun p => (h.reader p).trans (hR p).symm, h.nodup⟩
  have hp : ¬W' p := fun hp => ((hW p).mp hp).1 (h.writer_unique ((hW p).mp hp).2 ho)
  exact iff_of_false (by simp [RWLock.unlock]) hp

lemma runlock [DecidableEq ι] (h : l.Agrees W R) (hW : ∀ p, W' p ↔ W p)
    (hR : ∀ p, R' p ↔ p ≠ o ∧ R p) : (l.runlock o).Agrees W' R' := by
  refine ⟨fun p => (h.writer p).trans (hW p).symm, fun p => ?_, h.nodup.erase o⟩
  rw [hR, ← h.reader]
  exact h.nodup.mem_erase_iff

end Agrees

end RWLock

end Zrpc.Lib
