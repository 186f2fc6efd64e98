import Zrpc.ConnRemoval
import Zrpc.Proofs.Answer

/-!
# The server's mutex and the connections' mutexes when connections are removed

`s.mu` stays locked for good exactly if some `removeConn` takes the branch of its timer and its
helper has the lock or gets it later.
-/

namespace Zrpc.Proofs

open Zrpc.Lib

variable {V T : Type}

/-! ### What one step does -/

/-- The steps of `connStep`, each with what it needs. -/
inductive RemovalMove (E : Env) (P : Proto V T) (S : Server V T) (c : ∀ md, EncodeChoice md)
    (s : ConnState) : ConnAction → ConnState → Prop
  | request {a writes} (ha : a.isRequest = true) (hw : writeStep E P S c s.writes a = some writes) :
    RemovalMove E P S c s (.request a) { s with writes := writes }
  | start {use n} :
    RemovalMove E P S c s (.start use) { s with accepted := n, users := s.users ++ [⟨use, .ready⟩] }
  | lock {i use mu} (hu : s.users[i]? = some ⟨use, .ready⟩) (hmu : use.lock s.mu i = some mu) :
    RemovalMove E P S c s (.lock i) { s with mu := mu, users := s.users.set i ⟨use, .holding⟩ }
  | unlock {i use} (hu : s.users[i]? = some ⟨use, .holding⟩) :
    RemovalMove E P S c s (.unlock i) (s.leave i use)
  | removeConn {conn} : RemovalMove E P S c s (.removeConn conn)
      { s with
        serving := s.serving.erase conn
        removers := s.removers ++ [⟨conn, .waiting, .selecting⟩] }
  | helperLock {r conn pc mu} (hr : s.removers[r]? = some ⟨conn, .waiting, pc⟩)
    (hmu : s.mu.lock (.helper r) = some mu) :
    RemovalMove E P S c s (.helperLock r) ({ s with mu := mu }.setRemover r ⟨conn, .acquired, pc⟩)
  | lockAcquired {r conn} (hr : s.removers[r]? = some ⟨conn, .acquired, .selecting⟩) :
    RemovalMove E P S c s (.lockAcquired r) (s.setRemover r ⟨conn, .acquired, .removing⟩)
  | timeout {r conn helper} (hr : s.removers[r]? = some ⟨conn, helper, .selecting⟩) :
    RemovalMove E P S c s (.timeout r) (s.setRemover r ⟨conn, helper, .cleaning⟩)
  | remove {r conn} (hr : s.removers[r]? = some ⟨conn, .acquired, .removing⟩) :
    RemovalMove E P S c s (.remove r)
      { s with
        mu := s.mu.unlock
        conns := s.conns.map fun conns => conns.erase conn
        users := s.users.map MuUser.wake
        removers := s.removers.set r ⟨conn, .released, .cleaning⟩ }
  | deleteMutex {r conn helper writes} (hr : s.removers[r]? = some ⟨conn, helper, .cleaning⟩)
    (hw : writeStep E P S c s.writes (.dropMutex conn) = some writes) :
    RemovalMove E P S c s (.deleteMutex r)
      ({ s with writes := writes }.setRemover r ⟨conn, helper, .closing⟩)
  | close {r conn helper writes} (hr : s.removers[r]? = some ⟨conn, helper, .closing⟩)
    (hw : writeStep E P S c s.writes (.close conn) = some writes) :
    RemovalMove E P S c s (.close r)
      ({ s with writes := writes }.setRemover r ⟨conn, helper, .finished⟩)

section Step

variable {E : Env} {P : Proto V T} {S : Server V T} {c : ∀ md, EncodeChoice md}
  {s t : ConnState} {a : ConnAction}

lemma start_accepted {use : MuUse} (h : s.start use = some t) :
    ∃ n, t = { s with accepted := n } := by
  unfold ConnState.start at h
  split at h
  · split at h <;> cases h
    exact ⟨_, rfl⟩
  · cases h
    exact ⟨_, rfl⟩

lemma connStep_move (h : connStep E P S c s a = some t) : RemovalMove E P S c s a t := by
  cases a with
  | request a =>
    simp only [connStep] at h
    split at h
    · rename_i ha
      obtain ⟨writes, hw, rfl⟩ := Option.map_eq_some_iff.mp h
      exact .request ha hw
    · cases h
  | start use =>
    obtain ⟨r, hr, rfl⟩ := Option.map_eq_some_iff.mp h
    obtain ⟨n, rfl⟩ := start_accepted hr
    exact .start
  | lock i =>
    simp only [connStep] at h
    split at h
    · rename_i use hu
      obtain ⟨mu, hmu, rfl⟩ := Option.map_eq_some_iff.mp h
      exact .lock hu hmu
    · cases h
  | unlock i =>
    simp only [connStep] at h
    split at h <;> cases h
    rename_i use hu
    exact .unlock hu
  | removeConn conn =>
    simp only [connStep] at h
    split at h <;> cases h
    exact .removeConn
  | helperLock r =>
    simp only [connStep] at h
    split at h
    · rename_i conn pc hr
      obtain ⟨mu, hmu, rfl⟩ := Option.map_eq_some_iff.mp h
      exact .helperLock hr hmu
    · cases h
  | lockAcquired r =>
    simp only [connStep] at h
    split at h <;> cases h
    rename_i conn hr
    exact .lockAcquired hr
  | timeout r =>
    simp only [connStep] at h
    split at h <;> cases h
    rename_i conn helper hr
    exact .timeout hr
  | remove r =>
    simp only [connStep] at h
    split at h <;> cases h
    rename_i conn hr
    exact .remove hr
  | deleteMutex r =>
    simp only [connStep] at h
    split at h
    · rename_i conn helper hr
      obtain ⟨writes, hw, rfl⟩ := Option.map_eq_some_iff.mp h
      exact .deleteMutex hr hw
    · cases h
  | close r =>
    simp only [connStep] at h
    split at h
    · rename_i conn helper hr
      obtain ⟨writes, hw, rfl⟩ := Option.map_eq_some_iff.mp h
      exact .close hr hw
    · cases h

end Step

/-! ### Who holds the server's mutex -/

/-- The parties that have taken `s.mu` with `Lock` and not released it, by their own state. -/
def WriteHolder (s : ConnState) : MuOwner → Prop
  | .helper r => ∃ x ∈ s.removers[r]?, x.helper = .acquired
  | .user i => ∃ u ∈ s.users[i]?, u.pc = .holding ∧ u.use.reads = false

def ReadHolder (s : ConnState) : MuOwner → Prop
  | .helper _ => False
  | .user i => ∃ u ∈ s.users[i]?, u.pc = .holding ∧ u.use.reads = true

/-- `s.mu` is held by the parties that have taken it and not released it, and by no other. -/
def MuAgrees (s : ConnState) : Prop := s.mu.Agrees (WriteHolder s) (ReadHolder s)

section Holders

variable {s : ConnState} {r i : Nat} {x : Remover} {u : MuUser}

lemma writeHolder_helper (hr : s.removers[r]? = some x) :
    WriteHolder s (.helper r) ↔ x.helper = .acquired := by
  simp [WriteHolder, hr]

lemma writeHolder_user (hu : s.users[i]? = some u) :
    WriteHolder s (.user i) ↔ u.pc = .holding ∧ u.use.reads = false := by
  simp [WriteHolder, hu]

lemma readHolder_user (hu : s.users[i]? = some u) :
    ReadHolder s (.user i) ↔ u.pc = .holding ∧ u.use.reads = true := by
  simp [ReadHolder, hu]

lemma writeHolder_setRemover (hr : s.removers[r]? = some x) (y : Remover) (o : MuOwner) :
    WriteHolder (s.setRemover r y) o ↔
      o = .helper r ∧ y.helper = .acquired ∨ o ≠ .helper r ∧ WriteHolder s o := by
  cases o with
  | helper j =>
    rw [MuOwner.helper.injEq, ne_eq, MuOwner.helper.injEq]
    exact exists_mem_getElem?_set hr (fun x => x.helper = .acquired) j
  | user j => simp [WriteHolder, ConnState.setRemover]

lemma writeHolder_setUser (hu : s.users[i]? = some u) (v : MuUser) (o : MuOwner) :
    WriteHolder { s with users := s.users.set i v } o ↔
      o = .user i ∧ (v.pc = .holding ∧ v.use.reads = false) ∨ o ≠ .user i ∧ WriteHolder s o := by
  cases o with
  | helper j => simp [WriteHolder]
  | user j =>
    rw [MuOwner.user.injEq, ne_eq, MuOwner.user.injEq]
    exact exists_mem_getElem?_set hu (fun u => u.pc = .holding ∧ u.use.reads = false) j

lemma readHolder_setUser (hu : s.users[i]? = some u) (v : MuUser) (o : MuOwner) :
    ReadHolder { s with users := s.users.set i v } o ↔
      o = .user i ∧ (v.pc = .holding ∧ v.use.reads = true) ∨ o ≠ .user i ∧ ReadHolder s o := by
  cases o with
  | helper j => simp [ReadHolder]
  | user j =>
    rw [MuOwner.user.injEq, ne_eq, MuOwner.user.injEq]
    exact exists_mem_getElem?_set hu (fun u => u.pc = .holding ∧ u.use.reads = true) j

/-- A remover that moves on without its helper leaves the lock with who holds it. -/
lemma MuAgrees.setRemover (hs : MuAgrees s) (hr : s.removers[r]? = some x) (pc : RemoverPc) :
    MuAgrees (s.setRemover r ⟨x.conn, x.helper, pc⟩) := by
  refine RWLock.Agrees.congr hs (fun o => ?_) (fun o => Iff.rfl)
  rw [writeHolder_setRemover hr]
  by_cases ho : o = .helper r
  · rw [ho, writeHolder_helper hr]
    simp
  · simp [ho]

/-- The holders of `s.mu` after user `i` has taken it. -/
lemma MuAgrees.lock (hs : MuAgrees s) {use : MuUse} {mu : RWLock MuOwner}
    (hu : s.users[i]? = some ⟨use, .ready⟩) (hmu : use.lock s.mu i = some mu) :
    MuAgrees { s with mu := mu, users := s.users.set i ⟨use, .holding⟩ } := by
  have hW := writeHolder_setUser hu ⟨use, .holding⟩
  have hR := readHolder_setUser hu ⟨use, .holding⟩
  have hnW : ¬WriteHolder s (.user i) := by simp [writeHolder_user hu]
  have hnR : ¬ReadHolder s (.user i) := by simp [readHolder_user hu]
  unfold MuUse.lock at hmu
  cases hreads : use.reads with
  | true =>
    rw [if_pos hreads] at hmu
    refine RWLock.Agrees.rlock hs hmu hnR (fun o => (hW o).trans ?_) (fun o => (hR o).trans ?_)
    · by_cases ho : o = .user i <;> simp [ho, hreads, hnW]
    · by_cases ho : o = .user i <;> simp [ho, hreads]
  | false =>
    rw [if_neg (by simp [hreads])] at hmu
    refine RWLock.Agrees.lock hs hmu (fun o => (hW o).trans ?_) (fun o => (hR o).trans ?_)
    · by_cases ho : o = .user i <;> simp [ho, hreads]
    · by_cases ho : o = .user i <;> simp [ho, hreads, hnR]

/-- A use of `s.mu` ends without the lock and leaves the removers as they are; for the goroutines
that answer requests it can only close a connection. -/
lemma run_spec (s : ConnState) (use : MuUse) :
    (s.run use).2 ≠ .holding ∧ (s.run use).1.removers = s.removers ∧
      ((s.run use).1.writes = s.writes ∨
        ∃ conn, (s.run use).1.writes = { s.writes with closed := conn :: s.writes.closed }) := by
  unfold ConnState.run
  split
  · split
    · exact ⟨by simp, rfl, .inl rfl⟩
    · exact ⟨by simp, rfl, .inr ⟨_, rfl⟩⟩
  · split <;> exact ⟨by simp, rfl, .inl rfl⟩
  · exact ⟨by simp, rfl, .inl rfl⟩
  · exact ⟨by simp, rfl, .inl rfl⟩

lemma leave_removers (s : ConnState) (i : Nat) (use : MuUse) :
    (s.leave i use).removers = s.removers :=
  (run_spec s use).2.1

lemma leave_writes (s : ConnState) (i : Nat) (use : MuUse) :
    (s.leave i use).writes = s.writes ∨
      ∃ conn, (s.leave i use).writes = { s.writes with closed := conn :: s.writes.closed } :=
  (run_spec s use).2.2

lemma writeHolder_leave (use : MuUse) (o : MuOwner) : WriteHolder (s.leave i use) o ↔
    WriteHolder { s with users := s.users.set i ⟨use, (s.run use).2⟩ } o := by
  cases o with
  | helper r => simp only [WriteHolder, leave_removers]
  | user j => rfl

lemma readHolder_leave (use : MuUse) (o : MuOwner) : ReadHolder (s.leave i use) o ↔
    ReadHolder { s with users := s.users.set i ⟨use, (s.run use).2⟩ } o := by
  cases o <;> rfl

lemma MuAgrees.leave (hs : MuAgrees s) {use : MuUse} (hu : s.users[i]? = some ⟨use, .holding⟩) :
    MuAgrees (s.leave i use) := by
  have hpc := (run_spec s use).1
  have hW := fun o => (writeHolder_leave use o).trans (writeHolder_setUser hu ⟨use, (s.run use).2⟩ o)
  have hR := fun o => (readHolder_leave use o).trans (readHolder_setUser hu ⟨use, (s.run use).2⟩ o)
  have hmu : (s.leave i use).mu = use.unlock s.mu i := rfl
  unfold MuAgrees
  rw [hmu, MuUse.unlock]
  cases hreads : use.reads with
  | true =>
    have hnW : ¬WriteHolder s (.user i) := by simp [writeHolder_user hu, hreads]
    refine RWLock.Agrees.runlock hs (fun o => (hW o).trans ?_) (fun o => (hR o).trans ?_)
    · by_cases ho : o = .user i <;> simp [ho, hpc, hnW]
    · simp [hpc]
  | false =>
    have hnR : ¬ReadHolder s (.user i) := by simp [readHolder_user hu, hreads]
    have hw : WriteHolder s (.user i) := by simp [writeHolder_user hu, hreads]
    refine RWLock.Agrees.unlock hs hw (fun o => (hW o).trans ?_) (fun o => (hR o).trans ?_)
    · simp [hpc]
    · by_cases ho : o = .user i <;> simp [ho, hpc, hnR]

lemma MuAgrees.helperLock (hs : MuAgrees s) {conn : Nat} {pc : RemoverPc} {mu : RWLock MuOwner}
    (hr : s.removers[r]? = some ⟨conn, .waiting, pc⟩) (hmu : s.mu.lock (.helper r) = some mu) :
    MuAgrees ({ s with mu := mu }.setRemover r ⟨conn, .acquired, pc⟩) := by
  refine RWLock.Agrees.lock hs hmu (fun o => ?_) (fun o => Iff.rfl)
  have hW := writeHolder_setRemover hr ⟨conn, .acquired, pc⟩ o
  refine hW.trans ?_
  by_cases ho : o = .helper r <;> simp [ho]

lemma wake_holding (u : MuUser) : u.wake.pc = .holding ↔ u.pc = .holding := by
  unfold MuUser.wake
  split <;> simp

lemma wake_use (u : MuUser) : u.wake.use = u.use := by
  unfold MuUser.wake
  split <;> rfl

lemma exists_mem_wake (us : List MuUser) (b : Bool) (j : Nat) :
    (∃ u ∈ (us.map MuUser.wake)[j]?, u.pc = .holding ∧ u.use.reads = b) ↔
      ∃ u ∈ us[j]?, u.pc = .holding ∧ u.use.reads = b := by
  rw [List.getElem?_map]
  cases us[j]? with
  | none => simp
  | some u => simp [wake_holding, wake_use]

lemma MuAgrees.remove (hs : MuAgrees s) {conn : Nat}
    (hr : s.removers[r]? = some ⟨conn, .acquired, .removing⟩) :
    MuAgrees { s with
      mu := s.mu.unlock
      conns := s.conns.map fun conns => conns.erase conn
      users := s.users.map MuUser.wake
      removers := s.removers.set r ⟨conn, .released, .cleaning⟩ } := by
  have hw : WriteHolder s (.helper r) := (writeHolder_helper hr).mpr rfl
  have hW := writeHolder_setRemover hr ⟨conn, .released, .cleaning⟩
  refine RWLock.Agrees.unlock hs hw (fun o => ?_) (fun o => ?_)
  · cases o with
    | helper j =>
      refine (hW (.helper j)).trans ?_
      simp
    | user j =>
      refine (exists_mem_wake s.users false j).trans ?_
      simp [WriteHolder]
  · cases o with
    | helper j => exact Iff.rfl
    | user j => exact exists_mem_wake s.users true j

end Holders

/-! ### The lock over a whole run -/

section Run

variable {E : Env} {P : Proto V T} {S : Server V T} {c : ∀ md, EncodeChoice md}
  {s t : ConnState} {a : ConnAction}

lemma connStep_muAgrees (hs : MuAgrees s) (h : connStep E P S c s a = some t) : MuAgrees t := by
  cases connStep_move h with
  | request _ _ => exact hs
  | start =>
    refine RWLock.Agrees.congr hs (fun o => ?_) (fun o => ?_)
    · cases o with
      | helper j => exact Iff.rfl
      | user j => exact exists_mem_getElem?_concat (by simp) j
    · cases o with
      | helper j => exact Iff.rfl
      | user j => exact exists_mem_getElem?_concat (by simp) j
  | lock hu hmu => exact hs.lock hu hmu
  | unlock hu => exact hs.leave hu
  | removeConn =>
    refine RWLock.Agrees.congr hs (fun o => ?_) (fun o => ?_)
    · cases o with
      | helper j => exact exists_mem_getElem?_concat (by simp) j
      | user j => exact Iff.rfl
    · cases o <;> exact Iff.rfl
  | helperLock hr hmu => exact hs.helperLock hr hmu
  | lockAcquired hr => exact hs.setRemover hr _
  | timeout hr => exact hs.setRemover hr _
  | remove hr => exact hs.remove hr
  | deleteMutex hr _ => exact hs.setRemover hr _
  | close hr _ => exact hs.setRemover hr _

end Run

/-! ### A lock that nobody will release -/

/-- The goroutine of the `removeConn` will still release the lock that its helper takes. -/
def Attends (x : Remover) : Prop := x.pc = .selecting ∨ x.pc = .removing

/-- The goroutine that is to release the lock of this owner has neither given up nor finished. A
user releases `s.mu` itself; for a helper the goroutine that waits for `lockAcquired` does. -/
def Responsible (s : ConnState) : MuOwner → Prop
  | .helper r => ∃ x ∈ s.removers[r]?, Attends x
  | .user i => ∃ u ∈ s.users[i]?, u.pc = .holding

def Orphaned (s : ConnState) : Prop := ∃ o, s.mu.Held o ∧ ¬Responsible s o

def Abandoned (x : Remover) : Prop := x.helper = .acquired ∧ ¬Attends x

def Stranded (s : ConnState) (r : Nat) : Prop := ∃ x ∈ s.removers[r]?, Abandoned x

/-- The timer's branch is taken only while the helper does not have the lock, and the helper takes
the lock only while it is awaited. -/
def KeepsMutex (s : ConnState) : ConnAction → Prop
  | .timeout r => ∀ x ∈ s.removers[r]?, x.helper ≠ .acquired
  | .helperLock r => ∀ x ∈ s.removers[r]?, Attends x
  | _ => True

lemma stranded_helper {s : ConnState} (hs : MuAgrees s) {r : Nat} :
    Stranded s r ↔ s.mu.Held (.helper r) ∧ ¬Responsible s (.helper r) := by
  rw [RWLock.Agrees.held_iff hs]
  simp only [WriteHolder, ReadHolder, Responsible, Stranded, Abandoned, or_false]
  cases s.removers[r]? with
  | none => simp
  | some x => simp

lemma responsible_user {s : ConnState} (hs : MuAgrees s) {i : Nat} (h : s.mu.Held (.user i)) :
    Responsible s (.user i) := by
  obtain ⟨u, hu, hpc, -⟩ | ⟨u, hu, hpc, -⟩ := (RWLock.Agrees.held_iff hs).mp h
  · exact ⟨u, hu, hpc⟩
  · exact ⟨u, hu, hpc⟩

lemma orphaned_iff {s : ConnState} (hs : MuAgrees s) : Orphaned s ↔ ∃ r, Stranded s r := by
  constructor
  · rintro ⟨o, hheld, hresp⟩
    cases o with
    | helper r => exact ⟨r, (stranded_helper hs).mpr ⟨hheld, hresp⟩⟩
    | user i => exact absurd (responsible_user hs hheld) hresp
  · rintro ⟨r, hr⟩
    exact ⟨.helper r, (stranded_helper hs).mp hr⟩

section Set

variable {s t : ConnState} {r : Nat} {x y : Remover}

lemma stranded_set_iff (hr : s.removers[r]? = some x) (ht : t.removers = s.removers.set r y)
    (q : Nat) : Stranded t q ↔ q = r ∧ Abandoned y ∨ q ≠ r ∧ Stranded s q := by
  unfold Stranded
  rw [ht]
  exact exists_mem_getElem?_set hr Abandoned q

lemma stranded_self (hr : s.removers[r]? = some x) : Stranded s r ↔ Abandoned x := by
  simp [Stranded, hr]

/-- A remover that moves on and is abandoned neither before nor after, or both. -/
lemma stranded_set_same (hr : s.removers[r]? = some x) (hxy : Abandoned y ↔ Abandoned x)
    (ht : t.removers = s.removers.set r y) (q : Nat) : Stranded t q ↔ Stranded s q := by
  rw [stranded_set_iff hr ht]
  by_cases hq : q = r
  · rw [hq, stranded_self hr, hxy]
    simp
  · simp [hq]

lemma stranded_set_new (hr : s.removers[r]? = some x) (hx : ¬Abandoned x)
    (ht : t.removers = s.removers.set r y) :
    (∀ q, Stranded s q → Stranded t q) ∧
      ((∃ q, Stranded t q) ↔ Abandoned y ∨ ∃ q, Stranded s q) := by
  have hset := stranded_set_iff hr ht
  have hkept : ∀ q, Stranded s q → Stranded t q := by
    intro q hq
    have hqr : q ≠ r := by
      rintro rfl
      exact hx ((stranded_self hr).mp hq)
    exact (hset q).mpr (.inr ⟨hqr, hq⟩)
  refine ⟨hkept, ?_, ?_⟩
  · rintro ⟨q, hq⟩
    rcases (hset q).mp hq with ⟨-, hy⟩ | ⟨-, hold⟩
    · exact .inl hy
    · exact .inr ⟨q, hold⟩
  · rintro (hy | ⟨q, hq⟩)
    · exact ⟨r, (hset r).mpr (.inl ⟨rfl, hy⟩)⟩
    · exact ⟨q, hkept q hq⟩

end Set

section Orphan

variable {E : Env} {P : Proto V T} {S : Server V T} {c : ∀ md, EncodeChoice md}
  {s t : ConnState} {a : ConnAction}

/-- A stranded lock stays so, and a step strands one exactly if it is not allowed. -/
lemma connStep_stranded (h : connStep E P S c s a = some t) :
    (∀ q, Stranded s q → Stranded t q) ∧
      ((∃ q, Stranded t q) ↔ ¬KeepsMutex s a ∨ ∃ q, Stranded s q) := by
  -- the steps that leave the removers as they are, or only add one
  have hsame : (∀ q, Stranded t q ↔ Stranded s q) → KeepsMutex s a →
      (∀ q, Stranded s q → Stranded t q) ∧
        ((∃ q, Stranded t q) ↔ ¬KeepsMutex s a ∨ ∃ q, Stranded s q) := by
    intro hiff hk
    refine ⟨fun q => (hiff q).mpr, ?_⟩
    simp only [hiff, hk, not_true, false_or]
  cases connStep_move h with
  | request _ _ => exact hsame (fun q => Iff.rfl) trivial
  | start => exact hsame (fun q => Iff.rfl) trivial
  | lock _ _ => exact hsame (fun q => Iff.rfl) trivial
  | @unlock i use _ =>
    refine hsame (fun q => ?_) trivial
    unfold Stranded
    rw [leave_removers]
  | removeConn =>
    exact hsame (exists_mem_getElem?_concat (by simp [Abandoned])) trivial
  | @helperLock r conn pc mu hr hmu =>
    have hk : ¬KeepsMutex s (.helperLock r) ↔ Abandoned ⟨conn, .acquired, pc⟩ := by
      simp [KeepsMutex, hr, Abandoned, Attends]
    rw [hk]
    exact stranded_set_new hr (by simp [Abandoned]) rfl
  | @timeout r conn helper hr =>
    have hk : ¬KeepsMutex s (.timeout r) ↔ Abandoned ⟨conn, helper, .cleaning⟩ := by
      simp [KeepsMutex, hr, Abandoned, Attends]
    rw [hk]
    exact stranded_set_new hr (by simp [Abandoned, Attends]) rfl
  | lockAcquired hr => exact hsame (stranded_set_same hr (by simp [Abandoned, Attends]) rfl) trivial
  | remove hr => exact hsame (stranded_set_same hr (by simp [Abandoned, Attends]) rfl) trivial
  | deleteMutex hr _ => exact hsame (stranded_set_same hr (by simp [Abandoned, Attends]) rfl) trivial
  | close hr _ => exact hsame (stranded_set_same hr (by simp [Abandoned, Attends]) rfl) trivial

end Orphan

instance (x : Remover) : Decidable (Attends x) := inferInstanceAs (Decidable (_ ∨ _))

instance (s : ConnState) : ∀ a, Decidable (KeepsMutex s a)
  | .timeout r => inferInstanceAs (Decidable (∀ x ∈ s.removers[r]?, x.helper ≠ .acquired))
  | .helperLock r => inferInstanceAs (Decidable (∀ x ∈ s.removers[r]?, Attends x))
  | .request _ | .start _ | .lock _ | .unlock _ | .removeConn _ | .lockAcquired _ | .remove _
  | .deleteMutex _ | .close _ => isTrue trivial

section Runs

variable (E : Env) (P : Proto V T) (S : Server V T) (c : ∀ md, EncodeChoice md)

lemma muAgrees_init : MuAgrees .init := by
  refine ⟨fun o => ?_, fun o => ?_, List.nodup_nil⟩
  · cases o <;> simp [ConnState.init, RWLock.free, WriteHolder]
  · cases o <;> simp [ConnState.init, RWLock.free, ReadHolder]

lemma muAgrees_of_run {as : List ConnAction} {s : ConnState}
    (h : exec (connStep E P S c) .init as = some s) : MuAgrees s :=
  exec_invariant MuAgrees (fun _ _ _ hs ht => connStep_muAgrees hs ht) muAgrees_init h

/-- Once `s.mu` is held for a helper that nobody attends to, it is held by that helper ever
after. -/
theorem orphaned_forever {as bs : List ConnAction} {s t : ConnState}
    (hs : exec (connStep E P S c) .init as = some s) (ho : Orphaned s)
    (ht : exec (connStep E P S c) s bs = some t) :
    ∃ r, s.mu.writer = some (.helper r) ∧ t.mu.writer = some (.helper r) ∧ Orphaned t := by
  have hagree := muAgrees_of_run E P S c hs
  have hagree' : MuAgrees t :=
    exec_invariant MuAgrees (fun _ _ _ hs ht => connStep_muAgrees hs ht) hagree ht
  obtain ⟨r, hr⟩ := (orphaned_iff hagree).mp ho
  have hr' : Stranded t r := exec_invariant (fun s => Stranded s r)
    (fun _ _ _ hs ht => (connStep_stranded ht).1 r hs) hr ht
  have hholds : ∀ {s : ConnState}, MuAgrees s → Stranded s r → s.mu.writer = some (.helper r) := by
    rintro s hagree ⟨x, hx, hacq, -⟩
    exact (hagree.writer (.helper r)).mpr ⟨x, hx, hacq⟩
  exact ⟨r, hholds hagree hr, hholds hagree' hr', (orphaned_iff hagree').mpr ⟨r, hr'⟩⟩

/-- A run of `removeConn` calls and the other users of `s.mu` ends in a state in which the mutex is
not orphaned if and only if no step of it takes the timer's branch of a `removeConn` whose helper
has the lock, and no helper takes the lock after its `removeConn` has given up. -/
theorem mutex_not_orphaned_iff (as : List ConnAction) (s : ConnState)
    (h : exec (connStep E P S c) .init as = some s) :
    ¬Orphaned s ↔ Guarded (connStep E P S c) KeepsMutex .init as := by
  rw [orphaned_iff (muAgrees_of_run E P S c h)]
  refine exec_good_iff_guarded (fun s => ¬∃ r, Stranded s r) (fun s a t hst ht hs => ?_)
    (fun s a t hs hst => ?_) (by simp [Stranded, ConnState.init]) h
  · exact ht ((connStep_stranded hst).2.mpr (.inr hs))
  · rw [(connStep_stranded hst).2, or_iff_left hs, not_not]

end Runs

/-- A connection is accepted, and its `removeConn` starts while a batch of `quickScaleUp` holds
`s.mu`. -/
def removalDuringScaleUp (rest : List ConnAction) : List ConnAction :=
  [.start (.accept 0), .lock 0, .unlock 0, .start .createWorkers, .lock 1, .removeConn 0] ++ rest

/-- The batch is over before the timer fires. -/
theorem mutex_not_orphaned_sample : ∃ s,
    exec (connStep storedEnv bytesProto (echoServer plainOption) .plain) .init
      (removalDuringScaleUp
        [.unlock 1, .helperLock 0, .lockAcquired 0, .remove 0, .deleteMutex 0, .close 0]) = some s ∧
    ¬Orphaned s :=
  ⟨_, rfl, (mutex_not_orphaned_iff storedEnv bytesProto (echoServer plainOption) .plain
    (removalDuringScaleUp
      [.unlock 1, .helperLock 0, .lockAcquired 0, .remove 0, .deleteMutex 0, .close 0])
    _ rfl).mpr (by decide)⟩

/-- The timer fires before the batch is over, and the helper gets a lock that nobody releases. -/
theorem mutex_orphaned : ∃ s,
    exec (connStep storedEnv bytesProto (echoServer plainOption) .plain) .init
      (removalDuringScaleUp
        [.timeout 0, .deleteMutex 0, .close 0, .unlock 1, .helperLock 0]) = some s ∧
    Orphaned s := by
  refine ⟨_, rfl, .helper 0, .inl rfl, ?_⟩
  rintro ⟨x, hx, hattends⟩
  cases hx
  rcases hattends with hpc | hpc <;> cases hpc

end Zrpc.Proofs
