import Zrpc.Proofs.ConnRemoval
import Zrpc.Proofs.ServerWrite

/-!
# The mutex of a connection

The goroutines that write on a connection share one mutex, and its entry is gone after
`removeConn`, as long as each of them has asked for the mutex before `removeConn` deletes it.
-/

namespace Zrpc.Proofs

open Zrpc.Lib

variable {V T : Type}

/-- The mutex a goroutine has got from `getConnMutex` and not released. -/
def mutexOf (w : FrameWriter) : Option Nat :=
  match w.pc with
  | .waiting mu | .locked mu | .written mu => some mu
  | .encoded | .finished => none

/-- The mutex a goroutine has locked. -/
def heldMutex (w : FrameWriter) : Option Nat :=
  match w.pc with
  | .locked mu | .written mu => some mu
  | .encoded | .waiting _ | .finished => none

lemma mem_mutexOf {w : FrameWriter} {mu : Nat} (h : mu ∈ heldMutex w) : mu ∈ mutexOf w := by
  unfold heldMutex at h
  unfold mutexOf
  split at h
  · rename_i hpc
    rw [hpc]
    exact h
  · rename_i hpc
    rw [hpc]
    exact h
  all_goals cases h

/-! ### One mutex for each connection -/

/-- `m` is the only mutex that goroutines of the connection have got; it is the connection's entry
until the entry is deleted for good. -/
structure OneMutex (s : WriteState) (deleted : Prop) (conn : Nat) (m : Option Nat) : Prop where
  mutex : ∀ w ∈ s.writers, w.conn = conn → ∀ mu ∈ mutexOf w, m = some mu
  gone : deleted → s.connMutexes.lookup conn = none
  entry : ¬deleted → s.connMutexes.lookup conn = m

section OneMutex

variable {s r t : WriteState} {d : Prop} {conn i : Nat} {m : Option Nat} {w : FrameWriter}
  {pc : WriterPc}

lemma OneMutex.setPc (h : OneMutex s d conn m) (hr : r.writers = s.writers)
    (hlookup : r.connMutexes.lookup conn = s.connMutexes.lookup conn)
    (hpc : w.conn = conn → ∀ mu ∈ mutexOf { w with pc := pc }, m = some mu) :
    OneMutex (r.setPc i w pc) d conn m := by
  refine ⟨fun v hv hconn mu hmu => ?_, fun hd => hlookup.trans (h.gone hd),
    fun hd => hlookup.trans (h.entry hd)⟩
  rcases List.mem_or_eq_of_mem_set hv with hold | rfl
  · exact h.mutex v (hr ▸ hold) hconn mu hmu
  · exact hpc hconn mu hmu

/-- A goroutine that keeps its mutex or releases it. -/
lemma OneMutex.turn (h : OneMutex s d conn m) (hr : r.writers = s.writers)
    (hlookup : r.connMutexes = s.connMutexes) (hw : s.writers[i]? = some w)
    (hpc : ∀ mu ∈ mutexOf { w with pc := pc }, mu ∈ mutexOf w) :
    OneMutex (r.setPc i w pc) d conn m :=
  h.setPc hr (hlookup ▸ rfl) fun hconn mu hmu =>
    h.mutex w (List.mem_of_getElem? hw) hconn mu (hpc mu hmu)

lemma OneMutex.request {E : Env} {a : WriteAction} (h : OneMutex s d conn m)
    (hmove : WriterMove E s a t)
    (ha : a.isRequest = true)
    (hok : ∀ i w, a = .getConnMutex i → s.writers[i]? = some w → w.conn = conn → ¬d) :
    ∃ m', OneMutex t d conn m' := by
  cases hmove with
  | spawn _ _ =>
    refine ⟨m, fun w hw hconn mu hmu => ?_, h.gone, h.entry⟩
    rcases List.mem_append.mp hw with hold | hnew
    · exact h.mutex w hold hconn mu hmu
    · obtain ⟨sent, -, rfl⟩ := List.mem_map.mp hnew
      cases hmu
  | @take i w mu hw hpc hmu =>
    refine ⟨m, h.setPc rfl rfl fun hconn mu' hmu' => ?_⟩
    have hentry := h.entry (hok i w rfl hw hconn)
    rw [← hentry, ← hconn, hmu]
    exact hmu'
  | @make i w hw hpc hnone =>
    by_cases hconn : w.conn = conn
    · have hd := hok i w rfl hw hconn
      have hm : m = none := by rw [← h.entry hd, ← hconn, hnone]
      refine ⟨some s.mutexes.length, fun v hv hv' mu hmu => ?_, fun hd' => absurd hd' hd, fun _ => ?_⟩
      · rcases List.mem_or_eq_of_mem_set hv with hold | rfl
        · have hsome := h.mutex v hold hv' mu hmu
          rw [hm] at hsome
          cases hsome
        · exact hmu
      · rw [← hconn]
        exact AList.lookup_insert _
    · exact ⟨m, h.setPc rfl (AList.lookup_insert_ne (Ne.symm hconn)) fun hc => absurd hc hconn⟩
  | lock hw hpc _ => exact ⟨m, h.turn rfl rfl hw (by simp [mutexOf, hpc])⟩
  | @write i count w mu hw hpc _ =>
    have hturn : OneMutex (s.setPc i w (.written mu)) d conn m :=
      h.turn rfl rfl hw (by simp [mutexOf, hpc])
    exact ⟨m, hturn.mutex, hturn.gone, hturn.entry⟩
  | unlock hw hpc => exact ⟨m, h.turn rfl rfl hw (by simp [mutexOf])⟩
  | dropMutex => cases ha
  | close => cases ha

end OneMutex

/-- The `removeConn` of the connection has deleted the connection's mutex. -/
def Deleted (s : ConnState) (conn : Nat) : Prop :=
  ∃ x ∈ s.removers, x.conn = conn ∧ (x.pc = .closing ∨ x.pc = .finished)

/-- A goroutine asks for the mutex of a connection only while `removeConn` has not deleted it. -/
def MutexBeforeRemoval (s : ConnState) : ConnAction → Prop
  | .request (.getConnMutex i) => ∀ w ∈ s.writes.writers[i]?, ¬Deleted s w.conn
  | _ => True

section Removal

variable {E : Env} {P : Proto V T} {S : Server V T} {c : ∀ md, EncodeChoice md}
  {s t : ConnState} {a : ConnAction}

lemma deleted_set {conn r : Nat} {x y : Remover} (hr : s.removers[r]? = some x)
    (ht : t.removers = s.removers.set r y) (hconn : y.conn = x.conn)
    (hpc : y.pc = .closing ∨ y.pc = .finished ↔ x.pc = .closing ∨ x.pc = .finished) :
    Deleted t conn ↔ Deleted s conn := by
  unfold Deleted
  rw [ht, exists_mem_set hr (by rw [hconn, hpc]; exact id), hconn, hpc]
  refine or_iff_right_of_imp fun hx => ⟨x, List.mem_of_getElem? hr, hx⟩

lemma connStep_oneMutex (hs : ∀ conn, ∃ m, OneMutex s.writes (Deleted s conn) conn m)
    (hok : MutexBeforeRemoval s a) (h : connStep E P S c s a = some t) (conn : Nat) :
    ∃ m, OneMutex t.writes (Deleted t conn) conn m := by
  obtain ⟨m, hm⟩ := hs conn
  -- the steps that leave the connections' mutexes and their goroutines as they are
  have hsame : t.writes.writers = s.writes.writers → t.writes.connMutexes = s.writes.connMutexes →
      (Deleted t conn ↔ Deleted s conn) → ∃ m, OneMutex t.writes (Deleted t conn) conn m := by
    intro hwriters hlookup hdel
    refine ⟨m, ?_, ?_, ?_⟩
    · rw [hwriters]
      exact hm.mutex
    · rw [hlookup, hdel]
      exact hm.gone
    · rw [hlookup, hdel]
      exact hm.entry
  cases connStep_move h with
  | @request a writes ha hw =>
    refine hm.request (writeStep_move hw) ha fun i w ha hi hconn => ?_
    subst ha
    exact hconn ▸ hok w hi
  | start => exact hsame rfl rfl Iff.rfl
  | lock _ _ => exact hsame rfl rfl Iff.rfl
  | @unlock i use hu =>
    have hdel : Deleted (s.leave i use) conn ↔ Deleted s conn := by
      unfold Deleted
      rw [leave_removers]
    rcases leave_writes s i use with hwrites | ⟨closed, hwrites⟩
    · exact hsame (by rw [hwrites]) (by rw [hwrites]) hdel
    · exact hsame (by rw [hwrites]) (by rw [hwrites]) hdel
  | removeConn =>
    refine hsame rfl rfl ?_
    simp [Deleted]
  | helperLock hr _ => exact hsame rfl rfl (deleted_set hr rfl rfl (by simp))
  | lockAcquired hr => exact hsame rfl rfl (deleted_set hr rfl rfl (by simp))
  | timeout hr => exact hsame rfl rfl (deleted_set hr rfl rfl (by simp))
  | remove hr => exact hsame rfl rfl (deleted_set hr rfl rfl (by simp))
  | @deleteMutex r conn' helper writes hr hw =>
    cases hw
    have hdel : ∀ writes, Deleted ({ s with writes := writes }.setRemover r
        ⟨conn', helper, .closing⟩) conn ↔ conn' = conn ∨ Deleted s conn := by
      intro writes
      refine (exists_mem_set hr (by simp)).trans ?_
      simp [Deleted]
    rw [hdel]
    refine ⟨m, hm.mutex, fun hd => ?_, fun hd => ?_⟩
    · by_cases hconn : conn = conn'
      · rw [hconn]
        exact AList.lookup_erase _ _
      · exact (AList.lookup_erase_ne hconn).trans (hm.gone (hd.resolve_left (Ne.symm hconn)))
    · obtain ⟨hconn, hd⟩ := not_or.mp hd
      exact (AList.lookup_erase_ne (Ne.symm hconn)).trans (hm.entry hd)
  | @close r conn' helper writes hr hw =>
    cases hw
    exact hsame rfl rfl (deleted_set hr rfl rfl (by simp))

end Removal

/-! ### A mutex has one holder -/

/-- Every mutex in use has been made, and one that a goroutine holds is locked and held by no
other. -/
structure MutexesLocked (s : WriteState) : Prop where
  entry : ∀ conn, ∀ mu ∈ s.connMutexes.lookup conn, mu < s.mutexes.length
  made : ∀ w ∈ s.writers, ∀ mu ∈ mutexOf w, mu < s.mutexes.length
  held : ∀ w ∈ s.writers, ∀ mu ∈ heldMutex w, s.mutexes[mu]? = some true
  alone : ∀ (i j : Nat) (w v : FrameWriter), s.writers[i]? = some w → s.writers[j]? = some v →
    ∀ mu, mu ∈ heldMutex w → mu ∈ heldMutex v → i = j

section Locked

variable {s r t : WriteState} {i : Nat} {w : FrameWriter} {pc : WriterPc}

/-- Goroutine `i` moves on: what it holds then is locked and held by no other goroutine, and what
the others hold is still locked. -/
lemma MutexesLocked.turn (h : MutexesLocked s) (hr : r.writers = s.writers)
    (hlen : s.mutexes.length ≤ r.mutexes.length)
    (hentry : ∀ conn, ∀ mu ∈ r.connMutexes.lookup conn, mu < r.mutexes.length)
    (hmade : ∀ mu ∈ mutexOf { w with pc := pc }, mu < r.mutexes.length)
    (hheld : ∀ mu ∈ heldMutex { w with pc := pc }, r.mutexes[mu]? = some true ∧
      ∀ (j : Nat) (v : FrameWriter), j ≠ i → s.writers[j]? = some v → mu ∉ heldMutex v)
    (hkept : ∀ (j : Nat) (v : FrameWriter), j ≠ i → s.writers[j]? = some v → ∀ mu ∈ heldMutex v,
      r.mutexes[mu]? = some true) :
    MutexesLocked (r.setPc i w pc) := by
  refine ⟨hentry, fun v hv mu hmu => ?_, fun v hv mu hmu => ?_, ?_⟩
  · rcases List.mem_or_eq_of_mem_set hv with hold | rfl
    · exact (h.made v (hr ▸ hold) mu hmu).trans_le hlen
    · exact hmade mu hmu
  · obtain ⟨j, hj⟩ := List.mem_iff_getElem?.mp hv
    rcases getElem?_set_cases hj with ⟨-, rfl⟩ | ⟨hij, hold⟩
    · exact (hheld mu hmu).1
    · exact hkept j v (Ne.symm hij) (hr ▸ hold) mu hmu
  · intro j k u v hj hk mu hu hv
    rcases getElem?_set_cases hj with ⟨hij, rfl⟩ | ⟨hij, hju⟩
    · rcases getElem?_set_cases hk with ⟨hik, -⟩ | ⟨hik, hkv⟩
      · exact hij.symm.trans hik
      · exact absurd hv ((hheld mu hu).2 k v (Ne.symm hik) (hr ▸ hkv))
    · rcases getElem?_set_cases hk with ⟨-, rfl⟩ | ⟨-, hkv⟩
      · exact absurd hu ((hheld mu hv).2 j u (Ne.symm hij) (hr ▸ hju))
      · exact h.alone j k u v (hr ▸ hju) (hr ▸ hkv) mu hu hv

lemma MutexesLocked.others (h : MutexesLocked s) {j : Nat} {v : FrameWriter}
    (hv : s.writers[j]? = some v) {mu : Nat} (hmu : mu ∈ heldMutex v) : s.mutexes[mu]? = some true :=
  h.held v (List.mem_of_getElem? hv) mu hmu

/-- New goroutines have no mutex yet. -/
lemma MutexesLocked.spawn (h : MutexesLocked s) (conn : Nat) (sent : List Sent) :
    MutexesLocked (s.spawn conn sent) := by
  have hold : ∀ (j : Nat) (v : FrameWriter), (s.spawn conn sent).writers[j]? = some v →
      ∀ mu ∈ mutexOf v, s.writers[j]? = some v := by
    intro j v hv mu hmu
    rw [WriteState.spawn, List.getElem?_append] at hv
    split at hv
    · exact hv
    · obtain ⟨m, -, rfl⟩ := List.mem_map.mp (List.mem_of_getElem? hv)
      cases hmu
  refine ⟨h.entry, fun v hv mu hmu => ?_, fun v hv mu hmu => ?_, fun j k u v hj hk mu hu hv => ?_⟩
  · obtain ⟨j, hj⟩ := List.mem_iff_getElem?.mp hv
    exact h.made v (List.mem_of_getElem? (hold j v hj mu hmu)) mu hmu
  · obtain ⟨j, hj⟩ := List.mem_iff_getElem?.mp hv
    exact h.others (hold j v hj mu (mem_mutexOf hmu)) hmu
  · have huj := hold j u hj mu (mem_mutexOf hu)
    have hvk := hold k v hk mu (mem_mutexOf hv)
    exact h.alone j k u v huj hvk mu hu hv

/-- The first goroutine of a connection makes the connection's mutex. -/
lemma MutexesLocked.make (h : MutexesLocked s) :
    MutexesLocked ({ s with
      connMutexes := s.connMutexes.insert w.conn s.mutexes.length
      mutexes := s.mutexes ++ [false] }.setPc i w (.waiting s.mutexes.length)) := by
  have hlen : s.mutexes.length < (s.mutexes ++ [false]).length := by simp
  refine h.turn rfl hlen.le (fun conn mu hmu => ?_) (fun mu hmu => ?_) (by simp [heldMutex])
    (fun j v _ hv mu hmu => ?_)
  · by_cases hconn : conn = w.conn
    · rw [hconn, AList.lookup_insert] at hmu
      cases hmu
      exact hlen
    · rw [AList.lookup_insert_ne hconn] at hmu
      exact (h.entry conn mu hmu).trans hlen
  · cases hmu
    exact hlen
  · have hmade := h.made v (List.mem_of_getElem? hv) mu (mem_mutexOf hmu)
    exact (List.getElem?_append_left hmade).trans (h.others hv hmu)

/-- Goroutine `i` locks or unlocks a mutex that no other goroutine holds. -/
lemma MutexesLocked.set (h : MutexesLocked s) {mu : Nat} {b : Bool} (hmu : mu < s.mutexes.length)
    (hfree : ∀ (j : Nat) (v : FrameWriter), j ≠ i → s.writers[j]? = some v → mu ∉ heldMutex v)
    (hmade : ∀ mu' ∈ mutexOf { w with pc := pc }, mu' = mu)
    (hheld : ∀ mu' ∈ heldMutex { w with pc := pc }, b = true) :
    MutexesLocked ({ s with mutexes := s.mutexes.set mu b }.setPc i w pc) := by
  have hlen : (s.mutexes.set mu b).length = s.mutexes.length := List.length_set
  refine h.turn rfl hlen.ge (fun conn mu' hmu' => ?_) (fun mu' hmu' => ?_) (fun mu' hmu' => ?_)
    (fun j v hji hv mu' hmu' => ?_)
  · exact (h.entry conn mu' hmu').trans_eq hlen.symm
  · rw [hmade mu' hmu']
    exact hmu.trans_eq hlen.symm
  · rw [hmade mu' (mem_mutexOf hmu'), ← hheld mu' hmu']
    exact ⟨List.getElem?_set_self hmu, hfree⟩
  · have hne : mu ≠ mu' := by
      rintro rfl
      exact hfree j v hji hv hmu'
    exact (List.getElem?_set_ne hne).trans (h.others hv hmu')

lemma MutexesLocked.move {E : Env} {a : WriteAction} (h : MutexesLocked s)
    (hmove : WriterMove E s a t) : MutexesLocked t := by
  have hmade : ∀ {i : Nat} {w : FrameWriter}, s.writers[i]? = some w → ∀ mu ∈ mutexOf w,
      mu < s.mutexes.length :=
    fun hw => h.made _ (List.mem_of_getElem? hw)
  cases hmove with
  | spawn _ _ => exact h.spawn _ _
  | @take i w mu hw hpc hmu =>
    refine h.turn rfl le_rfl h.entry (fun mu' hmu' => ?_) (by simp [heldMutex])
      (fun j v _ hv mu' hmu' => h.others hv hmu')
    cases hmu'
    exact h.entry w.conn mu hmu
  | make _ _ _ => exact h.make
  | @lock i w mu hw hpc hfree =>
    refine h.set (hmade hw mu (by simp [mutexOf, hpc])) (fun j v _ hv hmu => ?_) (by simp [mutexOf])
      (by simp)
    have htrue := h.others hv hmu
    rw [hfree] at htrue
    cases htrue
  | @write i count w mu hw hpc _ =>
    have hmem : mu ∈ heldMutex w := by simp [heldMutex, hpc]
    have hturn : MutexesLocked (s.setPc i w (.written mu)) := by
      refine h.turn rfl le_rfl h.entry (fun mu' hmu' => ?_) (fun mu' hmu' => ?_)
        (fun j v _ hv mu' hmu' => h.others hv hmu')
      · cases hmu'
        exact hmade hw mu (mem_mutexOf hmem)
      · cases hmu'
        refine ⟨h.others hw hmem, fun j v hji hv hmu => ?_⟩
        exact hji (h.alone j i v w hv hw mu hmu hmem)
    exact ⟨hturn.entry, hturn.made, hturn.held, hturn.alone⟩
  | @unlock i w mu hw hpc =>
    have hmem : mu ∈ heldMutex w := by simp [heldMutex, hpc]
    refine h.set (hmade hw mu (mem_mutexOf hmem)) (fun j v hji hv hmu => ?_) (by simp [mutexOf])
      (by simp [heldMutex])
    exact hji (h.alone j i v w hv hw mu hmu hmem)
  | @dropMutex conn =>
    refine ⟨fun conn' mu hmu => ?_, h.made, h.held, h.alone⟩
    by_cases hconn : conn' = conn
    · rw [hconn, AList.lookup_erase] at hmu
      cases hmu
    · rw [AList.lookup_erase_ne hconn] at hmu
      exact h.entry conn' mu hmu
  | close => exact ⟨h.entry, h.made, h.held, h.alone⟩

end Locked

/-! ### Whole runs -/

section Runs

variable {E : Env} {P : Proto V T} {S : Server V T} {c : ∀ md, EncodeChoice md}

lemma connStep_writes {s t : ConnState} {a : ConnAction} (h : connStep E P S c s a = some t) :
    t.writes = s.writes ∨ ∃ b, writeStep E P S c s.writes b = some t.writes := by
  cases connStep_move h with
  | request _ hw => exact .inr ⟨_, hw⟩
  | @unlock i use _ =>
    rcases leave_writes s i use with hsame | ⟨conn, hclose⟩
    · exact .inl hsame
    · exact .inr ⟨.close conn, congrArg some hclose.symm⟩
  | deleteMutex _ hw => exact .inr ⟨_, hw⟩
  | close _ hw => exact .inr ⟨_, hw⟩
  | start | lock | removeConn | helperLock | lockAcquired | timeout | remove => exact .inl rfl

lemma mutexesLocked_of_run {as : List ConnAction} {s : ConnState}
    (h : exec (connStep E P S c) .init as = some s) : MutexesLocked s.writes := by
  obtain ⟨bs, hbs⟩ := exec_simulation ConnState.writes (fun _ _ _ ht => connStep_writes ht) h
  refine exec_invariant MutexesLocked (fun _ _ _ hs ht => hs.move (writeStep_move ht)) ?_ hbs
  constructor <;> simp [ConnState.init, WriteState.init]

lemma oneMutex_of_run {as : List ConnAction} {s : ConnState}
    (h : exec (connStep E P S c) .init as = some s)
    (hg : Guarded (connStep E P S c) MutexBeforeRemoval .init as) (conn : Nat) :
    ∃ m, OneMutex s.writes (Deleted s conn) conn m := by
  refine exec_invariant_guarded (fun s => ∀ conn, ∃ m, OneMutex s.writes (Deleted s conn) conn m)
    (fun s a t hs hok ht => connStep_oneMutex hs hok ht) (fun conn => ⟨none, ?_⟩) hg h conn
  constructor <;> simp [ConnState.init, WriteState.init, Deleted]

end Runs

/-- Goroutines that are writing on the connection at the same time hold one mutex. -/
def WritersShareMutex (s : ConnState) (conn : Nat) : Prop :=
  ∀ w ∈ s.writes.writers, ∀ v ∈ s.writes.writers, w.conn = conn → v.conn = conn →
    ∀ mu ∈ heldMutex w, ∀ mu' ∈ heldMutex v, mu = mu'

/-- Once the connection's `removeConn` and all its request goroutines have finished, it has no
mutex. -/
def MutexCleanedUp (s : ConnState) (conn : Nat) : Prop :=
  (∃ x ∈ s.removers, x.conn = conn ∧ x.pc = .finished) →
    (∀ w ∈ s.writes.writers, w.conn = conn → w.pc = .finished) →
    s.writes.connMutexes.lookup conn = none

section Results

variable (E : Env) (P : Proto V T) (S : Server V T) (c : ∀ md, EncodeChoice md)

/-- In every run in which each goroutine asks for the mutex of its connection before `removeConn`
deletes it, goroutines that write on a connection at the same time hold the same mutex, and the
connection has no mutex any more when `removeConn` and its goroutines have finished. -/
theorem conn_mutexes_end_with_conn (as : List ConnAction) (s : ConnState)
    (h : exec (connStep E P S c) .init as = some s)
    (hg : Guarded (connStep E P S c) MutexBeforeRemoval .init as) (conn : Nat) :
    WritersShareMutex s conn ∧ MutexCleanedUp s conn := by
  obtain ⟨m, hm⟩ := oneMutex_of_run h hg conn
  constructor
  · intro w hw v hv hwc hvc mu hmu mu' hmu'
    have hwm := hm.mutex w hw hwc mu (mem_mutexOf hmu)
    have hvm := hm.mutex v hv hvc mu' (mem_mutexOf hmu')
    exact Option.some.inj (hwm.symm.trans hvm)
  · rintro ⟨x, hx, hconn, hpc⟩ -
    exact hm.gone ⟨x, hx, hconn, .inr hpc⟩

/-- In such a run at most one goroutine is writing on a connection. -/
theorem one_writer_on_conn (as : List ConnAction) (s : ConnState)
    (h : exec (connStep E P S c) .init as = some s)
    (hg : Guarded (connStep E P S c) MutexBeforeRemoval .init as)
    {i j : Nat} {w v : FrameWriter} (hi : s.writes.writers[i]? = some w)
    (hj : s.writes.writers[j]? = some v) (hconn : w.conn = v.conn)
    (hw : (heldMutex w).isSome) (hv : (heldMutex v).isSome) : i = j := by
  obtain ⟨m, hm⟩ := oneMutex_of_run h hg v.conn
  obtain ⟨mu, hmu⟩ := Option.isSome_iff_exists.mp hw
  obtain ⟨mu', hmu'⟩ := Option.isSome_iff_exists.mp hv
  have hwm := hm.mutex w (List.mem_of_getElem? hi) hconn mu (mem_mutexOf hmu)
  have hvm := hm.mutex v (List.mem_of_getElem? hj) rfl mu' (mem_mutexOf hmu')
  have hsame : mu = mu' := Option.some.inj (hwm.symm.trans hvm)
  exact (mutexesLocked_of_run h).alone i j w v hi hj mu hmu (hsame ▸ hmu')

end Results

instance (s : ConnState) (conn : Nat) : Decidable (Deleted s conn) :=
  inferInstanceAs (Decidable (∃ x ∈ s.removers, x.conn = conn ∧ (x.pc = .closing ∨ x.pc = .finished)))

instance (s : ConnState) : ∀ a, Decidable (MutexBeforeRemoval s a)
  | .request (.getConnMutex i) =>
    inferInstanceAs (Decidable (∀ w ∈ s.writes.writers[i]?, ¬Deleted s w.conn))
  | .request (.process _ _ _) | .request (.reject _ _ _) | .request (.lock _)
  | .request (.write _ _) | .request (.unlock _) | .request (.dropMutex _) | .request (.close _)
  | .start _ | .lock _ | .unlock _ | .removeConn _ | .helperLock _ | .lockAcquired _ | .timeout _
  | .remove _ | .deleteMutex _ | .close _ => isTrue trivial

/-- Two requests of a connection are answered, and the first goroutine is writing while `removeConn`
runs up to its deletion of the mutex. The second one asks for its mutex before that, or not. -/
def answersAndRemoval (before : List ConnAction) : List ConnAction :=
  [.start (.accept 0), .lock 0, .unlock 0, .request (.process 0 ⟨∅, none⟩ sampleRequest),
    .request (.process 0 ⟨∅, none⟩ sampleRequest), .request (.getConnMutex 0), .request (.lock 0)] ++
  before ++ [.removeConn 0, .helperLock 0, .lockAcquired 0, .remove 0, .deleteMutex 0]

/-- Both goroutines ask in time and answer; the mutex is gone with the connection. -/
def bothAnswered : List ConnAction :=
  answersAndRemoval [.request (.getConnMutex 1)] ++
    [.request (.write 0 49), .request (.unlock 0), .request (.lock 1), .request (.write 1 49),
      .request (.unlock 1), .close 0]

theorem conn_mutexes_end_bothAnswered : ∃ s,
    exec (connStep storedEnv bytesProto (echoServer plainOption) .plain) .init bothAnswered =
      some s ∧
    (∃ x ∈ s.removers, x.conn = 0 ∧ x.pc = .finished) ∧
    s.writes.writers.map (·.pc) = [.finished, .finished] ∧
    WritersShareMutex s 0 ∧ s.writes.connMutexes.lookup 0 = none := by
  refine ⟨_, rfl, ⟨_, .head _, rfl, rfl⟩, rfl, ?_⟩
  have h := conn_mutexes_end_with_conn storedEnv bytesProto (echoServer plainOption) .plain
    bothAnswered _ rfl (by decide) 0
  refine ⟨h.1, h.2 ⟨_, .head _, rfl, rfl⟩ fun w hw _ => ?_⟩
  cases hw with
  | head => rfl
  | tail _ hw =>
    cases hw with
    | head => rfl
    | tail _ hw => cases hw

/-- The second goroutine asks for its mutex too late: it gets another one than the first, and after
both have finished the connection that has been removed has a mutex. -/
theorem conn_mutex_outlives_conn : ∃ s t,
    exec (connStep storedEnv bytesProto (echoServer plainOption) .plain) .init
      (answersAndRemoval [] ++ [.request (.getConnMutex 1), .request (.lock 1)]) = some s ∧
    ¬WritersShareMutex s 0 ∧
    exec (connStep storedEnv bytesProto (echoServer plainOption) .plain) s
      [.request (.write 0 49), .request (.unlock 0), .close 0, .request (.write 1 0),
        .request (.unlock 1)] = some t ∧
    ¬MutexCleanedUp t 0 := by
  refine ⟨_, _, rfl, fun h => ?_, rfl, fun h => ?_⟩
  · have hsame := h _ (.head _) _ (.tail _ (.head _)) rfl rfl 0 rfl 1 rfl
    cases hsame
  · have hnone := h ⟨_, .head _, rfl, rfl⟩ (fun w hw _ => ?_)
    · cases hnone
    · cases hw with
      | head => rfl
      | tail _ hw =>
        cases hw with
        | head => rfl
        | tail _ hw => cases hw

end Zrpc.Proofs
