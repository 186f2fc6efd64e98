import Zrpc.Proofs.Answer
import Zrpc.Proofs.BufferPool
import Zrpc.SharedBuffers

/-!
# Goroutines do not mix their buffers

A buffer is in a pool once, or with one goroutine, and never both. So what a goroutine hands on is
what it has written, whatever the others do in between.
-/

namespace Zrpc.Proofs

open Zrpc.Lib

variable {V T : Type}

/-! ### The default pool -/

/-- No buffer is in the pool twice. -/
structure Once (h : Heap) : Prop where
  nodup : ∀ i, (h.pools i).Nodup
  apart : ∀ i j b, b ∈ h.pools i → b ∈ h.pools j → i = j

section Pool

variable {h : Heap}

lemma once_empty : Once Heap.empty := by
  constructor
  · intro i
    exact List.nodup_nil
  · intro i j b hb
    cases hb

lemma Once.alloc (ho : Once h) (hs : Stocked h) (cap : Nat) :
    Once (h.alloc cap).1 ∧ ¬Pooled (h.alloc cap).1 (h.alloc cap).2 := by
  refine ⟨⟨ho.nodup, ho.apart⟩, ?_⟩
  rintro ⟨k, hk⟩
  exact absurd (hs k _ hk).1 (lt_irrefl _)

lemma Once.takeFrom (ho : Once h) (hs : Stocked h) (i : Nat) (choice : Option Nat) :
    Once (h.takeFrom i choice).1 ∧ ¬Pooled (h.takeFrom i choice).1 (h.takeFrom i choice).2 := by
  unfold Heap.takeFrom
  split
  · next b hb =>
    obtain ⟨j, -, hj⟩ := Option.bind_eq_some_iff.mp hb
    have hmem : b ∈ h.pools i := List.mem_of_getElem? hj
    have hold : ∀ k c, c ∈ Function.update h.pools i ((h.pools i).erase b) k → c ∈ h.pools k := by
      intro k c hc
      by_cases hki : k = i
      · subst hki
        rw [Function.update_self] at hc
        exact List.mem_of_mem_erase hc
      · rwa [Function.update_of_ne hki] at hc
    refine ⟨⟨fun k => ?_, fun k l c hk hl => ho.apart k l c (hold k c hk) (hold l c hl)⟩, ?_⟩
    · by_cases hki : k = i
      · subst hki
        dsimp only
        rw [Function.update_self]
        exact (ho.nodup k).erase b
      · dsimp only
        rw [Function.update_of_ne hki]
        exact ho.nodup k
    · rintro ⟨k, hk⟩
      have hki : k = i := ho.apart k i b (hold k b hk) hmem
      dsimp only at hk
      rw [hki, Function.update_self] at hk
      exact (ho.nodup i).not_mem_erase hk
  · exact ho.alloc hs _

lemma Once.get (ho : Once h) (hs : Stocked h) {size b : Nat} {choice : Option Nat} {h' : Heap}
    (hget : h.get size choice = (h', .ok b)) : Once h' ∧ ¬Pooled h' b := by
  have hslice : ∀ i, Heap.reslice size (h.takeFrom i choice) = (h', .ok b) →
      Once h' ∧ ¬Pooled h' b := by
    intro i hi
    unfold Heap.reslice at hi
    obtain ⟨rfl, hok⟩ := Prod.mk.inj hi
    split at hok
    · cases hok
      exact ho.takeFrom hs i choice
    · cases hok
  unfold Heap.get at hget
  split at hget
  · cases hget
    exact ho.alloc hs 0
  · split at hget
    · exact hslice _ hget
    · split at hget
      · exact hslice _ hget
      · cases hget
        exact ho.alloc hs size

lemma Once.putInto (ho : Once h) {b : Nat} (hb : ¬Pooled h b) (i : Nat) : Once (h.putInto i b) := by
  have hcases : ∀ k c, c ∈ (h.putInto i b).pools k → (k = i ∧ c = b) ∨ c ∈ h.pools k := by
    intro k c hc
    simp only [Heap.putInto] at hc
    by_cases hki : k = i
    · subst hki
      rw [Function.update_self] at hc
      exact (List.mem_cons.mp hc).imp (fun he => ⟨rfl, he⟩) id
    · rw [Function.update_of_ne hki] at hc
      exact .inr hc
  constructor
  · intro k
    simp only [Heap.putInto]
    by_cases hki : k = i
    · subst hki
      rw [Function.update_self, List.nodup_cons]
      exact ⟨fun hmem => hb ⟨k, hmem⟩, ho.nodup k⟩
    · rw [Function.update_of_ne hki]
      exact ho.nodup k
  · intro k l c hk hl
    rcases hcases k c hk with ⟨rfl, rfl⟩ | hk' <;> rcases hcases l c hl with ⟨rfl, hcb⟩ | hl'
    · rfl
    · exact absurd ⟨l, hl'⟩ hb
    · exact absurd ⟨k, hcb ▸ hk'⟩ hb
    · exact ho.apart k l c hk' hl'

lemma Once.put (ho : Once h) {b : Nat} (hb : ¬Pooled h b) : Once (h.put b) := by
  unfold Heap.put
  dsimp only
  split
  · exact ho
  · split
    · exact ho.putInto hb _
    · exact ho.putInto hb _

end Pool

/-! ### Slots -/

/-- Both pools are in order. -/
structure PoolsOk (s : ShareState V) : Prop where
  stocked : Stocked s.heap
  once : Once s.heap
  small : s.smallBufferPool.Sound

/-- The buffer is in no pool, and has room for `n` bytes. -/
def OutOfPool (s : ShareState V) (n : Nat) : Slot → Prop
  | .block b => b < s.heap.blocks.length ∧ ¬Pooled s.heap b ∧ n ≤ capacity s.heap b ∧
      (capacity s.heap b = 0 ∨ 128 ≤ capacity s.heap b)
  | .small i => s.smallBufferPool.InUse i

/-- From `s` to `t` only the buffer `slot` is worked on. -/
structure WorksOn (s t : ShareState V) (slot : Slot) : Prop where
  pools : PoolsOk t
  users : t.users = s.users
  delivered : t.delivered = s.delivered
  panicked : t.panicked = s.panicked
  others : ∀ n other, other ≠ slot → OutOfPool s n other →
    OutOfPool t n other ∧ t.content other = s.content other

section Slots

variable {s : ShareState V}

lemma WorksOn.refl (hs : PoolsOk s) (slot : Slot) : WorksOn s s slot :=
  ⟨hs, rfl, rfl, rfl, fun _ _ _ ho => ⟨ho, rfl⟩⟩

/-- A step of the default pool alone. -/
lemma worksOn_heap (hs : PoolsOk s) {h' : Heap} {slot : Slot} (hstocked : Stocked h')
    (honce : Once h') (hblocks : ∀ n b, .block b ≠ slot → OutOfPool s n (.block b) →
      OutOfPool { s with heap := h' } n (.block b) ∧ h'.content b = s.heap.content b) :
    WorksOn s { s with heap := h' } slot := by
  refine ⟨⟨hstocked, honce, hs.small⟩, rfl, rfl, rfl, fun n other hne ho => ?_⟩
  cases other with
  | block b => exact hblocks n b hne ho
  | small i => exact ⟨ho, rfl⟩

/-- A step of `smallBufferPool` alone. -/
lemma worksOn_small (hs : PoolsOk s) {p : ObjectPool Bytes} {slot : Slot} (hsound : p.Sound)
    (hcells : ∀ i, .small i ≠ slot → s.smallBufferPool.InUse i →
      p.InUse i ∧ p.cells[i]? = s.smallBufferPool.cells[i]?) :
    WorksOn s { s with smallBufferPool := p } slot := by
  refine ⟨⟨hs.stocked, hs.once, hsound⟩, rfl, rfl, rfl, fun n other hne ho => ?_⟩
  cases other with
  | block b => exact ⟨ho, rfl⟩
  | small i =>
    obtain ⟨hin, hcell⟩ := hcells i hne ho
    exact ⟨hin, congrArg (Option.getD · []) hcell⟩

lemma get_outOfPool (hs : PoolsOk s) (u : PoolUser V) (choice : Option Nat) :
    ∃ t slot, s.get u choice = (t, .ok slot) ∧ WorksOn s t slot ∧
      OutOfPool t u.bytes.length slot ∧ ∀ n, ¬OutOfPool s n slot := by
  unfold ShareState.get
  split
  · refine ⟨_, _, rfl, worksOn_small hs (hs.small.get _ choice) ?_, hs.small.inUse_get _ choice,
      fun n => ObjectPool.not_inUse_get _ _ choice⟩
    intro i _ hin
    exact ⟨hin.get _ choice, ObjectPool.getElem?_get hin _ choice⟩
  · obtain ⟨h', b, hget, hd⟩ := get_delivers hs.stocked u.bytes.length choice
    obtain ⟨honce, hout⟩ := hs.once.get hs.stocked hget
    have hspec := getSpec_get s.heap u.bytes.length choice
    rw [hget] at hspec
    refine ⟨{ s with heap := h' }, .block b, ?_, worksOn_heap hs hd.stocked honce ?_,
      ⟨hd.valid, hout, hd.size_le, hd.pooled⟩, ?_⟩
    · rw [hget]
      rfl
    · rintro n c - ⟨hlt, hfree, hroom, hclass⟩
      have hsame := hspec.content c hlt
      have hcap : capacity h' c = capacity s.heap c := hd.old c hlt
      refine ⟨⟨hlt.trans_le hspec.length_le, fun hp => hfree (hspec.pooled c hp), ?_, ?_⟩, hsame⟩
      · exact hcap.symm ▸ hroom
      · exact hcap.symm ▸ hclass
    · rintro n ⟨hlt, hfree, -⟩
      rcases hspec.result b rfl with hp | ⟨rfl, -⟩
      · exact hfree hp
      · exact absurd hlt (lt_irrefl _)

lemma write_outOfPool (hs : PoolsOk s) {slot : Slot} {n offset : Nat} {bs : Bytes}
    (ho : OutOfPool s n slot) (hfit : offset + bs.length ≤ n) :
    WorksOn s (s.write slot offset bs) slot ∧ OutOfPool (s.write slot offset bs) n slot ∧
      (s.write slot offset bs).content slot = Heap.overwrite (s.content slot) offset bs := by
  cases slot with
  | block b =>
    obtain ⟨hlt, hfree, hroom, hclass⟩ := ho
    have hcap := capacity_write (hfit.trans hroom)
    have hout : ∀ m c, OutOfPool s m (.block c) → OutOfPool (s.write (.block b) offset bs) m (.block c) := by
      rintro m c ⟨hc, hcfree, hcroom, hcclass⟩
      exact ⟨(length_write s.heap b offset bs).symm ▸ hc, hcfree, (hcap c).symm ▸ hcroom,
        (hcap c).symm ▸ hcclass⟩
    refine ⟨worksOn_heap hs (hs.stocked.write (hfit.trans hroom)) ⟨hs.once.nodup, hs.once.apart⟩ ?_,
      hout n b ⟨hlt, hfree, hroom, hclass⟩, content_write_self s.heap offset bs hlt⟩
    intro m c hne hc
    have hcb : c ≠ b := fun he => hne (he ▸ rfl)
    exact ⟨hout m c hc, content_write_of_ne s.heap offset bs hcb⟩
  | small i =>
    refine ⟨worksOn_small hs (hs.small.set i _) ?_, ObjectPool.inUse_set.mpr ho, ?_⟩
    · intro j hne hj
      have hij : i ≠ j := fun he => hne (he ▸ rfl)
      exact ⟨ObjectPool.inUse_set.mpr hj, ObjectPool.getElem?_set_ne hij⟩
    · exact congrArg (Option.getD · []) (ObjectPool.getElem?_set_self ho)

lemma put_worksOn (hs : PoolsOk s) {slot : Slot} {n : Nat} (ho : OutOfPool s n slot) :
    WorksOn s (s.put slot) slot := by
  cases slot with
  | block b =>
    obtain ⟨hlt, hfree, -, hclass⟩ := ho
    refine worksOn_heap hs (hs.stocked.put hlt hclass) (hs.once.put hfree) ?_
    rintro m c hne ⟨hc, hcfree, hcroom, hcclass⟩
    have hblocks := blocks_put s.heap b
    have hsame : (s.heap.put b).content c = s.heap.content c := by
      unfold Heap.content
      rw [hblocks]
    have hcap : capacity (s.heap.put b) c = capacity s.heap c := congrArg List.length hsame
    refine ⟨⟨hblocks.symm ▸ hc, fun hp => ?_, hcap.symm ▸ hcroom, hcap.symm ▸ hcclass⟩, hsame⟩
    rcases pooled_put s.heap hp with hp | rfl
    · exact hcfree hp
    · exact hne rfl
  | small i =>
    refine worksOn_small hs (hs.small.put ho) fun j hne hj => ?_
    exact ⟨hj.put fun he => hne (he ▸ rfl), rfl⟩

end Slots

/-! ### The goroutines -/

/-- Each goroutine has its buffer to itself, and has written into it what it wants to hand on. -/
structure Isolated (E : Env) (P : Proto V T) (s : ShareState V) : Prop where
  pools : PoolsOk s
  running : s.panicked = false
  bytes : ∀ (i : Nat) (u : PoolUser V), s.users[i]? = some u → u.use.bytes E P = some u.bytes
  owned : ∀ (i : Nat) (u : PoolUser V) slot, s.users[i]? = some u → u.pc.slot = some slot →
    OutOfPool s u.bytes.length slot
  exclusive : ∀ (i j : Nat) (u v : PoolUser V) slot, s.users[i]? = some u → s.users[j]? = some v →
    u.pc.slot = some slot → v.pc.slot = some slot → i = j
  written : ∀ (i : Nat) (u : PoolUser V) slot done, s.users[i]? = some u →
    u.pc = .filling slot done →
      done ≤ u.bytes.length ∧ (s.content slot).take done = u.bytes.take done
  delivered : ∀ i data, (i, data) ∈ s.delivered →
    ∃ u, s.users[i]? = some u ∧ u.use.bytes E P = some data

section Run

variable {E : Env} {P : Proto V T} {s t : ShareState V} {i : Nat} {u : PoolUser V} {slot : Slot}

lemma isolated_init (E : Env) (P : Proto V T) : Isolated E P (ShareState.init : ShareState V) := by
  refine ⟨⟨stocked_empty, once_empty, ObjectPool.sound_empty⟩, rfl, ?_, ?_, ?_, ?_, ?_⟩ <;>
    simp [ShareState.init]

/-- Goroutine `i` works on a buffer that no other has, and goes on with it or without one. -/
lemma Isolated.move (hs : Isolated E P s) (hu : s.users[i]? = some u) (hw : WorksOn s t slot)
    (halone : ∀ (j : Nat) (v : PoolUser V), j ≠ i → s.users[j]? = some v → v.pc.slot ≠ some slot)
    (pc : WorkPc) (hpc : ∀ x, pc.slot = some x → x = slot ∧ OutOfPool t u.bytes.length slot)
    (hfill : ∀ x done, pc = .filling x done →
      done ≤ u.bytes.length ∧ (t.content x).take done = u.bytes.take done) :
    Isolated E P (t.setPc i u pc) := by
  have husers : (t.setPc i u pc).users = s.users.set i { u with pc := pc } := by
    rw [ShareState.setPc, hw.users]
  have hcases : ∀ (j : Nat) (v : PoolUser V), (t.setPc i u pc).users[j]? = some v →
      (j = i ∧ v = { u with pc := pc }) ∨ (j ≠ i ∧ s.users[j]? = some v) := by
    intro j v hv
    rw [husers] at hv
    exact (getElem?_set_cases hv).imp (fun h => ⟨h.1.symm, h.2⟩) fun h => ⟨Ne.symm h.1, h.2⟩
  refine ⟨⟨hw.pools.stocked, hw.pools.once, hw.pools.small⟩, hw.panicked.trans hs.running,
    ?_, ?_, ?_, ?_, ?_⟩
  · intro j v hv
    rcases hcases j v hv with ⟨-, rfl⟩ | ⟨-, hold⟩
    · exact hs.bytes i u hu
    · exact hs.bytes j v hold
  · intro j v x hv hx
    rcases hcases j v hv with ⟨-, rfl⟩ | ⟨hne, hold⟩
    · obtain ⟨rfl, hout⟩ := hpc x hx
      exact hout
    · have hxs : x ≠ slot := fun he => halone j v hne hold (he ▸ hx)
      exact (hw.others _ x hxs (hs.owned j v x hold hx)).1
  · intro j k v w x hv hw' hx hx'
    rcases hcases j v hv with ⟨rfl, rfl⟩ | ⟨hj, hold⟩ <;>
      rcases hcases k w hw' with ⟨rfl, rfl⟩ | ⟨hk, hold'⟩
    · rfl
    · obtain ⟨rfl, -⟩ := hpc x hx
      exact absurd hx' (halone k w hk hold')
    · obtain ⟨rfl, -⟩ := hpc x hx'
      exact absurd hx (halone j v hj hold)
    · exact hs.exclusive j k v w x hold hold' hx hx'
  · intro j v x done hv hx
    rcases hcases j v hv with ⟨-, rfl⟩ | ⟨hne, hold⟩
    · exact hfill x done hx
    · have hslot : v.pc.slot = some x := by rw [hx]; rfl
      have hxs : x ≠ slot := fun he => halone j v hne hold (he ▸ hslot)
      have hsame := (hw.others _ x hxs (hs.owned j v x hold hslot)).2
      have hwritten := hs.written j v x done hold hx
      rw [← hsame] at hwritten
      exact hwritten
  · intro j data hmem
    have hdel : (t.setPc i u pc).delivered = s.delivered := hw.delivered
    rw [hdel] at hmem
    obtain ⟨v, hv, hbytes⟩ := hs.delivered j data hmem
    rw [husers]
    by_cases hji : j = i
    · subst hji
      rw [hu] at hv
      cases hv
      exact ⟨_, List.getElem?_set_self (List.getElem?_eq_some_iff.mp hu).1, hbytes⟩
    · exact ⟨v, (List.getElem?_set_ne (Ne.symm hji)).trans hv, hbytes⟩

/-- Nobody else has the buffer of goroutine `i`. -/
lemma Isolated.alone (hs : Isolated E P s) (hu : s.users[i]? = some u)
    (hslot : u.pc.slot = some slot) (j : Nat) (v : PoolUser V) (hne : j ≠ i)
    (hv : s.users[j]? = some v) : v.pc.slot ≠ some slot :=
  fun hvs => hne (hs.exclusive j i v u slot hv hu hvs hslot)

lemma take_overwrite {old : Bytes} {offset : Nat} (h : offset ≤ old.length) (bs : Bytes) :
    (Heap.overwrite old offset bs).take (offset + bs.length) = old.take offset ++ bs := by
  have hlen : (old.take offset ++ bs).length = offset + bs.length := by
    rw [List.length_append, List.length_take, Nat.min_eq_left h]
  rw [Heap.overwrite, ← hlen, List.take_left']
  rfl

/-- The next bytes, written behind those that are there. -/
lemma take_overwrite_next {old bytes : Bytes} {done n : Nat} (hle : done + n ≤ bytes.length)
    (h : old.take done = bytes.take done) :
    (Heap.overwrite old done ((bytes.drop done).take n)).take (done + n) = bytes.take (done + n) := by
  have hlen := congrArg List.length h
  rw [List.length_take, List.length_take] at hlen
  have hn : ((bytes.drop done).take n).length = n := by
    rw [List.length_take, List.length_drop]
    omega
  have htake := take_overwrite (by omega : done ≤ old.length) ((bytes.drop done).take n)
  rw [hn] at htake
  rw [htake, h, List.take_add]

lemma Isolated.call (hs : Isolated E P s) {use : PoolUse V} {bytes : Bytes}
    (hbytes : use.bytes E P = some bytes) :
    Isolated E P { s with users := s.users ++ [⟨use, bytes, .start⟩] } := by
  have hcases : ∀ (j : Nat) (v : PoolUser V), (s.users ++ [⟨use, bytes, .start⟩])[j]? = some v →
      v = ⟨use, bytes, .start⟩ ∨ s.users[j]? = some v := by
    intro j v hv
    rw [List.getElem?_append] at hv
    split at hv
    · exact .inr hv
    · exact .inl (List.mem_singleton.mp (List.mem_of_getElem? hv))
  refine ⟨⟨hs.pools.stocked, hs.pools.once, hs.pools.small⟩, hs.running, ?_, ?_, ?_, ?_, ?_⟩
  · intro j v hv
    rcases hcases j v hv with rfl | hold
    · exact hbytes
    · exact hs.bytes j v hold
  · intro j v x hv hx
    rcases hcases j v hv with rfl | hold
    · cases hx
    · exact hs.owned j v x hold hx
  · intro j k v w x hv hw hx hx'
    rcases hcases j v hv with rfl | hold
    · cases hx
    · rcases hcases k w hw with rfl | hold'
      · cases hx'
      · exact hs.exclusive j k v w x hold hold' hx hx'
  · intro j v x done hv hx
    rcases hcases j v hv with rfl | hold
    · cases hx
    · exact hs.written j v x done hold hx
  · intro j data hmem
    obtain ⟨v, hv, hdata⟩ := hs.delivered j data hmem
    exact ⟨v, (List.getElem?_append_left (List.getElem?_eq_some_iff.mp hv).1).trans hv, hdata⟩

lemma Isolated.deliver (hs : Isolated E P s) (hu : s.users[i]? = some u) :
    Isolated E P { s with delivered := s.delivered ++ [(i, u.bytes)] } := by
  refine ⟨⟨hs.pools.stocked, hs.pools.once, hs.pools.small⟩, hs.running, hs.bytes, hs.owned,
    hs.exclusive, hs.written, fun j data hmem => ?_⟩
  rcases List.mem_append.mp hmem with hold | hnew
  · exact hs.delivered j data hold
  · cases List.mem_singleton.mp hnew
    exact ⟨u, hu, hs.bytes i u hu⟩

lemma Isolated.get (hs : Isolated E P s) {use : PoolUse V} {bytes : Bytes}
    (hu : s.users[i]? = some ⟨use, bytes, .start⟩) (choice : Option Nat) :
    ∃ t slot, s.get ⟨use, bytes, .start⟩ choice = (t, .ok slot) ∧
      Isolated E P (t.setPc i ⟨use, bytes, .start⟩ (.filling slot 0)) := by
  obtain ⟨t, slot, hget, hw, hout, hnew⟩ := get_outOfPool hs.pools ⟨use, bytes, .start⟩ choice
  refine ⟨t, slot, hget, hs.move hu hw ?_ _ ?_ ?_⟩
  · intro j v _ hv hslot
    exact hnew _ (hs.owned j v slot hv hslot)
  · rintro x ⟨⟩
    exact ⟨rfl, hout⟩
  · rintro x done ⟨⟩
    exact ⟨Nat.zero_le _, rfl⟩

lemma Isolated.fill (hs : Isolated E P s) {use : PoolUse V} {bytes : Bytes} {done n : Nat}
    (hu : s.users[i]? = some ⟨use, bytes, .filling slot done⟩) (hn : done + n ≤ bytes.length) :
    Isolated E P ((s.write slot done ((bytes.drop done).take n)).setPc i
      ⟨use, bytes, .filling slot done⟩ (.filling slot (done + n))) := by
  have hout := hs.owned i _ slot hu rfl
  obtain ⟨-, hwritten⟩ := hs.written i _ slot done hu rfl
  have hfit : done + ((bytes.drop done).take n).length ≤ bytes.length := by
    rw [List.length_take, List.length_drop]
    omega
  obtain ⟨hw, hout', hcontent⟩ := write_outOfPool hs.pools hout hfit
  refine hs.move hu hw (hs.alone hu rfl) _ ?_ ?_
  · rintro x ⟨⟩
    exact ⟨rfl, hout'⟩
  · rintro x d ⟨⟩
    rw [hcontent]
    exact ⟨hn, take_overwrite_next hn hwritten⟩

/-- The goroutine is done with its buffer and has still to put it back. -/
lemma Isolated.leave (hs : Isolated E P s) (hu : s.users[i]? = some u)
    (hslot : u.pc.slot = some slot) : Isolated E P (s.setPc i u (.putting slot)) := by
  refine hs.move hu (.refl hs.pools slot) (hs.alone hu hslot) _ ?_ (by simp)
  rintro x ⟨⟩
  exact ⟨rfl, hs.owned i u slot hu hslot⟩

lemma Isolated.step (hs : Isolated E P s) {a : ShareAction V} (h : shareStep E P s a = some t) :
    Isolated E P t := by
  unfold shareStep at h
  rw [if_neg (by simp [hs.running])] at h
  cases a with
  | call use =>
    obtain ⟨bytes, hbytes, rfl⟩ := Option.map_eq_some_iff.mp h
    exact hs.call hbytes
  | get i choice =>
    dsimp only at h
    split at h
    · next use bytes hu =>
      obtain ⟨r, slot, hget, hr⟩ := hs.get hu choice
      rw [hget] at h
      exact Option.some.inj h ▸ hr
    · cases h
  | fill i n =>
    dsimp only at h
    split at h
    · next use bytes slot done hu =>
      split at h
      · next hn => exact Option.some.inj h ▸ hs.fill hu hn
      · cases h
    · cases h
  | deliver i =>
    dsimp only at h
    split at h
    · next use bytes slot done hu =>
      split at h
      · next hdone =>
        have hwritten := (hs.written i _ slot done hu rfl).2
        dsimp only at hwritten
        rw [hdone, List.take_length] at hwritten
        rw [hwritten] at h
        have hleft := hs.leave hu rfl
        have hu' : (s.setPc i ⟨use, bytes, .filling slot done⟩ (.putting slot)).users[i]? =
            some ⟨use, bytes, .putting slot⟩ :=
          List.getElem?_set_self (List.getElem?_eq_some_iff.mp hu).1
        exact Option.some.inj h ▸ hleft.deliver hu'
      · cases h
    · cases h
  | abort i =>
    dsimp only at h
    split at h
    · next use bytes slot done hu =>
      split at h
      · exact Option.some.inj h ▸ hs.leave hu rfl
      · cases h
    · cases h
  | put i =>
    dsimp only at h
    split at h
    · next use bytes slot hu =>
      have hw := put_worksOn hs.pools (hs.owned i _ slot hu rfl)
      exact Option.some.inj h ▸ hs.move hu hw (hs.alone hu rfl) _ (by simp [WorkPc.slot]) (by simp)
    · cases h

end Run

/-- Two calls of `Marshal` whose steps interleave; the second buffer is the first one put back. -/
def interleavedCalls : List (ShareAction Bytes) :=
  [.call (.marshal [1, 2]), .call (.marshal [3]), .get 0 none, .fill 0 1, .get 1 none, .fill 1 1,
    .fill 0 1, .deliver 1, .put 1, .deliver 0, .call (.marshal [4]), .get 2 (some 0), .fill 2 1,
    .deliver 2]

lemma exec_interleavedCalls :
    ∃ s ∈ exec (shareStep storedEnv bytesProto) .init interleavedCalls,
      s.delivered = [(1, [3]), (0, [1, 2]), (2, [4])] ∧
      (s.users[2]?).map PoolUser.pc = some (.putting (.small 1)) := by
  decide +kernel

end Zrpc.Proofs
