import Zrpc.Proofs.BufferPool

/-!
# Buffers that anybody puts into the pool

`Put` rounds the capacity of a buffer down to a class, and what is shorter than the smallest class
goes there as well. So the pool stays usable exactly as long as nobody puts such a buffer.
-/

namespace Zrpc.Proofs

open Zrpc.Lib

/-- Every handle is a slice of its block, whoever made the block. -/
structure Sliced (s : HeapState) : Prop where
  pools : ∀ i, ∀ b ∈ s.heap.pools i, b < s.heap.blocks.length
  handles : ∀ x ∈ s.handles, x.block < s.heap.blocks.length ∧ x.len ≤ capacity s.heap x.block

/-- Every buffer of a class has at least the capacity of the class. -/
def Classed (h : Heap) : Prop := ∀ i, ∀ b ∈ h.pools i, bufferPoolSizes.getD i 0 ≤ capacity h b

/-- The same of the classes from `k` on. -/
def ClassedFrom (k : Nat) (h : Heap) : Prop :=
  ∀ i, k ≤ i → ∀ b ∈ h.pools i, bufferPoolSizes.getD i 0 ≤ capacity h b

/-- A `Put` is of a buffer that the pool drops or that has a class. -/
def putsClassed (s : HeapState) : HeapAction → Bool
  | .put i => match s.handles[i]? with
    | some ⟨b, _, .caller⟩ => capacity s.heap b = 0 ∨ 128 ≤ capacity s.heap b
    | _ => true
  | _ => true

section Heap

variable {h : Heap} {k : Nat}

lemma classed_iff : Classed h ↔ ClassedFrom 0 h :=
  ⟨fun hc i _ => hc i, fun hc i => hc i (Nat.zero_le i)⟩

lemma mem_pools_takeFrom {i k b : Nat} {choice : Option Nat}
    (hb : b ∈ (h.takeFrom i choice).1.pools k) : b ∈ h.pools k := by
  unfold Heap.takeFrom at hb
  split at hb
  · dsimp only at hb
    by_cases hki : k = i
    · subst hki
      rw [Function.update_self] at hb
      exact List.mem_of_mem_erase hb
    · rwa [Function.update_of_ne hki] at hb
  · exact hb

lemma mem_pools_get {size k b : Nat} {choice : Option Nat}
    (hb : b ∈ (h.get size choice).1.pools k) : b ∈ h.pools k := by
  unfold Heap.get at hb
  split at hb
  · exact hb
  · split at hb
    · exact mem_pools_takeFrom hb
    · split at hb
      · exact mem_pools_takeFrom hb
      · exact hb

lemma reslice_ok {size b : Nat} {r : Heap × Nat} (hb : (Heap.reslice size r).2 = .ok b) :
    size ≤ capacity (Heap.reslice size r).1 b := by
  unfold Heap.reslice at hb ⊢
  dsimp only at hb ⊢
  split at hb
  · next hle =>
    cases hb
    exact hle
  · cases hb

/-- What a `Get` delivers, if it does not panic, is as long as asked for. -/
lemma get_ok_size {size b : Nat} {choice : Option Nat} (hb : (h.get size choice).2 = .ok b) :
    size ≤ capacity (h.get size choice).1 b := by
  unfold Heap.get at hb ⊢
  split at hb
  · next hzero => omega
  · next hzero =>
    rw [if_neg hzero]
    split at hb
    · exact reslice_ok hb
    · split at hb
      · exact reslice_ok hb
      · cases hb
        exact (content_alloc_self h size).ge

lemma ClassedFrom.get (hc : ClassedFrom k h)
    (hvalid : ∀ i, ∀ b ∈ h.pools i, b < h.blocks.length) (size : Nat) (choice : Option Nat) :
    ClassedFrom k (h.get size choice).1 := by
  intro i hi b hb
  have hold := mem_pools_get hb
  have hsame := (getSpec_get h size choice).content b (hvalid i b hold)
  rw [capacity, hsame]
  exact hc i hi b hold

lemma ClassedFrom.alloc (hc : ClassedFrom k h)
    (hvalid : ∀ i, ∀ b ∈ h.pools i, b < h.blocks.length) (cap : Nat) :
    ClassedFrom k (h.alloc cap).1 := by
  intro i hi b hb
  rw [capacity_alloc (hvalid i b hb)]
  exact hc i hi b hb

lemma ClassedFrom.write (hc : ClassedFrom k h) {b offset : Nat} {bs : Bytes}
    (hfit : offset + bs.length ≤ capacity h b) : ClassedFrom k (h.write b offset bs) := by
  intro i hi c hmem
  rw [capacity_write hfit]
  exact hc i hi c hmem

lemma findPool_small {size : Nat} (h : size < 128) : findPool size = none := by
  cases hfind : findPool size with
  | none => rfl
  | some i =>
    obtain ⟨hi, hclass⟩ := findPool_some hfind
    have hge := class_ge hi
    omega

lemma findClosestPool_small {size : Nat} (h : size < 128) : findClosestPool size = 0 := by
  unfold findClosestPool
  rw [List.find?_eq_none.mpr, Option.getD_none]
  intro i hi
  have hlt : i < bufferPoolSizes.length := List.mem_range.mp (List.mem_reverse.mp hi)
  have hge := class_ge hlt
  simp only [decide_eq_true_eq, not_le]
  omega

lemma ClassedFrom.putInto (hc : ClassedFrom k h) {j b : Nat}
    (hcap : k ≤ j → bufferPoolSizes.getD j 0 ≤ capacity h b) : ClassedFrom k (h.putInto j b) := by
  intro i hi c hmem
  simp only [Heap.putInto] at hmem
  by_cases hij : i = j
  · subst hij
    rw [Function.update_self] at hmem
    obtain rfl | hmem := List.mem_cons.mp hmem
    · exact hcap hi
    · exact hc i hi c hmem
  · rw [Function.update_of_ne hij] at hmem
    exact hc i hi c hmem

/-- A buffer that is shorter than every class goes into class 0. -/
lemma ClassedFrom.put (hc : ClassedFrom k h) {b : Nat}
    (hcap : capacity h b = 0 ∨ 128 ≤ capacity h b ∨ 0 < k) : ClassedFrom k (h.put b) := by
  unfold Heap.put
  dsimp only
  split
  · exact hc
  · next hbounds =>
    split
    · next j hfind => exact hc.putInto fun _ => (findPool_some hfind).2.le
    · refine hc.putInto fun hk => ?_
      by_cases hlong : 128 ≤ capacity h b
      · exact findClosestPool_le hlong
      · have hclass : findClosestPool (h.content b).length = 0 :=
          findClosestPool_small (not_le.mp hlong)
        have hpos : capacity h b ≠ 0 := fun hz => hbounds (.inl hz)
        omega

end Heap

section Step

variable {s : HeapState} {k : Nat}

lemma Sliced.stocked (hs : Sliced s) (hc : Classed s.heap) : Stocked s.heap :=
  fun i b hb => ⟨hs.pools i b hb, hc i b hb⟩

lemma Stocked.classed {h : Heap} (hs : Stocked h) : Classed h := fun i b hb => (hs i b hb).2

lemma Sliced.mono (hs : Sliced s) {h' : Heap} (hp : ∀ i, ∀ b ∈ h'.pools i, b < h'.blocks.length)
    (hlen : s.heap.blocks.length ≤ h'.blocks.length)
    (hcap : ∀ c < s.heap.blocks.length, capacity h' c = capacity s.heap c) :
    Sliced { s with heap := h' } := by
  refine ⟨hp, fun x hx => ?_⟩
  obtain ⟨hvalid, hle⟩ := hs.handles x hx
  exact ⟨hvalid.trans_le hlen, (hcap _ hvalid).symm ▸ hle⟩

lemma Sliced.add (hs : Sliced s) {b len : Nat} {owner : Owner} (hb : b < s.heap.blocks.length)
    (hlen : len ≤ capacity s.heap b) :
    Sliced { s with handles := s.handles ++ [⟨b, len, owner⟩] } := by
  refine ⟨hs.pools, fun x hx => ?_⟩
  obtain hx | hx := List.mem_append.mp hx
  · exact hs.handles x hx
  · rw [List.mem_singleton.mp hx]
    exact ⟨hb, hlen⟩

lemma Sliced.write (hs : Sliced s) {b offset : Nat} {bs : Bytes}
    (hfit : offset + bs.length ≤ capacity s.heap b) :
    Sliced { s with heap := s.heap.write b offset bs } := by
  refine hs.mono (fun i c hc => ?_) (length_write _ _ _ _).ge fun c _ => capacity_write hfit c
  rw [length_write]
  exact hs.pools i c hc

lemma Sliced.put (hs : Sliced s) {b : Nat} (hb : b < s.heap.blocks.length) :
    Sliced { s with heap := s.heap.put b } := by
  refine hs.mono (fun i c hc => ?_) (blocks_put s.heap b ▸ le_refl _) fun c _ => ?_
  · rw [blocks_put]
    obtain hpooled | rfl := pooled_put s.heap ⟨i, hc⟩
    · obtain ⟨j, hj⟩ := hpooled
      exact hs.pools j c hj
    · exact hb
  · simp only [capacity, Heap.content, blocks_put]

lemma Sliced.getBuffer (hs : Sliced s) (size : Nat) (choice : Option Nat) (owner : Owner) {bs : Bytes}
    (hbs : bs.length ≤ size) (hc : ClassedFrom k s.heap) :
    Sliced (s.getBuffer size choice owner bs) ∧
      ClassedFrom k (s.getBuffer size choice owner bs).heap := by
  have hspec := getSpec_get s.heap size choice
  have hlong := hc.get hs.pools size choice
  have hsize : ∀ b, (s.heap.get size choice).2 = .ok b →
      size ≤ capacity (s.heap.get size choice).1 b := fun b => get_ok_size
  have hpools : ∀ i, ∀ b ∈ (s.heap.get size choice).1.pools i,
      b < (s.heap.get size choice).1.blocks.length :=
    fun i b hb => (hs.pools i b (mem_pools_get hb)).trans_le hspec.length_le
  have hgot : Sliced { s with heap := (s.heap.get size choice).1 } :=
    hs.mono hpools hspec.length_le fun c hlt => congrArg List.length (hspec.content c hlt)
  unfold HeapState.getBuffer
  rcases hget : s.heap.get size choice with ⟨h', r⟩
  rw [hget] at hspec hlong hsize hgot
  cases r with
  | error e => exact ⟨hgot, hlong⟩
  | ok b =>
    have hle := hsize b rfl
    have hfit : 0 + bs.length ≤ capacity h' b := by
      dsimp only at hle
      omega
    have hvalid : b < h'.blocks.length := by
      rcases hspec.result b rfl with ⟨i, hi⟩ | ⟨-, hlt⟩
      · exact (hs.pools i b hi).trans_le hspec.length_le
      · exact hlt
    refine ⟨(hgot.write hfit).add ?_ ?_, hlong.write hfit⟩
    · rw [length_write]
      exact hvalid
    · rw [capacity_write hfit]
      exact hle

lemma Sliced.makeBuffer (hs : Sliced s) (hc : ClassedFrom k s.heap) (cap : Nat) (owner : Owner) :
    Sliced (s.makeBuffer cap owner) ∧ ClassedFrom k (s.makeBuffer cap owner).heap := by
  have hlen : s.heap.blocks.length ≤ (s.heap.alloc cap).1.blocks.length := by simp [Heap.alloc]
  have hmade : Sliced { s with heap := (s.heap.alloc cap).1 } :=
    hs.mono (fun i b hb => (hs.pools i b hb).trans_le hlen) hlen fun c hlt => capacity_alloc hlt
  exact ⟨hmade.add (by simp [Heap.alloc]) (content_alloc_self s.heap cap).ge,
    hc.alloc hs.pools cap⟩

lemma Sliced.finish (hs : Sliced s) {i : Nat} {x : Handle} (hx : s.handles[i]? = some x)
    (owner : Owner) (ret : List Returned) :
    Sliced { s with handles := s.handles.set i { x with owner := owner }, returned := ret } := by
  refine ⟨hs.pools, fun y hy => ?_⟩
  obtain hy | rfl := List.mem_or_eq_of_mem_set hy
  · exact hs.handles y hy
  · exact hs.handles x (List.mem_of_getElem? hx)

/-- A buffer that `Decode` releases is longer than the smallest class. -/
lemma Sliced.release (hs : Sliced s) (hc : ClassedFrom k s.heap) {i b len : Nat}
    (hx : s.handles[i]? = some ⟨b, len, .decoder⟩) {data : Bytes} (hdata : data.length ≤ len)
    (ret : List Returned) :
    Sliced { s.release i ⟨b, len, .decoder⟩ data with returned := ret } ∧
      ClassedFrom k (s.release i ⟨b, len, .decoder⟩ data).heap := by
  obtain ⟨hvalid, hlen⟩ := hs.handles _ (List.mem_of_getElem? hx)
  dsimp only at hvalid hlen
  have hfit : 0 + data.length ≤ capacity s.heap b := by omega
  have hwrite := hs.write hfit
  have hclassed := hc.write hfit
  by_cases hshort : len ≤ 1024
  · simp only [HeapState.release, hshort, if_true]
    exact ⟨hwrite.finish hx .finished ret, hclassed⟩
  · have hlong : 128 ≤ capacity (s.heap.write b 0 data) b := by
      rw [capacity_write hfit]
      omega
    have hvalid' : b < (s.heap.write b 0 data).blocks.length := by
      rw [length_write]
      exact hvalid
    simp only [HeapState.release, hshort, if_false]
    exact ⟨(hwrite.put hvalid').finish hx .finished ret, hclassed.put (.inr (.inl hlong))⟩

/-- A `Put` keeps the classes in order exactly when the buffer has no capacity or a class. -/
lemma classed_put_iff (hc : Classed s.heap) (b : Nat) :
    Classed (s.heap.put b) ↔ capacity s.heap b = 0 ∨ 128 ≤ capacity s.heap b := by
  constructor
  · intro hput
    by_contra hsmall
    have hpos : capacity s.heap b ≠ 0 := fun hz => hsmall (.inl hz)
    have hlt : capacity s.heap b < 128 := not_le.mp fun hle => hsmall (.inr hle)
    have hinto : s.heap.put b = s.heap.putInto 0 b := by
      have hbounds : ¬(capacity s.heap b = 0 ∨ maxSize < capacity s.heap b) := by
        have hmax : 128 ≤ maxSize := by decide
        omega
      unfold Heap.put
      dsimp only
      rw [show (s.heap.content b).length = capacity s.heap b from rfl, if_neg hbounds,
        findPool_small hlt, findClosestPool_small hlt]
    rw [hinto] at hput
    have hclass := hput 0 b (by simp [Heap.putInto])
    have hsame : capacity (s.heap.putInto 0 b) b = capacity s.heap b := rfl
    have hfirst : bufferPoolSizes.getD 0 0 = 128 := by decide
    omega
  · rw [classed_iff] at hc ⊢
    exact fun hcap => hc.put (hcap.imp_right .inl)

/-- One step from a state with usable classes. -/
lemma Sliced.step {E : Env} {t : HeapState} {a : HeapAction} (hs : Sliced s) (hc : Classed s.heap)
    (h : heapStep E s a = some t) :
    Sliced t ∧ (Classed t.heap ↔ putsClassed s a = true) := by
  have hfrom := classed_iff.mp hc
  have hkeeps : ∀ {t : HeapState}, putsClassed s a = true → Sliced t ∧ ClassedFrom 0 t.heap →
      Sliced t ∧ (Classed t.heap ↔ putsClassed s a = true) :=
    fun ha ht => ⟨ht.1, iff_of_true (classed_iff.mpr ht.2) ha⟩
  cases heapStep_move h with
  | getBuffer ha hbs _ =>
    refine hkeeps ?_ (hs.getBuffer _ _ _ hbs hfrom)
    cases a <;> first | rfl | cases ha
  | alloc => exact hkeeps rfl (hs.makeBuffer hfrom _ _)
  | decodeShort _ => exact hkeeps rfl (hs.makeBuffer hfrom _ _)
  | put hi =>
    have hvalid := (hs.handles _ (List.mem_of_getElem? hi)).1
    refine ⟨hs.put hvalid, ?_⟩
    dsimp only
    rw [classed_put_iff hc, putsClassed, hi]
    simp
  | write hi hfit =>
    have hcap := hfit.trans (hs.handles _ (List.mem_of_getElem? hi)).2
    exact hkeeps rfl ⟨hs.write hcap, hfrom.write hcap⟩
  | release hi ha hlen ret _ =>
    refine hkeeps ?_ (hs.release hfrom hi hlen _)
    cases a with
    | put j =>
      cases ha
      rw [putsClassed, hi]
    | _ => rfl

lemma sliced_init : Sliced HeapState.init := by
  constructor
  · intro i b hb
    cases hb
  · intro x hx
    cases hx

end Step

/-- Whichever buffer it takes, a `Get` returns a slice of the length asked for. -/
def Usable (E : Env) (s : HeapState) : Prop :=
  ∀ size choice, 0 < size → ∃ b t, heapStep E s (.get size choice) = some t ∧
    t.handles = s.handles ++ [⟨b, size, .caller⟩] ∧ size ≤ capacity t.heap b

lemma Sliced.usable (E : Env) {s : HeapState} (hs : Sliced s) (hc : Classed s.heap) :
    Usable E s := by
  intro size choice _
  obtain ⟨h', b, hget, hd⟩ := get_delivers (hs.stocked hc) size choice
  have hstate : s.getBuffer size choice .caller [] =
      { s with heap := h', handles := s.handles ++ [⟨b, size, .caller⟩] } := by
    rw [HeapState.getBuffer, hget]
    dsimp only
    rw [write_nil]
  exact ⟨b, _, congrArg some hstate, rfl, hd.size_le⟩

/-- Buffers are got, made, written and put, by anybody and as often as they like. All the time each
class holds only buffers of its capacity, and every `Get` delivers, exactly if no buffer that is put
has a capacity between 1 and 127. -/
theorem pool_usable_iff (E : Env) {as : List HeapAction} {t : HeapState}
    (h : exec (heapStep E) HeapState.init as = some t) :
    (∀ bs s, bs <+: as → exec (heapStep E) HeapState.init bs = some s →
      Classed s.heap ∧ Usable E s) ↔
    Guarded (heapStep E) (fun s a => putsClassed s a = true) HeapState.init as := by
  have hiff := exec_always_iff_guarded_of_inv Sliced (fun s => Classed s.heap)
    (fun s a t hs hc ht => (hs.step hc ht).1) (fun s a t hs hc ht => (hs.step hc ht).2)
    sliced_init stocked_empty.classed h
  constructor
  · intro hall
    exact hiff.mp fun bs s hbs hs => (hall bs s hbs hs).1
  · rintro hg bs s ⟨cs, rfl⟩ hs
    have hinv := exec_invariant_guarded (fun s => Sliced s ∧ Classed s.heap)
      (fun s a t hs ha ht => ⟨(hs.1.step hs.2 ht).1, (hs.1.step hs.2 ht).2.mpr ha⟩)
      ⟨sliced_init, stocked_empty.classed⟩ hg.of_append hs
    exact ⟨hinv.2, hinv.1.usable E hinv.2⟩

set_option maxRecDepth 2000 in
/-- A buffer from the pool goes back and is handed out again. -/
theorem pool_usable_recycled :
    (∃ t, exec (heapStep storedEnv) HeapState.init [.get 100 none, .put 0, .get 128 (some 0)] =
      some t) ∧
    ∀ bs s, bs <+: [.get 100 none, .put 0, .get 128 (some 0)] →
      exec (heapStep storedEnv) HeapState.init bs = some s → Classed s.heap ∧ Usable storedEnv s :=
  ⟨⟨_, rfl⟩, (pool_usable_iff storedEnv rfl).mpr (by decide +kernel)⟩

/-- A buffer of capacity 100 goes into the class of 128, and a later `Get` of 120 slices past its
end. -/
theorem pool_short_buffer_panics :
    ∃ s, exec (heapStep storedEnv) HeapState.init [.alloc 100, .put 0] = some s ∧
      ¬Classed s.heap ∧ (s.heap.get 120 (some 0)).2 = .error .panic ∧ ¬Usable storedEnv s := by
  refine ⟨_, rfl, fun hc => ?_, rfl, fun hu => ?_⟩
  · have hle := hc 0 0 (List.mem_singleton_self 0)
    revert hle
    decide +kernel
  · obtain ⟨b, t, ht, hhandles, -⟩ := hu 120 (some 0) (by decide)
    have hlen := congrArg List.length hhandles
    rw [← Option.some.inj ht, List.length_append, List.length_singleton] at hlen
    revert hlen
    decide +kernel

end Zrpc.Proofs
