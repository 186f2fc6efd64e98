import Zrpc.Proofs.MessageHeap

/-!
# Buffers from the pool

A pool that gets back only what it handed out never hands out a short buffer, and what `Encode`
writes into a recycled buffer covers all of it.
-/

namespace Zrpc.Proofs

open Zrpc.Lib

/-- The capacity of a block. -/
def capacity (h : Heap) (b : Nat) : Nat := (h.content b).length

/-- Every pooled buffer is at least as long as its class says. -/
def Stocked (h : Heap) : Prop :=
  ∀ i, ∀ b ∈ h.pools i, b < h.blocks.length ∧ bufferPoolSizes.getD i 0 ≤ capacity h b

section Pools

variable {h : Heap}

lemma stocked_empty : Stocked Heap.empty := by
  intro i b hb
  cases hb

lemma capacity_alloc {cap b : Nat} (hb : b < h.blocks.length) :
    capacity (h.alloc cap).1 b = capacity h b := by
  rw [capacity, content_alloc h cap b hb, capacity]

lemma Stocked.alloc (hs : Stocked h) (cap : Nat) : Stocked (h.alloc cap).1 := by
  intro i b hb
  obtain ⟨hlt, hcap⟩ := hs i b hb
  refine ⟨?_, (capacity_alloc hlt).symm ▸ hcap⟩
  simp only [Heap.alloc, List.length_append]
  omega

/-- What a `Get` leaves behind: a stocked pool, the old blocks at their lengths, and a buffer of
length at least `size`. -/
structure Delivers (h h' : Heap) (b size : Nat) : Prop where
  stocked : Stocked h'
  length_le : h.blocks.length ≤ h'.blocks.length
  old : ∀ c < h.blocks.length, capacity h' c = capacity h c
  valid : b < h'.blocks.length
  size_le : size ≤ capacity h' b
  pooled : capacity h' b = 0 ∨ 128 ≤ capacity h' b

lemma delivers_alloc (hs : Stocked h) {size : Nat} (hsize : size = 0 ∨ 128 ≤ size) :
    Delivers h (h.alloc size).1 (h.alloc size).2 size := by
  have hcap : capacity (h.alloc size).1 (h.alloc size).2 = size := content_alloc_self h size
  refine ⟨hs.alloc size, ?_, fun c hc => capacity_alloc hc, ?_, hcap.ge, hcap.symm ▸ hsize⟩
  · simp [Heap.alloc]
  · simp [Heap.alloc]

lemma class_eq {i : Nat} (hi : i < bufferPoolSizes.length) :
    bufferPoolSizes.getD i 0 = bufferPoolSizes[i] := by
  rw [List.getD_eq_getElem?_getD, List.getElem?_eq_getElem hi, Option.getD_some]

lemma class_ge {i : Nat} (hi : i < bufferPoolSizes.length) : 128 ≤ bufferPoolSizes.getD i 0 := by
  have hall : ∀ p ∈ bufferPoolSizes, 128 ≤ p := by decide
  rw [class_eq hi]
  exact hall _ (List.getElem_mem hi)

lemma delivers_takeFrom (hs : Stocked h) {i size : Nat} (hi : i < bufferPoolSizes.length)
    (hsize : size ≤ bufferPoolSizes.getD i 0) (choice : Option Nat) :
    Delivers h (h.takeFrom i choice).1 (h.takeFrom i choice).2 size := by
  have hclass := class_ge hi
  unfold Heap.takeFrom
  split
  · rename_i b hb
    obtain ⟨j, -, hj⟩ := Option.bind_eq_some_iff.mp hb
    obtain ⟨hlt, hcap⟩ := hs i b (List.mem_of_getElem? hj)
    refine ⟨?_, le_refl _, fun _ _ => rfl, hlt, hsize.trans hcap, .inr (hclass.trans hcap)⟩
    intro k c hc
    dsimp only at hc
    by_cases hki : k = i
    · subst hki
      rw [Function.update_self] at hc
      exact hs k c (List.mem_of_mem_erase hc)
    · rw [Function.update_of_ne hki] at hc
      exact hs k c hc
  · have h' := delivers_alloc hs (.inr hclass)
    exact ⟨h'.stocked, h'.length_le, h'.old, h'.valid, hsize.trans h'.size_le, h'.pooled⟩

lemma findPool_some {size i : Nat} (h : findPool size = some i) :
    i < bufferPoolSizes.length ∧ bufferPoolSizes.getD i 0 = size := by
  obtain ⟨hi, hp, -⟩ := List.findIdx?_eq_some_iff_getElem.mp h
  rw [class_eq hi]
  exact ⟨hi, by simpa using (of_decide_eq_true hp).symm⟩

lemma findBestFitPool_some {size i : Nat} (h : findBestFitPool size = some i) :
    i < bufferPoolSizes.length ∧ size ≤ bufferPoolSizes.getD i 0 := by
  obtain ⟨hi, hp, -⟩ := List.findIdx?_eq_some_iff_getElem.mp h
  rw [class_eq hi]
  exact ⟨hi, of_decide_eq_true hp⟩

lemma findBestFitPool_none {size : Nat} (h : findBestFitPool size = none) : 128 ≤ size := by
  have hnot := List.findIdx?_eq_none_iff.mp h (1 <<< 7) (by decide)
  have hlt : ¬size ≤ 1 <<< 7 := of_decide_eq_false hnot
  omega

lemma Delivers.reslice {r : Heap × Nat} {size : Nat} (hd : Delivers h r.1 r.2 size) :
    Heap.reslice size r = (r.1, .ok r.2) := by
  have hle : size ≤ (r.1.content r.2).length := hd.size_le
  rw [Heap.reslice, if_pos hle]

/-- `Get` on a stocked pool does not slice past the end of what it takes from the pool. -/
theorem get_delivers (hs : Stocked h) (size : Nat) (choice : Option Nat) :
    ∃ h' b, h.get size choice = (h', .ok b) ∧ Delivers h h' b size := by
  unfold Heap.get
  by_cases hzero : size = 0
  · subst hzero
    exact ⟨_, _, if_pos rfl, delivers_alloc hs (.inl rfl)⟩
  rw [if_neg hzero]
  cases hfind : findPool size with
  | some i =>
    obtain ⟨hi, hsize⟩ := findPool_some hfind
    have hd := delivers_takeFrom hs hi hsize.ge choice
    exact ⟨_, _, hd.reslice, hd⟩
  | none =>
    cases hfit : findBestFitPool size with
    | some i =>
      obtain ⟨hi, hsize⟩ := findBestFitPool_some hfit
      have hd := delivers_takeFrom hs hi hsize choice
      exact ⟨_, _, hd.reslice, hd⟩
    | none => exact ⟨_, _, rfl, delivers_alloc hs (.inr (findBestFitPool_none hfit))⟩

lemma findClosestPool_le {size : Nat} (h : 128 ≤ size) :
    bufferPoolSizes.getD (findClosestPool size) 0 ≤ size := by
  unfold findClosestPool
  cases hfind : (List.range bufferPoolSizes.length).reverse.find?
      (fun i => bufferPoolSizes.getD i 0 ≤ size) with
  | none => exact h
  | some i =>
    have hle := List.find?_some hfind
    exact of_decide_eq_true hle

lemma Stocked.putInto (hs : Stocked h) {i b : Nat} (hb : b < h.blocks.length)
    (hcap : bufferPoolSizes.getD i 0 ≤ capacity h b) : Stocked (h.putInto i b) := by
  intro k c hc
  simp only [Heap.putInto] at hc
  by_cases hki : k = i
  · subst hki
    rw [Function.update_self] at hc
    obtain rfl | hc := List.mem_cons.mp hc
    · exact ⟨hb, hcap⟩
    · exact hs k c hc
  · rw [Function.update_of_ne hki] at hc
    exact hs k c hc

lemma Stocked.put (hs : Stocked h) {b : Nat} (hb : b < h.blocks.length)
    (hcap : capacity h b = 0 ∨ 128 ≤ capacity h b) : Stocked (h.put b) := by
  unfold Heap.put
  dsimp only
  split
  · exact hs
  · rename_i hbounds
    split
    · rename_i i hfind
      exact hs.putInto hb (findPool_some hfind).2.le
    · have hpos : capacity h b ≠ 0 := fun hz => hbounds (.inl hz)
      exact hs.putInto hb (findClosestPool_le (hcap.resolve_left hpos))

lemma capacity_write {b offset : Nat} {bs : Bytes} (hfit : offset + bs.length ≤ capacity h b)
    (c : Nat) : capacity (h.write b offset bs) c = capacity h c := by
  by_cases hcb : c = b
  · subst hcb
    by_cases hlt : c < h.blocks.length
    · rw [capacity, content_write_self h offset bs hlt, Heap.overwrite]
      simp only [List.length_append, List.length_take, List.length_drop]
      unfold capacity at hfit ⊢
      omega
    · have hset : h.write c offset bs = h := by
        simp only [Heap.write, List.set_eq_of_length_le (not_lt.mp hlt)]
      rw [hset]
  · rw [capacity, content_write_of_ne h offset bs hcb, capacity]

lemma Stocked.write (hs : Stocked h) {b offset : Nat} {bs : Bytes}
    (hfit : offset + bs.length ≤ capacity h b) : Stocked (h.write b offset bs) := by
  intro i c hc
  obtain ⟨hlt, hcap⟩ := hs i c hc
  rw [capacity_write hfit, length_write]
  exact ⟨hlt, hcap⟩

end Pools

/-! ### Runs in which the pool gets back what it handed out -/

/-- The slice of a handle lies in its block, and a block that may be put has a class. -/
structure HandleFits (h : Heap) (x : Handle) : Prop where
  valid : x.block < h.blocks.length
  len_le : x.len ≤ capacity h x.block
  pooled : x.owner = .caller ∨ 1024 < x.len → capacity h x.block = 0 ∨ 128 ≤ capacity h x.block

structure Fed (s : HeapState) : Prop where
  stocked : Stocked s.heap
  handles : ∀ x ∈ s.handles, HandleFits s.heap x

lemma HandleFits.mono {h h' : Heap} {x : Handle} (hx : HandleFits h x)
    (hlen : h.blocks.length ≤ h'.blocks.length)
    (hcap : ∀ c < h.blocks.length, capacity h' c = capacity h c) : HandleFits h' x := by
  have hsame := hcap x.block hx.valid
  refine ⟨hx.valid.trans_le hlen, ?_, ?_⟩
  · rw [hsame]
    exact hx.len_le
  · rw [hsame]
    exact hx.pooled

/-- The buffer comes from the pool, or is the one `Decode` makes for a short frame. -/
def ownBuffers : HeapAction → Bool
  | .alloc _ => false
  | _ => true

section Step

variable {s : HeapState}

lemma Fed.getBuffer (hs : Fed s) (size : Nat) (choice : Option Nat) (owner : Owner) {bs : Bytes}
    (hbs : bs.length ≤ size) : Fed (s.getBuffer size choice owner bs) := by
  obtain ⟨h', b, hget, hd⟩ := get_delivers hs.stocked size choice
  have hfit : 0 + bs.length ≤ capacity h' b := by
    have hle := hd.size_le
    omega
  have hstate : s.getBuffer size choice owner bs =
      { s with heap := h'.write b 0 bs, handles := s.handles ++ [⟨b, size, owner⟩] } := by
    rw [HeapState.getBuffer, hget]
  rw [hstate]
  refine ⟨hd.stocked.write hfit, fun x hx => ?_⟩
  obtain hx | hx := List.mem_append.mp hx
  · refine ((hs.handles x hx).mono hd.length_le hd.old).mono (length_write h' b 0 bs).ge ?_
    exact fun c _ => capacity_write hfit c
  · rw [List.mem_singleton.mp hx]
    refine HandleFits.mono ⟨hd.valid, hd.size_le, fun _ => hd.pooled⟩
      (length_write h' b 0 bs).ge fun c _ => capacity_write hfit c

lemma Fed.makeBuffer (hs : Fed s) {cap : Nat} (hcap : cap ≤ 1024) :
    Fed (s.makeBuffer cap .decoder) := by
  have hlen : s.heap.blocks.length ≤ (s.heap.alloc cap).1.blocks.length := by
    simp [Heap.alloc]
  refine ⟨hs.stocked.alloc cap, fun x hx => ?_⟩
  obtain hx | hx := List.mem_append.mp hx
  · exact (hs.handles x hx).mono hlen fun c hc => capacity_alloc hc
  · rw [List.mem_singleton.mp hx]
    refine ⟨by simp [HeapState.makeBuffer, Heap.alloc], (content_alloc_self s.heap cap).ge, ?_⟩
    rintro (h | h)
    · cases h
    · exact absurd h hcap.not_gt

lemma Fed.put (hs : Fed s) {b len : Nat} {owner : Owner} (hx : ⟨b, len, owner⟩ ∈ s.handles)
    (howner : owner = .caller ∨ 1024 < len) : Fed { s with heap := s.heap.put b } := by
  have hfits := hs.handles _ hx
  refine ⟨hs.stocked.put hfits.valid (hfits.pooled howner), fun y hy => ?_⟩
  refine (hs.handles y hy).mono ?_ ?_
  · rw [blocks_put]
  · intro c _
    simp only [capacity, Heap.content, blocks_put]

lemma Fed.write (hs : Fed s) {b len offset : Nat} {owner : Owner} {bs : Bytes}
    (hx : ⟨b, len, owner⟩ ∈ s.handles) (hfit : offset + bs.length ≤ len) :
    Fed { s with heap := s.heap.write b offset bs } := by
  have hcap : offset + bs.length ≤ capacity s.heap b := hfit.trans (hs.handles _ hx).len_le
  exact ⟨hs.stocked.write hcap, fun y hy => (hs.handles y hy).mono (length_write _ _ _ _).ge
    fun c _ => capacity_write hcap c⟩

lemma Fed.finish (hs : Fed s) {i b len : Nat} {owner : Owner}
    (hx : s.handles[i]? = some ⟨b, len, owner⟩) (ret : List Returned) :
    Fed { s with handles := s.handles.set i ⟨b, len, .finished⟩, returned := ret } := by
  have hfits := hs.handles _ (List.mem_of_getElem? hx)
  refine ⟨hs.stocked, fun y hy => ?_⟩
  obtain hy | rfl := List.mem_or_eq_of_mem_set hy
  · exact hs.handles y hy
  · refine ⟨hfits.valid, hfits.len_le, ?_⟩
    rintro (h | h)
    · cases h
    · exact hfits.pooled (.inr h)

/-- The end of a `Decode`: the bytes are written, a long buffer is put, the handle is finished. -/
lemma Fed.release (hs : Fed s) {i b len : Nat} (hx : s.handles[i]? = some ⟨b, len, .decoder⟩)
    {data : Bytes} (hdata : data.length ≤ len) (ret : List Returned) :
    Fed { s.release i ⟨b, len, .decoder⟩ data with returned := ret } := by
  have hmem := List.mem_of_getElem? hx
  have hwrite : Fed { s with heap := s.heap.write b 0 data } := hs.write hmem (by omega)
  by_cases hshort : len ≤ 1024
  · have h := hwrite.finish hx ret
    simpa only [HeapState.release, hshort, if_true] using h
  · have h := (hwrite.put hmem (.inr (not_le.mp hshort))).finish hx ret
    simpa only [HeapState.release, hshort, if_false] using h

/-- One step keeps the pool stocked and every handle within its block. -/
lemma Fed.step {E : Env} {t : HeapState} {a : HeapAction} (hs : Fed s) (ha : ownBuffers a = true)
    (h : heapStep E s a = some t) : Fed t := by
  cases heapStep_move h with
  | getBuffer _ hbs _ => exact hs.getBuffer _ _ _ hbs
  | alloc => cases ha
  | decodeShort hshort => exact hs.makeBuffer hshort
  | put hi => exact hs.put (List.mem_of_getElem? hi) (.inl rfl)
  | write hi hfit => exact hs.write (List.mem_of_getElem? hi) hfit
  | release hi _ hlen ret _ => exact hs.release hi hlen _

end Step

/-- Whatever goroutines get, fill and put back, the pool stays stocked, as long as nobody puts a
buffer it made itself. -/
theorem stocked_of_run {E : Env} {s : HeapState} {actions : List HeapAction}
    (ha : ∀ a ∈ actions, ownBuffers a = true)
    (h : exec (heapStep E) HeapState.init actions = some s) : Stocked s.heap := by
  have hinit : Fed HeapState.init := ⟨stocked_empty, fun x hx => by cases hx⟩
  have hg : Guarded (heapStep E) (fun _ a => ownBuffers a = true) HeapState.init actions :=
    guarded_of_mem fun a hmem _ => ha a hmem
  exact (exec_invariant_guarded Fed (fun _ _ _ hs hok ht => hs.step hok ht) hinit hg h).stocked

/-! ### Encode over a recycled buffer -/

/-- `Encode` fills the buffer it has computed the size of to the last byte and never leaves it. What
it returns depends neither on what the buffer held nor on the order of the size pass. The buffer
itself is no shorter than asked for, if the pool is stocked. -/
theorem encode_covers_buffer (E : Env) (m : Message) :
    (∀ c : EncodeChoice m.metadata, ∃ totalL w,
      totalL = 11 + 4 + encodedLength E m c.sizeOrder ∧
      m.writeFrame c.writeOrder (metaSize c.sizeOrder) (encodedLength E m c.sizeOrder)
        (m.choosePayload E).1 (m.choosePayload E).2 ⟨c.buffer totalL, 0⟩ = .ok w ∧
      w.offset = totalL ∧ w.buf.length = totalL ∧
      m.encode E c = .ok (w.buf, (m.choosePayload E).1)) ∧
    (∀ c₁ c₂ : EncodeChoice m.metadata, c₁.writeOrder = c₂.writeOrder →
      m.encode E c₁ = m.encode E c₂) ∧
    (∀ (h : Heap) (choice : Option Nat) (totalL : Nat), Stocked h →
      ∃ h' b, h.get totalL choice = (h', .ok b) ∧ totalL ≤ (h'.content b).length) := by
  refine ⟨fun c => ?_, fun c₁ c₂ horder => ?_, fun h choice totalL hs => ?_⟩
  · have hsize : encodedLength E m c.sizeOrder =
        bodyLength m c.sizeOrder (m.choosePayload E).2 := rfl
    obtain ⟨w, hw, hholds⟩ := exists_writeFrame m c (m.choosePayload E).1 (m.choosePayload E).2
    have hlen := length_bodyFrame m c (m.choosePayload E).1 (m.choosePayload E).2
    rw [← hsize] at hw hlen
    have hoffset := hholds.offset
    have hbuf := hholds.length
    refine ⟨_, w, rfl, hw, by omega, by omega, ?_⟩
    rw [encode_eq, hholds.full]
  · rw [encode_eq, encode_eq, horder]
  · obtain ⟨h', b, hget, hd⟩ := get_delivers hs totalL choice
    exact ⟨h', b, hget, hd.size_le⟩

end Zrpc.Proofs
