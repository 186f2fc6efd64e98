import Zrpc.MessageHeap
import Zrpc.Proofs.RoundTrip

/-!
# Which decoded messages stay what they are

A block that is in no pool and under no live handle can be reached by nobody. A frame of at most
1024 bytes, or of more than the largest buffer class, is decoded into such a block, and its
message reads the same for ever.
-/

namespace Zrpc.Proofs

open Zrpc.Lib

/-! ### Blocks -/

section Blocks

variable (h : Heap)

/-- Some size class holds the block. -/
def Pooled (b : Nat) : Prop := ∃ i, b ∈ h.pools i

lemma content_alloc (cap b : Nat) (hb : b < h.blocks.length) :
    (h.alloc cap).1.content b = h.content b := by
  simp only [Heap.alloc, Heap.content, List.getD_eq_getElem?_getD, List.getElem?_append_left hb]

lemma content_alloc_self (cap : Nat) :
    ((h.alloc cap).1.content h.blocks.length).length = cap := by
  simp [Heap.alloc, Heap.content]

lemma content_write_of_ne {b c : Nat} (offset : Nat) (bs : Bytes) (hne : c ≠ b) :
    (h.write b offset bs).content c = h.content c := by
  simp only [Heap.write, Heap.content, List.getD_eq_getElem?_getD,
    List.getElem?_set_ne (Ne.symm hne)]

lemma content_write_self {b : Nat} (offset : Nat) (bs : Bytes) (hb : b < h.blocks.length) :
    (h.write b offset bs).content b = Heap.overwrite (h.content b) offset bs := by
  simp [Heap.write, Heap.content, hb]

lemma length_write (b offset : Nat) (bs : Bytes) :
    (h.write b offset bs).blocks.length = h.blocks.length := by
  simp [Heap.write]

lemma overwrite_full {old bs : Bytes} (hlen : bs.length = old.length) :
    Heap.overwrite old 0 bs = bs := by
  simp [Heap.overwrite, hlen]

lemma pooled_put {b c : Nat} (hp : Pooled (h.put b) c) : Pooled h c ∨ c = b := by
  obtain ⟨i, hi⟩ := hp
  have hinto : ∀ j, c ∈ (h.putInto j b).pools i → Pooled h c ∨ c = b := by
    intro j hj
    simp only [Heap.putInto] at hj
    by_cases hij : i = j
    · subst hij
      rw [Function.update_self] at hj
      rcases List.mem_cons.mp hj with rfl | hj
      · exact .inr rfl
      · exact .inl ⟨i, hj⟩
    · rw [Function.update_of_ne hij] at hj
      exact .inl ⟨i, hj⟩
  unfold Heap.put at hi
  dsimp only at hi
  split at hi
  · exact .inl ⟨i, hi⟩
  · split at hi <;> exact hinto _ hi

lemma blocks_put (b : Nat) : (h.put b).blocks = h.blocks := by
  unfold Heap.put
  dsimp only
  split
  · rfl
  · split <;> rfl

/-- A buffer above the largest class is not pooled. -/
lemma put_large {b : Nat} (hb : maxSize < (h.content b).length) : h.put b = h := by
  unfold Heap.put
  rw [if_pos (.inr hb)]

/-- What `Get` does to the heap: the pools only lose elements, old blocks keep their contents, and
the buffer it delivers was in a pool or is new. -/
structure GetSpec (h' : Heap) (r : Go Nat) : Prop where
  length_le : h.blocks.length ≤ h'.blocks.length
  content : ∀ b < h.blocks.length, h'.content b = h.content b
  pooled : ∀ b, Pooled h' b → Pooled h b
  result : ∀ b, r = .ok b → Pooled h b ∨ b = h.blocks.length ∧ b < h'.blocks.length

lemma getSpec_alloc (cap : Nat) : GetSpec h (h.alloc cap).1 (.ok (h.alloc cap).2) := by
  refine ⟨by simp [Heap.alloc], fun b hb => content_alloc h cap b hb, fun b hb => hb, ?_⟩
  intro b hb
  cases hb
  exact .inr ⟨rfl, by simp [Heap.alloc]⟩

lemma getSpec_takeFrom (i : Nat) (choice : Option Nat) :
    GetSpec h (h.takeFrom i choice).1 (.ok (h.takeFrom i choice).2) := by
  unfold Heap.takeFrom
  split
  · rename_i b hb
    obtain ⟨j, -, hj⟩ := Option.bind_eq_some_iff.mp hb
    have hmem : b ∈ h.pools i := List.mem_of_getElem? hj
    refine ⟨le_refl _, fun _ _ => rfl, ?_, ?_⟩
    · rintro c ⟨k, hk⟩
      dsimp only at hk
      by_cases hki : k = i
      · subst hki
        rw [Function.update_self] at hk
        exact ⟨k, List.mem_of_mem_erase hk⟩
      · rw [Function.update_of_ne hki] at hk
        exact ⟨k, hk⟩
    · intro c hc
      cases hc
      exact .inl ⟨i, hmem⟩
  · exact getSpec_alloc h _

lemma getSpec_reslice (size : Nat) {r : Heap × Nat} (hr : GetSpec h r.1 (.ok r.2)) :
    GetSpec h (Heap.reslice size r).1 (Heap.reslice size r).2 := by
  refine ⟨hr.length_le, hr.content, hr.pooled, fun b hb => ?_⟩
  unfold Heap.reslice at hb
  dsimp only at hb
  split at hb
  · exact hr.result b hb
  · cases hb

lemma getSpec_get (size : Nat) (choice : Option Nat) :
    GetSpec h (h.get size choice).1 (h.get size choice).2 := by
  unfold Heap.get
  split
  · exact getSpec_alloc h 0
  · split
    · exact getSpec_reslice h size (getSpec_takeFrom h _ choice)
    · split
      · exact getSpec_reslice h size (getSpec_takeFrom h _ choice)
      · exact getSpec_alloc h size

/-- Above the largest class `Get` makes a new buffer of the exact size. -/
lemma get_large {size : Nat} (choice : Option Nat) (hsize : maxSize < size) :
    h.get size choice = ((h.alloc size).1, .ok (h.alloc size).2) := by
  have hlarge : ∀ poolSize ∈ bufferPoolSizes, poolSize < size := by
    intro poolSize hp
    have hle : ∀ p ∈ bufferPoolSizes, p ≤ maxSize := by decide
    exact lt_of_le_of_lt (hle poolSize hp) hsize
  have hfind : findPool size = none := by
    unfold findPool
    rw [List.findIdx?_eq_none_iff]
    intro p hp
    simpa using Nat.ne_of_gt (hlarge p hp)
  have hfit : findBestFitPool size = none := by
    unfold findBestFitPool
    rw [List.findIdx?_eq_none_iff]
    intro p hp
    simpa using hlarge p hp
  unfold Heap.get
  rw [if_neg (by omega), hfind, hfit]

end Blocks

/-! ### What a step can reach -/

/-- The block can be reached: it is in a pool, or under a live handle other than `o`. -/
def Live (s : HeapState) (o : Option Nat) (b : Nat) : Prop :=
  Pooled s.heap b ∨ ∃ j h, s.handles[j]? = some h ∧ o ≠ some j ∧ h.owner ≠ .finished ∧ h.block = b

/-- Between two states only reachable blocks were written, and only new blocks became reachable. -/
structure Footprint (s t : HeapState) (o : Option Nat) : Prop where
  length_le : s.heap.blocks.length ≤ t.heap.blocks.length
  live : ∀ b, Live t o b → Live s o b ∨ s.heap.blocks.length ≤ b ∧ b < t.heap.blocks.length
  content : ∀ b < s.heap.blocks.length, ¬Live s o b → t.heap.content b = s.heap.content b

section Footprints

variable {s t : HeapState} {o : Option Nat} {b : Nat}

/-- A step that works on one reachable block. -/
lemma footprint_at (hb : Live s o b) (hlen : t.heap.blocks.length = s.heap.blocks.length)
    (hpool : ∀ c, Pooled t.heap c → Pooled s.heap c ∨ c = b)
    (hcontent : ∀ c, c ≠ b → t.heap.content c = s.heap.content c)
    (hhandles : ∀ (j : Nat) (h : Handle), t.handles[j]? = some h → h.owner ≠ .finished →
      s.handles[j]? = some h) :
    Footprint s t o := by
  refine ⟨hlen.ge, ?_, ?_⟩
  · rintro c (hc | ⟨j, h, hj, ho, hown, rfl⟩)
    · rcases hpool c hc with hc | rfl
      · exact .inl (.inl hc)
      · exact .inl hb
    · exact .inl (.inr ⟨j, h, hhandles j h hj hown, ho, hown, rfl⟩)
  · intro c _ hc
    exact hcontent c (fun he => hc (he ▸ hb))

/-- A step that adds a handle of a buffer from `Get` or `make`. -/
lemma footprint_add {h' : Heap} (spec : GetSpec s.heap h' (.ok b)) (bs : Bytes) (size : Nat)
    (owner : Owner) : Footprint s
      { s with heap := h'.write b 0 bs, handles := s.handles ++ [⟨b, size, owner⟩] } o := by
  have hlen := length_write h' b 0 bs
  have hb := spec.result b rfl
  have hnew : ∀ o', Live s o' b ∨ s.heap.blocks.length ≤ b ∧ b < h'.blocks.length := by
    intro o'
    rcases hb with hb | ⟨rfl, hb⟩
    · exact .inl (.inl hb)
    · exact .inr ⟨le_refl _, hb⟩
  refine ⟨hlen ▸ spec.length_le, ?_, ?_⟩
  · dsimp only
    rw [hlen]
    rintro c (hc | ⟨j, h, hj, ho, hown, rfl⟩)
    · exact .inl (.inl (spec.pooled c hc))
    · rcases getElem?_concat_cases hj with hold | ⟨-, rfl⟩
      · exact .inl (.inr ⟨j, h, hold, ho, hown, rfl⟩)
      · exact hnew o
  · intro c hc hlive
    have hne : c ≠ b := by
      rintro rfl
      rcases hnew o with hl | hl
      · exact hlive hl
      · omega
    rw [content_write_of_ne h' 0 bs hne]
    exact spec.content c hc

/-- A `Get` that panicked after taking a buffer from its pool. -/
lemma footprint_lose {h' : Heap} {e : Fault} (spec : GetSpec s.heap h' (.error e)) :
    Footprint s { s with heap := h' } o := by
  refine ⟨spec.length_le, ?_, fun c hc _ => spec.content c hc⟩
  rintro c (hc | hc)
  · exact .inl (.inl (spec.pooled c hc))
  · exact .inl (.inr hc)

lemma footprint_put (hb : Live s o b) : Footprint s { s with heap := s.heap.put b } o := by
  refine footprint_at hb ?_ (fun c hc => pooled_put s.heap hc) ?_ (fun j h hj _ => hj)
  · rw [blocks_put]
  · intro c _
    unfold Heap.content
    rw [blocks_put]

lemma footprint_write (hb : Live s o b) (offset : Nat) (bs : Bytes) :
    Footprint s { s with heap := s.heap.write b offset bs } o :=
  footprint_at hb (length_write _ _ _ _) (fun _ hc => .inl hc)
    (fun _ hne => content_write_of_ne s.heap offset bs hne) (fun _ _ hj _ => hj)

lemma write_nil (h : Heap) (b : Nat) : h.write b 0 [] = h := by
  have hset : h.blocks.set b (h.blocks.getD b []) = h.blocks := by
    rcases Nat.lt_or_ge b h.blocks.length with hlt | hge
    · simp [hlt]
    · exact List.set_eq_of_length_le hge
  simp only [Heap.write, Heap.overwrite, Heap.content, List.take_zero, List.nil_append,
    List.append_nil, List.length_nil, Nat.add_zero, List.drop_zero, hset]

lemma footprint_getBuffer (size : Nat) (choice : Option Nat) (owner : Owner) (bs : Bytes) :
    Footprint s (s.getBuffer size choice owner bs) o := by
  have spec := getSpec_get s.heap size choice
  unfold HeapState.getBuffer
  split
  · rename_i h' b heq
    rw [heq] at spec
    exact footprint_add spec bs size owner
  · rename_i h' e heq
    rw [heq] at spec
    exact footprint_lose spec

lemma footprint_makeBuffer (cap : Nat) (owner : Owner) :
    Footprint s (s.makeBuffer cap owner) o := by
  have h := footprint_add (o := o) (getSpec_alloc s.heap cap) [] cap owner
  rw [write_nil] at h
  exact h

lemma footprint_release {i : Nat} {h : Handle} (hi : s.handles[i]? = some h)
    (hown : h.owner ≠ .finished) (ho : o ≠ some i) (data : Bytes) :
    Footprint s (s.release i h data) o := by
  have hlive : Live s o h.block := .inr ⟨i, h, hi, ho, hown, rfl⟩
  refine footprint_at hlive ?_ ?_ ?_ ?_
  · dsimp only [HeapState.release]
    split
    · exact length_write _ _ _ _
    · rw [blocks_put]
      exact length_write _ _ _ _
  · dsimp only [HeapState.release]
    intro c hc
    split at hc
    · exact .inl hc
    · exact pooled_put (s.heap.write h.block 0 data) hc
  · intro c hne
    have hw := content_write_of_ne s.heap 0 data hne
    dsimp only [HeapState.release]
    split
    · exact hw
    · unfold Heap.content
      rw [blocks_put]
      exact hw
  · intro j h' hj hown'
    rcases getElem?_set_cases hj with ⟨-, rfl⟩ | ⟨-, hold⟩
    · exact absurd rfl hown'
    · exact hold

end Footprints

/-- The handle an action works on. -/
def actionTarget : HeapAction → Option Nat
  | .put i | .write i _ _ | .decodeEnd i _ _ | .decodeShort i _ => some i
  | .get _ _ | .alloc _ | .encode _ _ _ | .decodeBegin _ _ => none

/-- The steps of `heapStep`, each with what it needs. -/
inductive HeapMove (E : Env) (s : HeapState) : HeapAction → HeapState → Prop
  | getBuffer {a size choice owner bs} (ha : actionTarget a = none) (hbs : bs.length ≤ size)
    (hown : owner = .decoder → ∃ choice, a = .decodeBegin size choice) :
    HeapMove E s a (s.getBuffer size choice owner bs)
  | alloc {cap} : HeapMove E s (.alloc cap) (s.makeBuffer cap .caller)
  | decodeShort {dataLen choice} (hshort : dataLen ≤ 1024) :
    HeapMove E s (.decodeBegin dataLen choice) (s.makeBuffer dataLen .decoder)
  | put {i b len} (hi : s.handles[i]? = some ⟨b, len, .caller⟩) :
    HeapMove E s (.put i) { s with heap := s.heap.put b }
  | write {i b len offset bs} (hi : s.handles[i]? = some ⟨b, len, .caller⟩)
    (hfit : offset + bs.length ≤ len) :
    HeapMove E s (.write i offset bs) { s with heap := s.heap.write b offset bs }
  | release {a i b len data} (hi : s.handles[i]? = some ⟨b, len, .decoder⟩)
    (ha : actionTarget a = some i) (hlen : data.length ≤ len) (ret : List Returned)
    (hret : ∀ d ∈ ret, data.length = len ∧ ∃ header layout m, parseData data = .ok layout ∧
      decodeMessageData E header data = .ok m ∧
      d = returnedMessage E (s.heap.write b 0 data) b len layout m) :
    HeapMove E s a { s.release i ⟨b, len, .decoder⟩ data with returned := s.returned ++ ret }

section Step

variable {E : Env} {s t : HeapState} {a : HeapAction}

lemma heapMove_release {i b len : Nat} {data : Bytes} (hi : s.handles[i]? = some ⟨b, len, .decoder⟩)
    (ha : actionTarget a = some i) (hlen : data.length ≤ len) :
    HeapMove E s a (s.release i ⟨b, len, .decoder⟩ data) := by
  have h := HeapMove.release (E := E) hi ha hlen [] (by simp)
  rw [List.append_nil] at h
  exact h

lemma heapStep_move (h : heapStep E s a = some t) : HeapMove E s a t := by
  unfold heapStep at h
  cases a with
  | get size choice =>
    cases h
    exact .getBuffer rfl (Nat.zero_le _) (by simp)
  | alloc cap =>
    cases h
    exact .alloc
  | put i =>
    dsimp only at h
    split at h
    · rename_i b len hi
      cases h
      exact .put hi
    · cases h
  | write i offset bs =>
    dsimp only at h
    split at h
    · rename_i b len hi
      split at h
      · rename_i hfit
        cases h
        exact .write hi hfit
      · cases h
    · cases h
  | encode m c choice =>
    dsimp only at h
    split at h
    · cases h
      exact .getBuffer rfl (le_refl _) (by simp)
    · cases h
  | decodeBegin dataLen choice =>
    dsimp only at h
    split at h
    · rename_i hshort
      cases h
      exact .decodeShort hshort
    · cases h
      exact .getBuffer rfl (Nat.zero_le _) (fun _ => ⟨choice, rfl⟩)
  | decodeEnd i header data =>
    dsimp only at h
    split at h
    · rename_i b len hi
      split at h
      · rename_i hlen
        split at h
        · rename_i layout m hl hm
          cases h
          refine .release hi rfl hlen.le _ fun d hd => ?_
          rw [List.mem_singleton.mp hd]
          exact ⟨hlen, header, layout, m, hl, hm, rfl⟩
        · cases h
          exact heapMove_release hi rfl hlen.le
      · cases h
    · cases h
  | decodeShort i data =>
    dsimp only at h
    split at h
    · rename_i b len hi
      split at h
      · rename_i hlen
        cases h
        exact heapMove_release hi rfl hlen.le
      · cases h
    · cases h

lemma HeapMove.footprint {o : Option Nat} (ho : ∀ i, actionTarget a = some i → o ≠ some i)
    (h : HeapMove E s a t) : Footprint s t o := by
  cases h with
  | getBuffer ha hbs hown => exact footprint_getBuffer _ _ _ _
  | alloc => exact footprint_makeBuffer _ _
  | decodeShort hshort => exact footprint_makeBuffer _ _
  | put hi => exact footprint_put (.inr ⟨_, _, hi, ho _ rfl, by simp, rfl⟩)
  | write hi hfit => exact footprint_write (.inr ⟨_, _, hi, ho _ rfl, by simp, rfl⟩) _ _
  | release hi ha hlen ret hret =>
    rename_i i b len data
    have hrel := footprint_release hi (by simp) (ho _ ha) data
    exact ⟨hrel.length_le, hrel.live, hrel.content⟩

end Step

/-! ### Messages -/

/-- A view of block `b`, or a text of its own. -/
def TextOn (b : Nat) : GoText → Prop
  | .view c _ => c = b
  | .owned _ => True

structure MessageOn (b : Nat) (d : Returned) : Prop where
  serviceName : TextOn b d.serviceName
  serviceMethod : TextOn b d.serviceMethod
  metadata : ∀ e ∈ d.metadata, TextOn b e.1 ∧ ∀ v ∈ e.2, TextOn b v

lemma read_congr {h h' : Heap} {b : Nat} (hc : h'.content b = h.content b) {x : GoText}
    (hx : TextOn b x) : x.read h' = x.read h := by
  cases x with
  | view c span =>
    cases hx
    simp only [GoText.read, hc]
  | owned s => rfl

lemma readMetadata_congr {h h' : Heap} {b : Nat} (hc : h'.content b = h.content b) {d : Returned}
    (hd : ∀ e ∈ d.metadata, TextOn b e.1 ∧ ∀ v ∈ e.2, TextOn b v) :
    d.readMetadata h' = d.readMetadata h := by
  unfold Returned.readMetadata
  refine List.foldl_ext _ _ _ fun md e he => ?_
  refine List.foldl_ext _ _ _ fun md v hv => ?_
  rw [read_congr hc (hd e he).1, read_congr hc ((hd e he).2 v hv)]

/-- A message whose block has not changed still reads as decoded. -/
lemma readsAsDecoded_congr {h h' : Heap} {b : Nat} (hc : h'.content b = h.content b) {d : Returned}
    (hd : MessageOn b d) (hr : d.ReadsAsDecoded h) : d.ReadsAsDecoded h' :=
  ⟨(read_congr hc hd.serviceName).trans hr.serviceName,
    (read_congr hc hd.serviceMethod).trans hr.serviceMethod,
    (readMetadata_congr hc hd.metadata).trans hr.metadata⟩

lemma read_lowerView (E : Env) (h : Heap) (b : Nat) (span : Span) :
    (lowerView E h b span).read h = E.toLower (span.text (h.content b)) := by
  unfold lowerView
  dsimp only
  split
  · rename_i heq
    exact heq.symm
  · rfl

lemma messageOn_returnedMessage (E : Env) (h : Heap) (b n : Nat) (layout : Layout) (m : Message) :
    MessageOn b (returnedMessage E h b n layout m) := by
  refine ⟨rfl, rfl, fun e he => ?_⟩
  obtain ⟨p, -, rfl⟩ := List.mem_map.mp he
  refine ⟨?_, fun v hv => ?_⟩
  · dsimp only [lowerView]
    split
    · rfl
    · trivial
  · obtain ⟨span, -, rfl⟩ := List.mem_map.mp hv
    rfl

/-- When `Decode` returns, the message reads as what was decoded. -/
lemma readsAsDecoded_returnedMessage {E : Env} {h : Heap} {b n : Nat} {header : Header}
    {data : Bytes} {layout : Layout} {m : Message} (hc : h.content b = data)
    (hl : parseData data = .ok layout) (hm : decodeMessageData E header data = .ok m) :
    (returnedMessage E h b n layout m).ReadsAsDecoded h := by
  unfold decodeMessageData decodeMessageDataWith at hm
  rw [hl] at hm
  simp only [Bind.bind, Except.bind] at hm
  split at hm
  · cases hm
  · cases hm
    refine ⟨?_, ?_, ?_⟩
    · simp only [returnedMessage, GoText.read, hc]
    · simp only [returnedMessage, GoText.read, hc]
    · unfold Returned.readMetadata Layout.metadata returnedMessage
      dsimp only
      rw [List.foldl_map]
      refine List.foldl_ext _ _ _ fun md e _ => ?_
      rw [List.foldl_map]
      refine List.foldl_ext _ _ _ fun md v _ => ?_
      rw [read_lowerView, hc]
      simp only [GoText.read, hc, MD.append, List.length_singleton, one_ne_zero, if_false]

/-! ### The invariant -/

lemma ownFrame_iff {dataLen : Nat} : ownFrame dataLen = true ↔ dataLen ≤ 1024 ∨ maxSize < dataLen := by
  simp [ownFrame]

/-- Every reachable block exists; the block of a `Decode` with memory of its own is reachable only by
it; and the block of a message that was returned with such memory is out of reach and unchanged. -/
structure HeapInv (s : HeapState) : Prop where
  bounded : ∀ b, Live s none b → b < s.heap.blocks.length
  decoding : ∀ (i : Nat) (h : Handle), s.handles[i]? = some h → h.owner = .decoder →
    ownFrame h.len = true → h.block < s.heap.blocks.length ∧ ¬Live s (some i) h.block ∧
      (s.heap.content h.block).length = h.len
  returned : ∀ d ∈ s.returned, ownFrame d.dataLen = true → ∃ b < s.heap.blocks.length,
    ¬Live s none b ∧ MessageOn b d ∧ d.ReadsAsDecoded s.heap

lemma Footprint.not_live {s t : HeapState} {o : Option Nat} (f : Footprint s t o) {b : Nat}
    (hb : b < s.heap.blocks.length) (hl : ¬Live s o b) : ¬Live t o b := by
  intro ht
  rcases f.live b ht with h | h
  · exact hl h
  · omega

section Step

variable {E : Env} {s t : HeapState} {a : HeapAction}

/-- A frame with memory of its own is decoded into a new block. -/
lemma decodeBegin_own {n : Nat} (choice : Option Nat) (hn : ownFrame n = true) :
    heapStep E s (.decodeBegin n choice) = some (s.makeBuffer n .decoder) := by
  unfold heapStep
  dsimp only
  split
  · rfl
  · rename_i hle
    have hlarge : maxSize < n := (ownFrame_iff.mp hn).resolve_left hle
    unfold HeapState.getBuffer HeapState.makeBuffer
    rw [get_large s.heap choice hlarge]
    dsimp only
    rw [write_nil]

/-- A `Get` adds one handle, or none if it panics. -/
lemma getBuffer_handles {i size : Nat} {choice : Option Nat} {owner : Owner} {bs : Bytes} {x : Handle}
    (hx : (s.getBuffer size choice owner bs).handles[i]? = some x) :
    s.handles[i]? = some x ∨ i = s.handles.length ∧ x.len = size ∧ x.owner = owner := by
  unfold HeapState.getBuffer at hx
  split at hx
  · rcases getElem?_concat_cases hx with hold | ⟨hi, rfl⟩
    · exact .inl hold
    · exact .inr ⟨hi, rfl, rfl⟩
  · exact .inl hx

lemma getBuffer_returned (size : Nat) (choice : Option Nat) (owner : Owner) (bs : Bytes) :
    (s.getBuffer size choice owner bs).returned = s.returned := by
  unfold HeapState.getBuffer
  split <;> rfl

/-- A `Decode` that is under way was so before, or has just begun. -/
lemma HeapMove.decoder (h : HeapMove E s a t) {i : Nat} {x : Handle}
    (hx : t.handles[i]? = some x) (hown : x.owner = .decoder) :
    s.handles[i]? = some x ∧ actionTarget a ≠ some i ∨
      (∃ choice, a = .decodeBegin x.len choice) ∧ i = s.handles.length := by
  cases h with
  | getBuffer ha hbs hbegin =>
    rcases getBuffer_handles hx with hold | ⟨hi, rfl, howner⟩
    · exact .inl ⟨hold, by simp [ha]⟩
    · exact .inr ⟨hbegin (howner.symm.trans hown), hi⟩
  | alloc =>
    rcases getElem?_concat_cases hx with hold | ⟨-, rfl⟩
    · exact .inl ⟨hold, nofun⟩
    · cases hown
  | decodeShort hshort =>
    rcases getElem?_concat_cases hx with hold | ⟨hi, rfl⟩
    · exact .inl ⟨hold, nofun⟩
    · exact .inr ⟨⟨_, rfl⟩, hi⟩
  | put hi | write hi hfit =>
    refine .inl ⟨hx, fun he => ?_⟩
    cases he
    cases hi.symm.trans hx
    cases hown
  | release hi ha hlen ret hret =>
    rcases getElem?_set_cases hx with ⟨-, rfl⟩ | ⟨hki, hold⟩
    · cases hown
    · exact .inl ⟨hold, by simpa [ha] using hki⟩

/-- The block of such a `Decode` that has just returned is out of reach and holds the data. -/
lemma release_own (hs : HeapInv s) {i b len : Nat} {data : Bytes} (ret : List Returned)
    (hi : s.handles[i]? = some ⟨b, len, .decoder⟩) (hlen : data.length = len)
    (hu : ownFrame len = true) :
    b < s.heap.blocks.length ∧ (s.heap.write b 0 data).content b = data ∧
      (s.release i ⟨b, len, .decoder⟩ data).heap = s.heap.write b 0 data ∧
      ¬Live { s.release i ⟨b, len, .decoder⟩ data with returned := s.returned ++ ret } none b := by
  obtain ⟨hb, hlive, hcap⟩ := hs.decoding i _ hi rfl hu
  have hcontent : (s.heap.write b 0 data).content b = data := by
    rw [content_write_self s.heap 0 data hb, overwrite_full (hlen.trans hcap.symm)]
  have hheap : (s.release i ⟨b, len, .decoder⟩ data).heap = s.heap.write b 0 data := by
    dsimp only [HeapState.release]
    split
    · rfl
    · rename_i hle
      apply put_large
      rw [hcontent, hlen]
      exact (ownFrame_iff.mp hu).resolve_left hle
  refine ⟨hb, hcontent, hheap, ?_⟩
  rintro (hp | ⟨j, x, hj, -, hown, hxb⟩)
  · dsimp only at hp
    rw [hheap] at hp
    exact hlive (.inl hp)
  · rcases getElem?_set_cases hj with ⟨-, rfl⟩ | ⟨hij, hold⟩
    · exact hown rfl
    · exact hlive (.inr ⟨j, x, hold, by simpa using hij, hown, hxb⟩)

/-- The block of such a `Decode` that has just begun is reachable only by it. -/
lemma makeBuffer_decoding (hs : HeapInv s) {i : Nat} {x : Handle} (hi : i = s.handles.length)
    (hx : (s.makeBuffer x.len .decoder).handles[i]? = some x) :
    x.block < (s.makeBuffer x.len .decoder).heap.blocks.length ∧
      ¬Live (s.makeBuffer x.len .decoder) (some i) x.block ∧
      ((s.makeBuffer x.len .decoder).heap.content x.block).length = x.len := by
  have hblock : x.block = s.heap.blocks.length := by
    rcases getElem?_concat_cases hx with hold | ⟨-, hnew⟩
    · exact absurd (List.getElem?_eq_some_iff.mp hold).1 (by omega)
    · exact congrArg Handle.block hnew
  rw [hblock]
  refine ⟨by simp [HeapState.makeBuffer, Heap.alloc], ?_, content_alloc_self s.heap x.len⟩
  rintro (hp | ⟨j, y, hj, hji, hown, hyb⟩)
  · exact absurd (hs.bounded _ (.inl hp)) (lt_irrefl _)
  · rcases getElem?_concat_cases hj with hold | ⟨hlast, -⟩
    · exact absurd (hs.bounded _ (.inr ⟨j, y, hold, by simp, hown, hyb⟩)) (lt_irrefl _)
    · exact hji (by rw [hi, hlast])

lemma heapStep_inv (hs : HeapInv s) (h : heapStep E s a = some t) : HeapInv t := by
  have hmove := heapStep_move h
  have hfoot : Footprint s t none := hmove.footprint (by simp)
  have hold : ∀ d ∈ s.returned, ownFrame d.dataLen = true → ∃ b < t.heap.blocks.length,
      ¬Live t none b ∧ MessageOn b d ∧ d.ReadsAsDecoded t.heap := by
    intro d hd hu
    obtain ⟨b, hb, hlive, hon, hread⟩ := hs.returned d hd hu
    exact ⟨b, hb.trans_le hfoot.length_le, hfoot.not_live hb hlive, hon,
      readsAsDecoded_congr (hfoot.content b hb hlive) hon hread⟩
  refine ⟨?_, ?_, ?_⟩
  · intro b hb
    rcases hfoot.live b hb with hl | hl
    · exact (hs.bounded b hl).trans_le hfoot.length_le
    · exact hl.2
  · intro i x hx hown hu
    rcases hmove.decoder hx hown with ⟨hi, hne⟩ | ⟨⟨choice, rfl⟩, hi⟩
    · have hfi : Footprint s t (some i) := hmove.footprint (fun k hk hki => by simp_all)
      obtain ⟨hb, hlive, hcap⟩ := hs.decoding i x hi hown hu
      exact ⟨hb.trans_le hfi.length_le, hfi.not_live hb hlive, by rw [hfi.content _ hb hlive, hcap]⟩
    · rw [decodeBegin_own choice hu] at h
      cases h
      exact makeBuffer_decoding hs hi hx
  · intro d hd hu
    cases hmove with
    | getBuffer ha hbs hown =>
      rw [getBuffer_returned] at hd
      exact hold d hd hu
    | alloc | decodeShort hshort | put hi | write hi hfit => exact hold d hd hu
    | release hi ha hle ret hret =>
      rcases List.mem_append.mp hd with hd | hd
      · exact hold d hd hu
      · obtain ⟨hlen, header, layout, m, hl, hm, rfl⟩ := hret d hd
        obtain ⟨hb, hcontent, hheap, hlive⟩ := release_own hs ret hi hlen hu
        refine ⟨_, hb.trans_le hfoot.length_le, hlive, messageOn_returnedMessage _ _ _ _ _ _, ?_⟩
        dsimp only
        rw [hheap]
        exact readsAsDecoded_returnedMessage hcontent hl hm

end Step

/-- In every run of `Decode`, `Encode` and pool operations, a message that `Decode` has returned
for a frame of at most 1024 bytes, or of more bytes than the largest buffer class, reads as it was
decoded. -/
theorem decoded_message_stable (E : Env) (as : List HeapAction) (s : HeapState)
    (h : exec (heapStep E) .init as = some s) (d : Returned) (hd : d ∈ s.returned)
    (hlen : d.dataLen ≤ 1024 ∨ maxSize < d.dataLen) : d.ReadsAsDecoded s.heap := by
  have hinit : HeapInv .init := by
    refine ⟨?_, ?_, ?_⟩
    · rintro b (⟨i, hi⟩ | ⟨j, x, hj, -⟩)
      · cases hi
      · cases hj
    · intro i x hi
      cases hi
    · intro d hd
      cases hd
  have hinv : HeapInv s := exec_invariant HeapInv (fun _ _ _ hs ht => heapStep_inv hs ht) hinit h
  obtain ⟨b, -, -, -, hread⟩ := hinv.returned d hd (ownFrame_iff.mpr hlen)
  exact hread

/-- The data of a frame with a service name and a payload of `pad` zeros. -/
def nameFrame (name : GoString) (pad : Nat) : Bytes :=
  lp name ++ lp (str "Get") ++ lp [] ++ lp (List.replicate pad 0)

/-- Two frames are decoded one after the other; the second may be given the buffer of the first. -/
def twoFrames (pad : Nat) : List HeapAction :=
  [.decodeBegin (23 + pad) none, .decodeEnd 0 newMessage.header (nameFrame (str "Cart") pad),
    .decodeBegin (23 + pad) (some 0), .decodeEnd 1 newMessage.header (nameFrame (str "User") pad)]

theorem decoded_message_stable_sample : ∃ s d, exec (heapStep storedEnv) .init (twoFrames 1) = some s ∧
    d ∈ s.returned ∧ d.ReadsAsDecoded s.heap :=
  ⟨_, _, rfl, List.mem_cons_self, decoded_message_stable storedEnv (twoFrames 1) _ rfl _
    List.mem_cons_self (.inl (by decide))⟩

lemma twoFrames_names : (exec (heapStep storedEnv) .init (twoFrames 1100)).map (fun s =>
    s.returned.map (fun d => (d.serviceName.read s.heap, d.decoded.serviceName))) =
      some [(str "User", str "Cart"), (str "User", str "User")] := by
  decide +kernel

/-- Frames of 1123 bytes: the first message's service name reads as the second's. -/
theorem twoFrames_not_stable : ∃ s, exec (heapStep storedEnv) .init (twoFrames 1100) = some s ∧
    ∃ d ∈ s.returned, ¬d.ReadsAsDecoded s.heap := by
  obtain ⟨s, hs, hnames⟩ := Option.map_eq_some_iff.mp twoFrames_names
  have hmem : (str "User", str "Cart") ∈ s.returned.map (fun d =>
      (d.serviceName.read s.heap, d.decoded.serviceName)) := by
    rw [hnames]
    exact List.mem_cons_self
  obtain ⟨d, hd, heq⟩ := List.mem_map.mp hmem
  refine ⟨s, hs, d, hd, fun hread => ?_⟩
  obtain ⟨hnow, hthen⟩ := Prod.mk.inj heq
  exact absurd (hnow.symm.trans (hread.serviceName.trans hthen)) (by decide)

end Zrpc.Proofs
