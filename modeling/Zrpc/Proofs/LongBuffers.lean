import Zrpc.BufferSlice
import Zrpc.Proofs.PoolCapacity

/-!
# What short buffers cannot spoil

A buffer shorter than every class goes into the smallest one, so a `Get` of more than 128 bytes
delivers whatever anybody has put. `ReadAll` and `Copy` ask for no less.
-/

namespace Zrpc.Proofs

open Zrpc.Lib

section Heap

variable {h : Heap}

lemma class_long {i size : Nat} (hsize : 128 < size) (hle : size ≤ bufferPoolSizes.getD i 0) :
    0 < i := by
  by_contra hzero
  have hi : i = 0 := by omega
  have hfirst : bufferPoolSizes.getD 0 0 = 128 := by decide
  rw [hi, hfirst] at hle
  omega

lemma ClassedFrom.takeFrom (hc : ClassedFrom 1 h) {i size : Nat} (hsize : 128 < size)
    (hle : size ≤ bufferPoolSizes.getD i 0) (choice : Option Nat) :
    size ≤ capacity (h.takeFrom i choice).1 (h.takeFrom i choice).2 := by
  unfold Heap.takeFrom
  split
  · next b hb =>
    obtain ⟨j, -, hj⟩ := Option.bind_eq_some_iff.mp hb
    exact hle.trans (hc i (class_long hsize hle) b (List.mem_of_getElem? hj))
  · exact hle.trans (content_alloc_self h _).ge

lemma ClassedFrom.get_ok (hc : ClassedFrom 1 h) {size : Nat} (hsize : 128 < size)
    (choice : Option Nat) : ∃ b, (h.get size choice).2 = .ok b := by
  have hslice : ∀ i, size ≤ bufferPoolSizes.getD i 0 →
      ∃ b, (Heap.reslice size (h.takeFrom i choice)).2 = .ok b := by
    intro i hle
    exact ⟨_, if_pos (hc.takeFrom hsize hle choice)⟩
  unfold Heap.get
  rw [if_neg (by omega)]
  split
  · next i hfind => exact hslice i (findPool_some hfind).2.ge
  · split
    · next i hfit => exact hslice i (findBestFitPool_some hfit).2
    · exact ⟨_, rfl⟩

end Heap

lemma Sliced.step_long {E : Env} {s t : HeapState} {a : HeapAction} (hs : Sliced s)
    (hc : ClassedFrom 1 s.heap) (h : heapStep E s a = some t) :
    Sliced t ∧ ClassedFrom 1 t.heap := by
  cases heapStep_move h with
  | getBuffer _ hbs _ => exact hs.getBuffer _ _ _ hbs hc
  | alloc => exact hs.makeBuffer hc _ _
  | decodeShort _ => exact hs.makeBuffer hc _ _
  | put hi =>
    exact ⟨hs.put (hs.handles _ (List.mem_of_getElem? hi)).1, hc.put (.inr (.inr Nat.one_pos))⟩
  | write hi hfit =>
    have hcap := hfit.trans (hs.handles _ (List.mem_of_getElem? hi)).2
    exact ⟨hs.write hcap, hc.write hcap⟩
  | release hi _ hlen ret _ => exact hs.release hc hi hlen _

/-- After any use of the pool, with buffers of any capacity put into it, a `Get` of more than 128
bytes delivers them. -/
theorem long_get_delivers (E : Env) {as : List HeapAction} {s : HeapState}
    (h : exec (heapStep E) HeapState.init as = some s) {size : Nat} (hsize : 128 < size)
    (choice : Option Nat) :
    ∃ h' b, s.heap.get size choice = (h', .ok b) ∧ size ≤ capacity h' b := by
  have hinv := exec_invariant (fun s : HeapState => Sliced s ∧ ClassedFrom 1 s.heap)
    (fun s a t hs ht => hs.1.step_long hs.2 ht)
    ⟨sliced_init, fun i _ => stocked_empty.classed i⟩ h
  obtain ⟨b, hb⟩ := hinv.2.get_ok hsize choice
  exact ⟨_, b, Prod.ext rfl hb, get_ok_size hb⟩

/-- So `ReadAll` gets the capacity it asks for, and `Copy` that of the chunks it pools. -/
theorem readAll_get_delivers (E : Env) {as : List HeapAction} {s : HeapState}
    (h : exec (heapStep E) HeapState.init as = some s) {size : Nat}
    (hsize : size = readAllBufSize ∨ isLessBufferPoolThreshold size = false)
    (choice : Option Nat) :
    ∃ h' b, s.heap.get size choice = (h', .ok b) ∧ size ≤ capacity h' b := by
  refine long_get_delivers E h ?_ choice
  rcases hsize with rfl | hlong
  · decide
  · have hgt : ¬size ≤ bufferPoolingThreshold := of_decide_eq_false hlong
    have hthreshold : bufferPoolingThreshold = 1024 := by decide
    omega

end Zrpc.Proofs
