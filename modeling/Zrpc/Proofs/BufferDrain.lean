import Zrpc.BufferRead
import Zrpc.Lib.Ensures
import Zrpc.Proofs.BufferReturns

/-!
# Reading a buffer to its end

A caller reads a `Buffer` in chunks until `Read` returns nil. On a plain slice that ends with all of
its bytes. On a pooled buffer it does if the last `Read` may free it, for which the counter must not
have wrapped. The empty buffer returns itself from every `Read`, so the loop goes on for ever.
-/

namespace Zrpc.Proofs

open Zrpc.Lib RefState

/-- Reading `b` in chunks of `k` bytes ends, and delivers what `b` shows before. -/
def Drains (k : Nat) (h : BufferHeap) (b : Buffer) : Prop :=
  ∃ fuel h' data, b.readOnlyData h = .ok data ∧
    drain (Buffer.drainStep k) fuel (h, b) = .ok (some (h', data))

section Slices

variable {h : BufferHeap} {k : Nat}

lemma drainStep_sliceBuffer (h : BufferHeap) (k : Nat) (s : Bytes) :
    Buffer.drainStep k (h, .sliceBuffer s) =
      if s.length ≤ k then .ok (s, .inl h)
      else .ok (s.take k, .inr (h, .sliceBuffer (s.drop k))) := by
  unfold Buffer.drainStep Buffer.read
  dsimp only
  by_cases hle : s.length ≤ k
  · rw [if_pos hle, Nat.min_eq_right hle, if_pos rfl, List.take_length]
  · rw [if_neg hle, Nat.min_eq_left (by omega), if_neg (by omega)]

lemma drains_sliceBuffer (hk : 1 ≤ k) (s : Bytes) : Drains k h (.sliceBuffer s) := by
  let content : BufferHeap × Buffer → Bytes := fun x =>
    match x.2 with
    | .sliceBuffer s => s
    | _ => []
  obtain ⟨fuel, h', hdrain⟩ := drain_content (Buffer.drainStep k)
    (fun x => ∃ s, x.2 = .sliceBuffer s) content (s := (h, .sliceBuffer s)) (by
      rintro ⟨h, b⟩ ⟨s, rfl⟩
      rw [drainStep_sliceBuffer]
      by_cases hle : s.length ≤ k
      · exact .inl ⟨h, if_pos hle⟩
      · refine .inr ⟨s.take k, (h, .sliceBuffer (s.drop k)), if_neg hle, ?_, ?_, _, rfl⟩
        · intro hnil
          have hlen := congrArg List.length hnil
          rw [List.length_take, List.length_nil] at hlen
          omega
        · exact (List.take_append_drop k s).symm) ⟨s, rfl⟩
  exact ⟨fuel, h', s, rfl, hdrain⟩

/-- Every `Read` of the empty buffer returns the empty buffer. -/
lemma drain_emptyBuffer (h : BufferHeap) (k fuel : Nat) :
    drain (Buffer.drainStep k) fuel (h, .emptyBuffer) = .ok none := by
  induction fuel with
  | zero => rfl
  | succ fuel ih =>
    rw [drain]
    dsimp only [Buffer.drainStep, Buffer.read]
    rw [ih]

end Slices

section Pooled

variable {Q : Bool → Prop} {κ : Nat → Nat} {h : BufferHeap} {refs : List Reference} {r : Reference}
  {k : Nat}

/-- The bytes that a struct shows are as many as it says. -/
lemma RefLeads.data_eq (hr : RefLeads Q κ h r) :
    h.data (h.struct r.buffer) =
      ((h.origin r.origin).drop (h.struct r.buffer).off).take (h.struct r.buffer).len := by
  rw [BufferHeap.data, hr.origin]

lemma RefLeads.length_data (hr : RefLeads Q κ h r) :
    (h.data (h.struct r.buffer)).length = (h.struct r.buffer).len := by
  have hin := hr.inside
  rw [hr.data_eq, List.length_take, List.length_drop]
  omega

/-- The heap in which the view of a struct has moved on by `n` bytes. -/
def moved (h : BufferHeap) (b n : Nat) : BufferHeap :=
  h.setStruct b { h.struct b with off := (h.struct b).off + n, len := (h.struct b).len - n }

lemma RefLeads.data_moved (hr : RefLeads Q κ h r) (n : Nat) :
    (moved h r.buffer n).data ((moved h r.buffer n).struct r.buffer) =
      (h.data (h.struct r.buffer)).drop n := by
  have hst := struct_setStruct_self hr.inUse { h.struct r.buffer with
    off := (h.struct r.buffer).off + n, len := (h.struct r.buffer).len - n }
  rw [moved, hst, hr.data_eq, List.drop_take, List.drop_drop]
  simp only [BufferHeap.data, hr.origin]
  rfl

lemma RefsCounted.moved (ho : RefsCounted Q κ h refs) (hr : r ∈ refs) (hlive : r.live = true)
    {n : Nat} (hn : n ≤ (h.struct r.buffer).len) : RefsCounted Q κ (moved h r.buffer n) refs :=
  ho.setView (ho.live r hr hlive).inUse (by omega)

/-- A turn of the loop on a pooled buffer: it frees the buffer, or moves its view. -/
lemma RefLeads.drainStep_eq (hr : RefLeads Q κ h r) (k : Nat) :
    Buffer.drainStep k (h, .buffer r.buffer) =
      if (h.struct r.buffer).len ≤ k then
        (h.free r.buffer).map fun h' => (h.data (h.struct r.buffer), .inl h')
      else .ok ((h.data (h.struct r.buffer)).take k, .inr (moved h r.buffer k, .buffer r.buffer)) := by
  have hlen := hr.length_data
  unfold Buffer.drainStep Buffer.read
  dsimp only
  rw [read_eq hr.refs]
  dsimp only
  by_cases hle : (h.struct r.buffer).len ≤ k
  · rw [if_pos hle, Nat.min_eq_right hle, if_pos rfl, ← hlen, List.take_length]
    cases h.free r.buffer <;> rfl
  · rw [if_neg hle, Nat.min_eq_left (by omega), if_neg (by omega)]
    rfl

/-- The last `Read` frees the buffer, which panics if the counter has wrapped. -/
lemma RefsCounted.free_ok_iff (ho : RefsCounted Q κ h refs) (hr : r ∈ refs)
    (hlive : r.live = true) :
    (∃ h', h.free r.buffer = .ok h') ↔ 0 ≤ int32 ((liveCount refs r.origin : Int) - 1) := by
  have hcounter := ho.counter_free hr hlive
  rw [(ho.live r hr hlive).free_eq]
  dsimp only
  rw [hcounter]
  generalize int32 ((liveCount refs r.origin : Int) - 1) = n
  by_cases hpos : 0 < n
  · rw [if_pos hpos]
    exact iff_of_true ⟨_, rfl⟩ (by omega)
  · rw [if_neg hpos]
    by_cases hzero : n = 0
    · rw [if_pos hzero]
      exact iff_of_true ⟨_, rfl⟩ (by omega)
    · rw [if_neg hzero]
      refine iff_of_false ?_ (by omega)
      rintro ⟨h', hok⟩
      cases hok

/-- A pooled buffer drains exactly if its counter, which has not been looked at while references were
taken, still tells that there are some. -/
theorem RefsCounted.drains_iff (ho : RefsCounted Q κ h refs) (hr : r ∈ refs) (hlive : r.live = true)
    (hk : 1 ≤ k) : Drains k h (.buffer r.buffer) ↔
      0 ≤ int32 ((liveCount refs r.origin : Int) - 1) := by
  -- every heap of the loop counts the same references; only the view of the struct differs
  let Inv : BufferHeap × Buffer → Prop := fun x => x.2 = .buffer r.buffer ∧ RefsCounted Q κ x.1 refs
  have hstart : Inv (h, .buffer r.buffer) := ⟨rfl, ho⟩
  by_cases hfits : 0 ≤ int32 ((liveCount refs r.origin : Int) - 1)
  · refine iff_of_true ?_ hfits
    let content : BufferHeap × Buffer → Bytes := fun x => x.1.data (x.1.struct r.buffer)
    obtain ⟨fuel, h', hdrain⟩ := drain_content (Buffer.drainStep k) Inv content (by
      rintro ⟨h, b⟩ ⟨rfl, (ho : RefsCounted Q κ h refs)⟩
      have hok := ho.live r hr hlive
      rw [hok.drainStep_eq]
      by_cases hle : (h.struct r.buffer).len ≤ k
      · obtain ⟨h', hfree⟩ := (ho.free_ok_iff hr hlive).mpr hfits
        refine .inl ⟨h', ?_⟩
        rw [if_pos hle, hfree]
        rfl
      · refine .inr ⟨_, _, if_neg hle, ?_, ?_, rfl, ho.moved hr hlive (by omega)⟩
        · intro hnil
          have hlen := congrArg List.length hnil
          rw [List.length_take, hok.length_data, List.length_nil] at hlen
          omega
        · dsimp only [content]
          rw [hok.data_moved, List.take_append_drop]) hstart
    refine ⟨fuel, h', _, ?_, hdrain⟩
    rw [Buffer.readOnlyData, BufferHeap.readOnlyData, (ho.live r hr hlive).refs]
  · refine iff_of_false ?_ hfits
    rintro ⟨fuel, h', data, -, hdrain⟩
    refine drain_never_ends (Buffer.drainStep k) Inv ?_ hstart fuel (h', data) hdrain
    rintro ⟨h, b⟩ ⟨rfl, (ho : RefsCounted Q κ h refs)⟩ xs next hstep
    have hok := ho.live r hr hlive
    rw [hok.drainStep_eq] at hstep
    by_cases hle : (h.struct r.buffer).len ≤ k
    · rw [if_pos hle] at hstep
      cases hfree : h.free r.buffer with
      | ok h' => exact absurd ((ho.free_ok_iff hr hlive).mp ⟨h', hfree⟩) hfits
      | error e =>
        rw [hfree] at hstep
        cases hstep
    · rw [if_neg hle] at hstep
      cases hstep
      exact ⟨_, rfl, rfl, ho.moved hr hlive (by omega)⟩

end Pooled

/-! ### Buffers that a caller holds -/

/-- A run of operations on references leaves the heap ready for others, as long as every counter
counts. -/
theorem ready_of_guarded {acts : List RefAction} {t : RefState}
    (h : exec RefState.step start acts = some t)
    (hg : Guarded RefState.step (fun s a => countable s a) start acts) : Ready t.heap := by
  have hstep : ∀ s a t, RefsInv s ∧ Within s.refs → countable s a = true →
      RefState.step s a = some t → RefsInv t ∧ Within t.refs := by
    intro s a t hs hok ht
    obtain ⟨hinv, hiff⟩ := step_spec hs.1 hs.2 ht
    exact ⟨hinv, hiff.mpr hok⟩
  have hstart : RefsInv start ∧ Within start.refs := ⟨refsInv_start, fun o => Nat.zero_le _⟩
  obtain ⟨κ, ho⟩ := (exec_invariant_guarded _ hstep hstart hg h).1.owned
  exact ho.toReady

/-- The reference that a pooled buffer is. -/
def heldReference : Held → Option Reference
  | ⟨.buffer b, origin⟩ => some ⟨b, origin, true⟩
  | _ => none

def heldReferences (held : List Held) : List Reference := held.filterMap heldReference

lemma mem_heldReferences {held : List Held} {x : Held} {b : Nat} (hx : x ∈ held)
    (hb : x.buffer = .buffer b) : ⟨b, x.origin, true⟩ ∈ heldReferences held := by
  refine List.mem_filterMap.mpr ⟨x, hx, ?_⟩
  rw [heldReference.eq_def]
  obtain ⟨buffer, origin⟩ := x
  cases hb
  rfl

lemma heldReferences_pooled (held : List Held) (b origin : Nat) :
    heldReferences (held ++ [⟨.buffer b, origin⟩]) =
      heldReferences held ++ [⟨b, origin, true⟩] :=
  List.filterMap_append

lemma heldReferences_concat {x : Held} (hx : heldReference x = none) (held : List Held) :
    heldReferences (held ++ [x]) = heldReferences held := by
  rw [heldReferences, List.filterMap_append, List.filterMap_cons_none hx, List.filterMap_nil,
    List.append_nil, heldReferences]

lemma heldReferences_set {held : List Held} {i : Nat} {x y : Held} (hi : held[i]? = some x)
    (hsame : heldReference y = heldReference x) :
    heldReferences (held.set i y) = heldReferences held := by
  induction held generalizing i with
  | nil => rfl
  | cons z held ih =>
    cases i with
    | zero =>
      cases hi
      simp only [heldReferences, List.set_cons_zero, List.filterMap_cons, hsame]
    | succ i =>
      have hrest := ih (i := i) hi
      simp only [heldReferences] at hrest
      simp only [heldReferences, List.set_cons_succ, List.filterMap_cons, hrest]

/-- The counters count the pooled buffers that are held. -/
def HeldCounted (s : BufferState) : Prop :=
  ∃ κ, RefsCounted (fun _ => True) κ s.heap (heldReferences s.held)

lemma heldCounted_start {h : BufferHeap} (hr : Ready h) : HeldCounted ⟨h, []⟩ :=
  ⟨id, hr.counted_nil⟩

section Steps

variable {s t : BufferState}

/-- A buffer that is not pooled is not counted. -/
lemma HeldCounted.hold (hs : HeldCounted s) {b : Buffer}
    (hb : ∀ origin, heldReference ⟨b, origin⟩ = none) : HeldCounted (s.hold (s.heap, b)) := by
  obtain ⟨κ, ho⟩ := hs
  refine ⟨κ, ?_⟩
  dsimp only [BufferState.hold]
  rw [heldReferences_concat (hb _)]
  exact ho

lemma HeldCounted.newBuffer (hs : HeldCounted s) (data : Bytes) (cap : Nat) (pool : Bool)
    (choice refChoice : Option Nat) :
    HeldCounted (s.hold (s.heap.NewBuffer data cap pool choice refChoice)) := by
  unfold BufferHeap.NewBuffer
  split
  · exact hs.hold fun _ => rfl
  · obtain ⟨κ, ho⟩ := hs
    obtain ⟨κ', ho'⟩ := ho.makeBuffer data pool trivial choice refChoice
    refine ⟨κ', ?_⟩
    dsimp only [BufferState.hold]
    rw [heldReferences_pooled]
    exact ho'

/-- Materializing a single buffer takes one more reference to what it is. -/
lemma HeldCounted.ref (hs : HeldCounted s) {x : Held} (hx : x ∈ s.held) {h : BufferHeap}
    (hop : x.buffer.ref s.heap = .ok h) : HeldCounted ⟨h, s.held ++ [x]⟩ := by
  obtain ⟨κ, ho⟩ := hs
  obtain ⟨buffer, origin⟩ := x
  refine ⟨κ, ?_⟩
  dsimp only at hop ⊢
  cases buffer with
  | buffer b =>
    obtain ⟨href, ho'⟩ := ho.ref (mem_heldReferences hx rfl) rfl
    have hh := Except.ok.inj (href.symm.trans hop)
    rw [heldReferences_pooled, ← hh]
    exact ho'
  | sliceBuffer d =>
    cases hop
    rw [heldReferences_concat rfl]
    exact ho
  | emptyBuffer =>
    cases hop
    rw [heldReferences_concat rfl]
    exact ho

/-- Several buffers, or none, become the empty buffer or a new one. -/
lemma HeldCounted.materialize (hs : HeldCounted s) {bs : List Buffer} (hmany : bs.length ≠ 1)
    {buf : Bytes} {choice refChoice : Option Nat} {made : BufferHeap × Buffer}
    (hop : s.heap.MaterializeToBuffer bs buf choice refChoice = .ok made) :
    HeldCounted (s.hold made) := by
  unfold BufferHeap.MaterializeToBuffer at hop
  split at hop
  · exact absurd rfl hmany
  · obtain ⟨contents, -, hop⟩ := bind_eq_ok hop
    dsimp only at hop
    split at hop
    · cases hop
      exact hs.hold fun _ => rfl
    · obtain ⟨⟨dst, n⟩, -, hop⟩ := bind_eq_ok hop
      cases hop
      exact hs.newBuffer _ _ _ _ _

lemma HeldCounted.split (hs : HeldCounted s) {i : Nat} {x : Held} (hi : s.held[i]? = some x)
    {n : Nat} {choice : Option Nat} {h : BufferHeap} {left right : Buffer}
    (hop : x.buffer.split s.heap n choice = .ok (h, left, right)) :
    HeldCounted ⟨h, s.held.set i ⟨left, x.origin⟩ ++ [⟨right, x.origin⟩]⟩ := by
  obtain ⟨κ, ho⟩ := hs
  obtain ⟨buffer, origin⟩ := x
  refine ⟨κ, ?_⟩
  dsimp only at hop ⊢
  cases buffer with
  | buffer b =>
    obtain ⟨⟨h', right'⟩, hsplit, hop⟩ := bind_eq_ok hop
    cases hop
    have hr := mem_heldReferences (List.mem_of_getElem? hi) rfl
    have hn : n ≤ (s.heap.struct b).len := by
      by_contra hlt
      have href := (ho.live _ hr rfl).refs
      dsimp only at href
      simp only [BufferHeap.split, href, hlt, if_false] at hsplit
      cases hsplit
    obtain ⟨h₂, right₂, hsplit₂, ho', -⟩ := ho.split hr rfl hn choice
    rw [hsplit] at hsplit₂
    cases hsplit₂
    rw [heldReferences_pooled, heldReferences_set hi rfl]
    exact ho'
  | sliceBuffer d =>
    obtain ⟨l, -, hop⟩ := bind_eq_ok hop
    obtain ⟨r, -, hop⟩ := bind_eq_ok hop
    cases hop
    rw [heldReferences_concat rfl, heldReferences_set (y := ⟨.sliceBuffer l, origin⟩) hi rfl]
    exact ho
  | emptyBuffer =>
    cases hop
    rw [heldReferences_concat rfl, heldReferences_set hi rfl]
    exact ho

lemma mapM_getElem?_single {α : Type} {l : List α} {indices : List Nat} {x : α}
    (h : indices.mapM (fun i => l[i]?) = some [x]) : x ∈ l := by
  cases indices with
  | nil => cases h
  | cons i rest =>
    rw [List.mapM_cons] at h
    obtain ⟨y, hy, h⟩ := Option.bind_eq_some_iff.mp h
    obtain ⟨ys, -, h⟩ := Option.bind_eq_some_iff.mp h
    cases h
    exact List.mem_of_getElem? hy

lemma HeldCounted.step (hs : HeldCounted s) {a : BufferAction}
    (h : BufferState.step s a = some t) : HeldCounted t := by
  cases a with
  | newBuffer data cap pool choice refChoice =>
    cases h
    exact hs.newBuffer _ _ _ _ _
  | copy data buf choice refChoice =>
    cases h
    unfold BufferHeap.Copy
    split
    · exact hs.hold fun _ => rfl
    · exact hs.newBuffer _ _ _ _ _
  | sliceBuffer data =>
    cases h
    exact hs.hold fun _ => rfl
  | materialize indices buf choice refChoice =>
    obtain ⟨xs, hxs, h⟩ := Option.bind_eq_some_iff.mp h
    split at h
    · next h' b x hop =>
      cases h
      obtain ⟨h'', href, hop⟩ := bind_eq_ok hop
      cases hop
      exact hs.ref (mapM_getElem?_single hxs) href
    · next made hmany hop =>
      cases h
      refine hs.materialize (fun hone => ?_) hop
      rw [List.length_map] at hone
      obtain ⟨x, hx⟩ := List.length_eq_one_iff.mp hone
      exact hmany _ _ x hx rfl
    · cases h
  | split i n choice =>
    obtain ⟨x, hi, h⟩ := Option.bind_eq_some_iff.mp h
    split at h
    · next h' left right hop =>
      cases h
      exact hs.split hi hop
    · cases h

end Steps

/-- A buffer that `Read` can be called on until it returns nil: not the empty buffer, and if it is
pooled, not one whose references are more than its counter can tell from none. -/
def drainable (s : BufferState) (x : Held) : Bool :=
  match x.buffer with
  | .buffer _ => 0 ≤ int32 ((liveCount (heldReferences s.held) x.origin : Int) - 1)
  | .sliceBuffer _ => true
  | .emptyBuffer => false

/-- Of the buffers that can be made, by `NewBuffer`, `Copy` and `MaterializeToBuffer` of whatever is
held, and split in any way, the drainable ones are read to their end with all their bytes, whatever
the size of the chunks, and no others. -/
theorem drains_iff_drainable {h : BufferHeap} (hready : Ready h) {acts : List BufferAction}
    {s : BufferState} (hexec : exec BufferState.step ⟨h, []⟩ acts = some s) {x : Held}
    (hx : x ∈ s.held) {k : Nat} (hk : 1 ≤ k) :
    Drains k s.heap x.buffer ↔ drainable s x = true := by
  have hs : HeldCounted s := exec_invariant HeldCounted (fun _ _ _ hs ht => hs.step ht)
    (heldCounted_start hready) hexec
  obtain ⟨κ, ho⟩ := hs
  unfold drainable
  cases hb : x.buffer with
  | buffer b =>
    rw [ho.drains_iff (mem_heldReferences hx hb) rfl hk]
    simp
  | sliceBuffer d => exact iff_of_true (drains_sliceBuffer hk d) rfl
  | emptyBuffer =>
    refine iff_of_false ?_ (by simp)
    rintro ⟨fuel, h', data, -, hdrain⟩
    rw [drain_emptyBuffer] at hdrain
    cases hdrain

/-- A pooled buffer is split, and its halves are materialized into a third. -/
def splitRun : List BufferAction :=
  [.newBuffer [1, 2, 3] 3 true none none, .split 0 1 none, .materialize [1, 0] [0, 0, 0] none none,
    .split 2 3 none]

theorem drains_splitRun : ∃ s, exec BufferState.step ⟨.empty, []⟩ splitRun = some s ∧
    s.held.length = 4 ∧ ∀ x ∈ s.held, ∀ k ≥ 1, Drains k s.heap x.buffer := by
  have hrun : ∃ s ∈ exec BufferState.step ⟨.empty, []⟩ splitRun, s.held.length = 4 ∧
      ∀ x ∈ s.held, drainable s x = true := by decide +kernel
  obtain ⟨s, hs, hlen, hdrainable⟩ := hrun
  refine ⟨s, hs, hlen, fun x hx k hk => ?_⟩
  exact (drains_iff_drainable ready_empty hs hx hk).mpr (hdrainable x hx)

/-- An empty `BufferSlice` is materialized into a `Buffer` that no number of reads brings to its
end. -/
theorem materialize_nil_never_drains :
    ∃ s x, exec BufferState.step ⟨.empty, []⟩ [.materialize [] [] none none] = some s ∧
      x ∈ s.held ∧ x.buffer.readOnlyData s.heap = .ok [] ∧
      ∀ k fuel, drain (Buffer.drainStep k) fuel (s.heap, x.buffer) = .ok none :=
  ⟨⟨.empty, [⟨.emptyBuffer, 0⟩]⟩, ⟨.emptyBuffer, 0⟩, rfl, List.mem_singleton.mpr rfl, rfl,
    fun k fuel => drain_emptyBuffer .empty k fuel⟩

end Zrpc.Proofs
