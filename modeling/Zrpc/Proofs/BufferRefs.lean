import Zrpc.Buffer

/-!
# Who may still use a buffer

Structs and counters go back to their pools only when no reference is left that leads to them, so a
struct or counter that is handed out again belongs to nobody else. The counter itself is an `int32`:
it tells the number of references as long as that number fits.
-/

namespace Zrpc.Proofs

open Zrpc.Lib RefState

section Counting

variable {refs : List Reference} {r : Reference} {i o : Nat}

lemma liveCount_concat (refs : List Reference) (r : Reference) (o : Nat) :
    liveCount (refs ++ [r]) o = liveCount refs o + share o r := by
  rw [liveCount, tally_append]
  simp [liveCount]

lemma liveCount_release (h : refs[i]? = some r) (o : Nat) :
    liveCount (refs.set i { r with live := false }) o + share o r = liveCount refs o := by
  have hset := tally_set (f := fun _ => share o) h { r with live := false }
  have hdead : share o { r with live := false } = 0 := by simp [share]
  rw [hdead] at hset
  exact hset

lemma share_self (hlive : r.live = true) : share r.origin r = 1 := by simp [share, hlive]

lemma share_ne (hne : r.origin ≠ o) : share o r = 0 := by simp [share, hne]

lemma liveCount_pos (hr : r ∈ refs) (hlive : r.live = true) : 0 < liveCount refs r.origin := by
  obtain ⟨i, hi⟩ := List.mem_iff_getElem?.mp hr
  have hle := le_tally (f := fun _ => share r.origin) hi
  rw [share_self hlive] at hle
  exact hle

lemma exists_live (h : 0 < liveCount refs o) : ∃ r ∈ refs, r.live = true ∧ r.origin = o := by
  obtain ⟨i, r, hi, hr⟩ := exists_of_tally_pos h
  refine ⟨r, List.mem_of_getElem? hi, ?_⟩
  by_contra hno
  simp [share, hno] at hr

/-- One more reference to a slice that has one changes no other count to or from zero. -/
lemma liveCount_concat_pos (hpos : 0 < liveCount refs r.origin) (o : Nat) :
    0 < liveCount (refs ++ [r]) o ↔ 0 < liveCount refs o := by
  rw [liveCount_concat]
  by_cases he : r.origin = o
  · subst he
    omega
  · rw [share_ne he, Nat.add_zero]

lemma liveCount_release_ne (h : refs[i]? = some r) (hne : r.origin ≠ o) :
    liveCount (refs.set i { r with live := false }) o = liveCount refs o := by
  have hc := liveCount_release h o
  rwa [share_ne hne] at hc

lemma liveCount_release_self (h : refs[i]? = some r) (hlive : r.live = true) :
    liveCount (refs.set i { r with live := false }) r.origin + 1 = liveCount refs r.origin := by
  have hc := liveCount_release h r.origin
  rwa [share_self hlive] at hc

/-- Giving up one of several references changes no count to zero. -/
lemma liveCount_release_pos (h : refs[i]? = some r) (hlive : r.live = true)
    (hmany : 1 < liveCount refs r.origin) (o : Nat) :
    0 < liveCount (refs.set i { r with live := false }) o ↔ 0 < liveCount refs o := by
  by_cases he : r.origin = o
  · subst he
    have hc := liveCount_release_self h hlive
    omega
  · rw [liveCount_release_ne h he]

end Counting

/-- Every slice that has been handed over and has no live reference left was returned, once. -/
def ReturnsOnce (h : BufferHeap) (refs : List Reference) : Prop :=
  ∀ o, h.returned.count o = if o < h.origins.length ∧ liveCount refs o = 0 then 1 else 0

/-- The struct of a reference leads to its origin slice and to the counter of that slice, and its
field `pool` meets `Q`. -/
structure RefLeads (Q : Bool → Prop) (κ : Nat → Nat) (h : BufferHeap) (r : Reference) : Prop where
  inUse : h.bufferObjectPool.InUse r.buffer
  origin : (h.struct r.buffer).originData = some r.origin
  refs : (h.struct r.buffer).refs = some (κ r.origin)
  pool : Q (h.struct r.buffer).pool
  valid : r.origin < h.origins.length
  inside : (h.struct r.buffer).off + (h.struct r.buffer).len ≤ (h.origin r.origin).length

/-- The structs and counters in the pools belong to nobody, and the counters are zero. -/
structure Ready (h : BufferHeap) : Prop where
  buffers : h.bufferObjectPool.Sound
  counters : h.refObjectPool.Sound
  idle : ∀ c ∈ h.refObjectPool.free, ∃ x, h.refObjectPool.cells[c]? = some x ∧ x = 0

/-- Origin slice `o` is counted by counter `κ o` as long as it has a live reference. -/
structure RefsCounted (Q : Bool → Prop) (κ : Nat → Nat) (h : BufferHeap) (refs : List Reference) :
    Prop extends Ready h where
  live : ∀ r ∈ refs, r.live = true → RefLeads Q κ h r
  counterInUse : ∀ o, 0 < liveCount refs o → h.refObjectPool.InUse (κ o)
  counter : ∀ o, 0 < liveCount refs o → h.counter (κ o) = int32 (liveCount refs o)
  inj : ∀ o o', 0 < liveCount refs o → 0 < liveCount refs o' → κ o = κ o' → o = o'

/-- The references of pooled buffers, with the record of what has been returned. -/
structure RefsOwned (κ : Nat → Nat) (h : BufferHeap) (refs : List Reference) : Prop extends
    RefsCounted (fun pool => pool = true) κ h refs where
  returned : ReturnsOnce h refs

section Heap

variable {Q : Bool → Prop} {κ : Nat → Nat} {h : BufferHeap} {refs : List Reference} {r : Reference}

lemma struct_setStruct_self {b : Nat} (hb : h.bufferObjectPool.InUse b) (st : BufferStruct) :
    (h.setStruct b st).struct b = st := by
  rw [BufferHeap.struct, BufferHeap.setStruct, ObjectPool.getElem?_set_self hb, Option.getD_some]

lemma struct_setStruct_ne {b b' : Nat} (hne : b ≠ b') (st : BufferStruct) :
    (h.setStruct b st).struct b' = h.struct b' := by
  rw [BufferHeap.struct, BufferHeap.setStruct, ObjectPool.getElem?_set_ne hne, BufferHeap.struct]

lemma counter_addRefs_self {c : Nat} (hc : h.refObjectPool.InUse c) (d : Int) :
    (h.addRefs c d).counter c = int32 (h.counter c + d) := by
  rw [BufferHeap.counter, BufferHeap.addRefs, ObjectPool.getElem?_set_self hc, Option.getD_some]

lemma counter_addRefs_ne {c c' : Nat} (hne : c ≠ c') (d : Int) :
    (h.addRefs c d).counter c' = h.counter c' := by
  rw [BufferHeap.counter, BufferHeap.addRefs, ObjectPool.getElem?_set_ne hne, BufferHeap.counter]

lemma ready_empty : Ready .empty := by
  refine ⟨ObjectPool.sound_empty, ObjectPool.sound_empty, fun c hc => ?_⟩
  cases hc

/-- A counter that somebody uses may take any value. -/
lemma Ready.addRefs (hr : Ready h) {c : Nat} (hc : h.refObjectPool.InUse c) (d : Int) :
    Ready (h.addRefs c d) := by
  refine ⟨hr.buffers, hr.counters.set _ _, fun c' hc' => ?_⟩
  have hne : c ≠ c' := fun he => hc.2 (he ▸ hc')
  obtain ⟨x, hx, hz⟩ := hr.idle c' hc'
  exact ⟨x, (ObjectPool.getElem?_set_ne hne).trans hx, hz⟩

lemma Ready.counted_nil (hr : Ready h) : RefsCounted Q κ h [] := by
  refine ⟨hr, fun r hm => ?_, ?_, ?_, ?_⟩
  · cases hm
  all_goals
    intro o
    intros
    contradiction

lemma RefsCounted.liveCount_fresh (hc : RefsCounted Q κ h refs) {o : Nat}
    (hle : h.origins.length ≤ o) : liveCount refs o = 0 := by
  by_contra hne
  obtain ⟨r, hr, hlive, rfl⟩ := exists_live (Nat.pos_of_ne_zero hne)
  have hlt := (hc.live r hr hlive).valid
  omega

/-- A live reference stays good when its struct keeps its place and the rest only grows. -/
lemma RefLeads.congr (hr : RefLeads Q κ h r) {κ' : Nat → Nat} {h' : BufferHeap}
    (hin : h'.bufferObjectPool.InUse r.buffer) (hst : h'.struct r.buffer = h.struct r.buffer)
    (hκ : κ' r.origin = κ r.origin) (hlen : h.origins.length ≤ h'.origins.length)
    (ho : h'.origin r.origin = h.origin r.origin) : RefLeads Q κ' h' r := by
  refine ⟨hin, ?_, ?_, ?_, hr.valid.trans_le hlen, ?_⟩
  · rw [hst]
    exact hr.origin
  · rw [hst, hκ]
    exact hr.refs
  · rw [hst]
    exact hr.pool
  · rw [hst, ho]
    exact hr.inside

/-- A struct that differs from that of a live reference in a smaller view is as good. -/
lemma RefLeads.narrow (hr : RefLeads Q κ h r) {h' : BufferHeap} {b off len : Nat} {live : Bool}
    (hin : h'.bufferObjectPool.InUse b)
    (hst : h'.struct b = { h.struct r.buffer with off := off, len := len })
    (horigins : h'.origins = h.origins)
    (hle : off + len ≤ (h.struct r.buffer).off + (h.struct r.buffer).len) :
    RefLeads Q κ h' ⟨b, r.origin, live⟩ := by
  refine ⟨hin, ?_, ?_, ?_, ?_, ?_⟩
  · rw [hst]
    exact hr.origin
  · rw [hst]
    exact hr.refs
  · rw [hst]
    exact hr.pool
  · rw [horigins]
    exact hr.valid
  · have horigin : h'.origin r.origin = h.origin r.origin := by
      rw [BufferHeap.origin, horigins, BufferHeap.origin]
    rw [hst, horigin]
    exact hle.trans hr.inside

/-- The view of a struct may change inside its origin slice. -/
lemma RefsCounted.setView (ho : RefsCounted Q κ h refs) {b off len : Nat}
    (hb : h.bufferObjectPool.InUse b)
    (hin : off + len ≤ (h.struct b).off + (h.struct b).len) :
    RefsCounted Q κ (h.setStruct b { h.struct b with off := off, len := len }) refs := by
  refine ⟨⟨ho.buffers.set _ _, ho.counters, ho.idle⟩, fun r hr hlive => ?_, ho.counterInUse,
    ho.counter, ho.inj⟩
  have hok := ho.live r hr hlive
  by_cases he : b = r.buffer
  · subst he
    exact hok.narrow (ObjectPool.inUse_set.mpr hb) (struct_setStruct_self hb _) rfl hin
  · exact hok.congr (ObjectPool.inUse_set.mpr hok.inUse) (struct_setStruct_ne he _) rfl le_rfl rfl

/-- One more reference, to a struct of the same origin slice. -/
lemma RefsCounted.acquire (ho : RefsCounted Q κ h refs) (hr : RefLeads Q κ h r)
    (hlive : r.live = true) (hpos : 0 < liveCount refs r.origin) :
    RefsCounted Q κ (h.addRefs (κ r.origin) 1) (refs ++ [r]) := by
  have hcount : ∀ o, 0 < liveCount (refs ++ [r]) o → 0 < liveCount refs o :=
    fun o => (liveCount_concat_pos hpos o).mp
  refine ⟨ho.toReady.addRefs (ho.counterInUse _ hpos) 1, fun x hx hxl => ?_, fun o hlt => ?_,
    fun o hlt => ?_, fun o o' hlt hlt' => ho.inj o o' (hcount o hlt) (hcount o' hlt')⟩
  · have hok : RefLeads Q κ h x := by
      obtain hx | hx := List.mem_append.mp hx
      · exact ho.live x hx hxl
      · exact List.mem_singleton.mp hx ▸ hr
    exact hok.congr hok.inUse rfl rfl le_rfl rfl
  · exact ObjectPool.inUse_set.mpr (ho.counterInUse o (hcount o hlt))
  · have hold := ho.counter o (hcount o hlt)
    by_cases he : r.origin = o
    · subst he
      rw [counter_addRefs_self (ho.counterInUse _ hpos), hold, int32_int32_add, liveCount_concat,
        share_self hlive, Nat.cast_add, Nat.cast_one]
    · have hne : κ r.origin ≠ κ o := fun hκ => he (ho.inj _ _ hpos (hcount o hlt) hκ)
      rw [counter_addRefs_ne hne, hold, liveCount_concat, share_ne he, Nat.add_zero]

/-- A struct out of the pool belongs to no live reference. -/
lemma RefsCounted.newBuffer (ho : RefsCounted Q κ h refs) (choice : Option Nat) :
    RefsCounted Q κ (h.newBuffer choice).1 refs ∧
      (h.newBuffer choice).1.bufferObjectPool.InUse (h.newBuffer choice).2 ∧
      ∀ r ∈ refs, r.live = true → r.buffer ≠ (h.newBuffer choice).2 := by
  refine ⟨⟨⟨ho.buffers.get _ _, ho.counters, ho.idle⟩, fun r hr hlive => ?_, ho.counterInUse,
    ho.counter, ho.inj⟩, ho.buffers.inUse_get _ _, fun r hr hlive => ?_⟩
  · have hok := ho.live r hr hlive
    refine hok.congr (hok.inUse.get _ _) ?_ rfl le_rfl rfl
    rw [BufferHeap.struct, BufferHeap.newBuffer, ObjectPool.getElem?_get hok.inUse,
      BufferHeap.struct]
  · exact (ho.live r hr hlive).inUse.ne_get _ _

/-- A struct that no live reference uses may be filled. -/
lemma RefsCounted.setUnused (ho : RefsCounted Q κ h refs) {b : Nat} (st : BufferStruct)
    (hne : ∀ r ∈ refs, r.live = true → r.buffer ≠ b) : RefsCounted Q κ (h.setStruct b st) refs := by
  refine ⟨⟨ho.buffers.set _ _, ho.counters, ho.idle⟩, fun r hr hlive => ?_, ho.counterInUse,
    ho.counter, ho.inj⟩
  have hok := ho.live r hr hlive
  exact hok.congr (ObjectPool.inUse_set.mpr hok.inUse)
    (struct_setStruct_ne (hne r hr hlive).symm _) rfl le_rfl rfl

/-- A counter out of the pool is zero and counts no other slice. -/
lemma RefsCounted.newCounter (ho : RefsCounted Q κ h refs) (choice : Option Nat) :
    let h' := { h with refObjectPool := (h.refObjectPool.get 0 choice).1 }
    let c := (h.refObjectPool.get 0 choice).2
    RefsCounted Q κ h' refs ∧ h'.refObjectPool.InUse c ∧ h'.counter c = 0 ∧
      ∀ o, 0 < liveCount refs o → κ o ≠ c := by
  dsimp only
  refine ⟨⟨⟨ho.buffers, ho.counters.get _ _, fun d hd => ?_⟩, fun r hr hlive => ?_, fun o hlt => ?_,
    fun o hlt => ?_, ho.inj⟩, ho.counters.inUse_get _ _, ?_, fun o hlt => ?_⟩
  · obtain ⟨x, hx, hz⟩ := ho.idle d (ObjectPool.mem_free_get hd)
    exact ⟨x, ObjectPool.getElem?_get_of_some hx 0 choice, hz⟩
  · have hok := ho.live r hr hlive
    exact hok.congr hok.inUse rfl rfl le_rfl rfl
  · exact (ho.counterInUse o hlt).get _ _
  · rw [← ho.counter o hlt, BufferHeap.counter, ObjectPool.getElem?_get (ho.counterInUse o hlt),
      BufferHeap.counter]
  · obtain ⟨x, hx, hz⟩ := ObjectPool.getElem?_get_self (P := fun x => x = 0) rfl ho.idle choice
    rw [BufferHeap.counter, hx, Option.getD_some, hz]
  · exact (ho.counterInUse o hlt).ne_get _ _

/-- The first reference to a new origin slice, by a struct and a counter that belong to nobody. -/
lemma RefsCounted.firstRef (ho : RefsCounted Q κ h refs) {b c : Nat} {data : Bytes}
    {pool : Bool} (hQ : Q pool) (hb : h.bufferObjectPool.InUse b)
    (hst : h.struct b = ⟨some h.origins.length, 0, data.length, some c, pool⟩)
    (hc : h.refObjectPool.InUse c) (hzero : h.counter c = 0)
    (hapart : ∀ o, 0 < liveCount refs o → κ o ≠ c) :
    RefsCounted Q (Function.update κ h.origins.length c)
      ({ h with origins := h.origins ++ [data] }.addRefs c 1)
      (refs ++ [⟨b, h.origins.length, true⟩]) := by
  have hfresh : liveCount refs h.origins.length = 0 := ho.liveCount_fresh le_rfl
  have hself : liveCount (refs ++ [⟨b, h.origins.length, true⟩]) h.origins.length = 1 := by
    rw [liveCount_concat, hfresh]
    simp [share]
  have hother : ∀ o, o ≠ h.origins.length →
      liveCount (refs ++ [⟨b, h.origins.length, true⟩]) o = liveCount refs o := by
    intro o hne
    rw [liveCount_concat, share_ne (Ne.symm hne), Nat.add_zero]
  have hready : Ready { h with origins := h.origins ++ [data] } :=
    ⟨ho.buffers, ho.counters, ho.idle⟩
  refine ⟨hready.addRefs hc 1, fun r hr hlive => ?_, fun o hlt => ?_, fun o hlt => ?_,
    fun o o' hlt hlt' hκ => ?_⟩
  · obtain hr | hr := List.mem_append.mp hr
    · have hok := ho.live r hr hlive
      have hne : r.origin ≠ h.origins.length := Nat.ne_of_lt hok.valid
      refine hok.congr hok.inUse rfl (Function.update_of_ne hne _ _) ?_ ?_
      · simp [BufferHeap.addRefs]
      · simp [BufferHeap.origin, BufferHeap.addRefs, List.getElem?_append_left hok.valid]
    · obtain rfl := List.mem_singleton.mp hr
      have hst' : ({ h with origins := h.origins ++ [data] }.addRefs c 1).struct b =
          ⟨some h.origins.length, 0, data.length, some c, pool⟩ := hst
      refine ⟨hb, ?_, ?_, ?_, ?_, ?_⟩
      · rw [hst']
      · rw [hst', Function.update_self]
      · rw [hst']
        exact hQ
      · simp [BufferHeap.addRefs]
      · rw [hst']
        simp [BufferHeap.origin, BufferHeap.addRefs]
  · by_cases he : o = h.origins.length
    · subst he
      rw [Function.update_self]
      exact ObjectPool.inUse_set.mpr hc
    · rw [Function.update_of_ne he]
      exact ObjectPool.inUse_set.mpr (ho.counterInUse o (hother o he ▸ hlt))
  · by_cases he : o = h.origins.length
    · subst he
      rw [Function.update_self, hself]
      refine (counter_addRefs_self (h := { h with origins := h.origins ++ [data] }) hc 1).trans ?_
      rw [show BufferHeap.counter { h with origins := h.origins ++ [data] } c = 0 from hzero]
      rfl
    · have hpos : 0 < liveCount refs o := hother o he ▸ hlt
      rw [Function.update_of_ne he, counter_addRefs_ne (hapart o hpos).symm, hother o he]
      exact ho.counter o hpos
  · by_cases he : o = h.origins.length <;> by_cases he' : o' = h.origins.length
    · rw [he, he']
    · rw [he, Function.update_self, Function.update_of_ne he'] at hκ
      exact absurd hκ.symm (hapart o' (hother o' he' ▸ hlt'))
    · rw [he', Function.update_self, Function.update_of_ne he] at hκ
      exact absurd hκ (hapart o (hother o he ▸ hlt))
    · rw [Function.update_of_ne he, Function.update_of_ne he'] at hκ
      exact ho.inj o o' (hother o he ▸ hlt) (hother o' he' ▸ hlt') hκ

lemma RefsCounted.makeBuffer (ho : RefsCounted Q κ h refs) (data : Bytes) (pool : Bool)
    (hQ : Q pool) (choice refChoice : Option Nat) :
    ∃ κ', RefsCounted Q κ' (h.makeBuffer data pool choice refChoice).1
      (refs ++ [⟨(h.makeBuffer data pool choice refChoice).2, h.origins.length, true⟩]) := by
  obtain ⟨hstruct, hb, hother⟩ := ho.newBuffer choice
  obtain ⟨hcounter, hc, hzero, hapart⟩ := hstruct.newCounter refChoice
  have hfill := hcounter.setUnused ⟨some h.origins.length, 0, data.length,
    some ((h.newBuffer choice).1.refObjectPool.get 0 refChoice).2, pool⟩ hother
  have hfirst := hfill.firstRef hQ (ObjectPool.inUse_set.mpr hb) (struct_setStruct_self hb _) hc
    hzero hapart
  have hlen : (h.origins ++ [data]).length - 1 = h.origins.length := by simp
  dsimp only [BufferHeap.makeBuffer, BufferHeap.newBuffer]
  rw [hlen]
  exact ⟨_, hfirst⟩

/-! ### Ref and Split -/

lemma RefsCounted.ref (ho : RefsCounted Q κ h refs) (hr : r ∈ refs) (hlive : r.live = true) :
    h.ref r.buffer = .ok (h.addRefs (κ r.origin) 1) ∧
      RefsCounted Q κ (h.addRefs (κ r.origin) 1) (refs ++ [r]) := by
  have hok := ho.live r hr hlive
  refine ⟨?_, ho.acquire hok hlive (liveCount_pos hr hlive)⟩
  rw [BufferHeap.ref, hok.refs]

lemma split_eq {b c n : Nat} (hrefs : (h.struct b).refs = some c) (hn : n ≤ (h.struct b).len)
    (choice : Option Nat) : h.split b n choice =
      let right := ((h.addRefs c 1).newBuffer choice).2
      .ok ((((h.addRefs c 1).newBuffer choice).1.setStruct right
        { h.struct b with off := (h.struct b).off + n, len := (h.struct b).len - n }).setStruct b
          { h.struct b with len := n }, right) := by
  unfold BufferHeap.split
  dsimp only
  split
  · next hnone =>
    rw [hrefs] at hnone
    cases hnone
  · next c' hsome =>
    rw [hrefs] at hsome
    cases hsome
    exact if_pos hn

/-- The halves of a struct lead to the same slice and the same counter. -/
lemma RefsCounted.split (ho : RefsCounted Q κ h refs) (hr : r ∈ refs) (hlive : r.live = true)
    {n : Nat} (hn : n ≤ (h.struct r.buffer).len) (choice : Option Nat) :
    ∃ h' right, h.split r.buffer n choice = .ok (h', right) ∧
      RefsCounted Q κ h' (refs ++ [⟨right, r.origin, true⟩]) ∧
      h'.returned = h.returned ∧ h'.origins = h.origins := by
  have hok := ho.live r hr hlive
  obtain ⟨hnew, hright, hother⟩ := ho.newBuffer choice
  set st := h.struct r.buffer with hst
  set right := (h.newBuffer choice).2
  have hne : right ≠ r.buffer := (hother r hr hlive).symm
  have hokNew := hnew.live r hr hlive
  have hsame : (h.newBuffer choice).1.struct r.buffer = st := by
    rw [BufferHeap.struct, BufferHeap.newBuffer, ObjectPool.getElem?_get hok.inUse, hst,
      BufferHeap.struct]
  have hfill := hnew.setUnused { st with off := st.off + n, len := st.len - n } hother
  set h₂ := (h.newBuffer choice).1.setStruct right { st with off := st.off + n, len := st.len - n }
  have hleft : h₂.struct r.buffer = st := (struct_setStruct_ne hne _).trans hsame
  have hin₂ : h₂.bufferObjectPool.InUse r.buffer := ObjectPool.inUse_set.mpr hokNew.inUse
  have hfront : st.off + n ≤ (h₂.struct r.buffer).off + (h₂.struct r.buffer).len := by
    rw [hleft]
    omega
  have hview := hfill.setView hin₂ hfront
  rw [hleft] at hview
  set h₃ := h₂.setStruct r.buffer { st with off := st.off, len := n }
  have hrightSt : h₃.struct right = { st with off := st.off + n, len := st.len - n } :=
    (struct_setStruct_ne hne.symm _).trans (struct_setStruct_self hright _)
  have hrightOk : RefLeads Q κ h₃ ⟨right, r.origin, true⟩ := by
    refine hok.narrow (ObjectPool.inUse_set.mpr (ObjectPool.inUse_set.mpr hright)) hrightSt rfl ?_
    rw [← hst]
    omega
  have hpos : 0 < liveCount refs r.origin := liveCount_pos hr hlive
  exact ⟨_, right, split_eq hok.refs hn choice, hview.acquire hrightOk rfl hpos, rfl, rfl⟩

lemma read_eq {b c : Nat} (hrefs : (h.struct b).refs = some c) (k : Nat) : h.read b k =
    let n := min k (h.struct b).len
    let copied := (h.data (h.struct b)).take n
    if n = (h.struct b).len then (h.free b).map (fun h' => (h', copied, true))
    else .ok (h.setStruct b { h.struct b with
      off := (h.struct b).off + n, len := (h.struct b).len - n }, copied, false) := by
  unfold BufferHeap.read
  dsimp only
  split
  · next hnone =>
    rw [hrefs] at hnone
    cases hnone
  · rfl

/-! ### Free -/

lemma RefLeads.free_eq (hr : RefLeads Q κ h r) : h.free r.buffer =
    (let h' := h.addRefs (κ r.origin) (-1)
     if 0 < h'.counter (κ r.origin) then .ok h'
     else if h'.counter (κ r.origin) = 0 then .ok (h'.recycle r.buffer (κ r.origin))
     else .error .panic) := by
  rw [BufferHeap.free, hr.refs]

lemma RefsCounted.counter_free (ho : RefsCounted Q κ h refs) (hr : r ∈ refs)
    (hlive : r.live = true) :
    (h.addRefs (κ r.origin) (-1)).counter (κ r.origin) =
      int32 ((liveCount refs r.origin : Int) - 1) := by
  have hpos := liveCount_pos hr hlive
  rw [counter_addRefs_self (ho.counterInUse _ hpos), ho.counter _ hpos, int32_int32_add]
  rfl

/-- The counter goes down with the number of live references, while one is left. -/
lemma RefsCounted.release {i : Nat} (ho : RefsCounted Q κ h refs) (hi : refs[i]? = some r)
    (hlive : r.live = true) (hmany : 1 < liveCount refs r.origin) :
    RefsCounted Q κ (h.addRefs (κ r.origin) (-1)) (refs.set i { r with live := false }) := by
  have hr := List.mem_of_getElem? hi
  have hpos := liveCount_release_pos hi hlive hmany
  have hin := ho.counterInUse _ (liveCount_pos hr hlive)
  refine ⟨ho.toReady.addRefs hin (-1), fun x hx hxl => ?_, fun o hlt => ?_, fun o hlt => ?_,
    fun o o' hlt hlt' => ho.inj o o' ((hpos o).mp hlt) ((hpos o').mp hlt')⟩
  · obtain hx | rfl := List.mem_or_eq_of_mem_set hx
    · have hok := ho.live x hx hxl
      exact hok.congr hok.inUse rfl rfl le_rfl rfl
    · cases hxl
  · exact ObjectPool.inUse_set.mpr (ho.counterInUse o ((hpos o).mp hlt))
  · by_cases he : r.origin = o
    · subst he
      have hc := liveCount_release_self hi hlive
      rw [ho.counter_free hr hlive]
      congr 1
      omega
    · have hlt' := (hpos o).mp hlt
      have hne : κ r.origin ≠ κ o := fun hκ => he (ho.inj _ _ (liveCount_pos hr hlive) hlt' hκ)
      rw [counter_addRefs_ne hne, ho.counter o hlt', liveCount_release_ne hi he]

/-- The last reference takes the struct, the counter and the origin slice with it. -/
lemma RefsCounted.recycle {i : Nat} (ho : RefsCounted Q κ h refs) (hi : refs[i]? = some r)
    (hlive : r.live = true) (hlast : liveCount refs r.origin = 1) :
    RefsCounted Q κ ((h.addRefs (κ r.origin) (-1)).recycle r.buffer (κ r.origin))
      (refs.set i { r with live := false }) := by
  have hr := List.mem_of_getElem? hi
  have hok := ho.live r hr hlive
  have hin := ho.counterInUse _ (liveCount_pos hr hlive)
  have hleft : ∀ o, 0 < liveCount (refs.set i { r with live := false }) o → r.origin ≠ o := by
    rintro o hlt rfl
    have hgone := liveCount_release_self hi hlive
    omega
  have hkeep : ∀ o, 0 < liveCount (refs.set i { r with live := false }) o →
      0 < liveCount refs o ∧ κ o ≠ κ r.origin := by
    intro o hlt
    have hne := hleft o hlt
    have hlt' : 0 < liveCount refs o := liveCount_release_ne hi hne ▸ hlt
    exact ⟨hlt', fun hκ => hne (ho.inj _ _ (liveCount_pos hr hlive) hlt' hκ.symm)⟩
  refine ⟨⟨(ho.buffers.set _ _).put (ObjectPool.inUse_set.mpr hok.inUse),
    (ho.counters.set _ _).put (ObjectPool.inUse_set.mpr hin), fun c hc => ?_⟩, fun x hx hxl => ?_,
    fun o hlt => ?_, fun o hlt => ?_,
    fun o o' hlt hlt' => ho.inj o o' (hkeep o hlt).1 (hkeep o' hlt').1⟩
  · obtain rfl | hc := List.mem_cons.mp hc
    · refine ⟨_, ObjectPool.getElem?_set_self hin, ?_⟩
      rw [ho.counter _ (liveCount_pos hr hlive), int32_int32_add, hlast]
      rfl
    · have hne : κ r.origin ≠ c := fun he => hin.2 (he ▸ hc)
      obtain ⟨x, hx, hz⟩ := ho.idle c hc
      exact ⟨x, (ObjectPool.getElem?_set_ne hne).trans hx, hz⟩
  · -- Another live reference to this struct would be one to the same slice.
    have hne : r.buffer ≠ x.buffer := by
      intro he
      have hlt := liveCount_pos hx hxl
      obtain hx | rfl := List.mem_or_eq_of_mem_set hx
      · have horigin := (ho.live x hx hxl).origin
        rw [← he, hok.origin, Option.some.injEq] at horigin
        exact hleft _ hlt horigin
      · cases hxl
    obtain hx | rfl := List.mem_or_eq_of_mem_set hx
    · have hxok := ho.live x hx hxl
      exact hxok.congr ((ObjectPool.inUse_set.mpr hxok.inUse).put hne.symm)
        (struct_setStruct_ne (h := h) hne _) rfl le_rfl rfl
    · cases hxl
  · obtain ⟨hlt', hne⟩ := hkeep o hlt
    exact (ObjectPool.inUse_set.mpr (ho.counterInUse o hlt')).put hne
  · obtain ⟨hlt', hne⟩ := hkeep o hlt
    rw [liveCount_release_ne hi (hleft o hlt)]
    exact (counter_addRefs_ne hne.symm (-1)).trans (ho.counter o hlt')

end Heap

end Zrpc.Proofs
