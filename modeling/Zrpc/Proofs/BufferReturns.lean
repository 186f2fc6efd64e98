import Zrpc.Proofs.BufferRefs

/-!
# Every origin slice is returned once

Runs of operations on references that have not been released. The number of live references to one
slice is bounded by what an `int32` counter can tell apart from a freed buffer.
-/

namespace Zrpc.Proofs

open Zrpc.Lib RefState

section Operations

variable {κ : Nat → Nat} {h : BufferHeap} {refs : List Reference} {r : Reference} {i : Nat}

/-- One more reference to a slice that has one returns nothing. -/
lemma ReturnsOnce.acquire {h' : BufferHeap} (hret : ReturnsOnce h refs)
    (hpos : 0 < liveCount refs r.origin) (hsame : h'.returned = h.returned)
    (horigins : h'.origins = h.origins) : ReturnsOnce h' (refs ++ [r]) := by
  intro o
  have hzero : liveCount (refs ++ [r]) o = 0 ↔ liveCount refs o = 0 := by
    have hiff := liveCount_concat_pos hpos o
    omega
  simp only [hsame, horigins, hzero]
  exact hret o

lemma RefsOwned.makeBuffer (ho : RefsOwned κ h refs) (data : Bytes) (choice refChoice : Option Nat) :
    ∃ κ', RefsOwned κ' (h.makeBuffer data true choice refChoice).1
      (refs ++ [⟨(h.makeBuffer data true choice refChoice).2, h.origins.length, true⟩]) := by
  obtain ⟨κ', hc⟩ := ho.toRefsCounted.makeBuffer data true rfl choice refChoice
  refine ⟨κ', hc, fun o => ?_⟩
  have hlen : (h.makeBuffer data true choice refChoice).1.origins.length = h.origins.length + 1 :=
    List.length_append
  have hret : (h.makeBuffer data true choice refChoice).1.returned = h.returned := rfl
  have hfresh := ho.toRefsCounted.liveCount_fresh (le_refl h.origins.length)
  rw [hret, ho.returned o, hlen, liveCount_concat]
  by_cases he : h.origins.length = o
  · subst he
    simp [share]
  · have hiff : o < h.origins.length + 1 ↔ o < h.origins.length := by omega
    simp only [hiff, share_ne (r := ⟨_, h.origins.length, true⟩) he, Nat.add_zero]

lemma RefsOwned.ref (ho : RefsOwned κ h refs) (hi : refs[i]? = some r) (hlive : r.live = true) :
    ∃ h', h.ref r.buffer = .ok h' ∧ RefsOwned κ h' (refs ++ [r]) := by
  have hr := List.mem_of_getElem? hi
  obtain ⟨hop, hc⟩ := ho.toRefsCounted.ref hr hlive
  have hret : ReturnsOnce (h.addRefs (κ r.origin) 1) (refs ++ [r]) :=
    ho.returned.acquire (liveCount_pos hr hlive) rfl rfl
  exact ⟨_, hop, hc, hret⟩

/-- The halves of a struct lead to the same slice and the same counter. -/
lemma RefsOwned.split (ho : RefsOwned κ h refs) (hi : refs[i]? = some r) (hlive : r.live = true)
    {n : Nat} (hn : n ≤ (h.struct r.buffer).len) (choice : Option Nat) :
    ∃ h' right, h.split r.buffer n choice = .ok (h', right) ∧
      RefsOwned κ h' (refs ++ [⟨right, r.origin, true⟩]) := by
  have hr := List.mem_of_getElem? hi
  obtain ⟨h', right, hop, hc, hsame, horigins⟩ := ho.toRefsCounted.split hr hlive hn choice
  have hpos : 0 < liveCount refs r.origin := liveCount_pos hr hlive
  have hret := ho.returned.acquire (r := ⟨right, r.origin, true⟩) hpos hsame horigins
  exact ⟨h', right, hop, hc, hret⟩

lemma RefsOwned.release (ho : RefsOwned κ h refs) (hi : refs[i]? = some r) (hlive : r.live = true)
    (hmany : 1 < liveCount refs r.origin) :
    RefsOwned κ (h.addRefs (κ r.origin) (-1)) (refs.set i { r with live := false }) := by
  refine ⟨ho.toRefsCounted.release hi hlive hmany, fun o => ?_⟩
  have hzero : liveCount (refs.set i { r with live := false }) o = 0 ↔ liveCount refs o = 0 := by
    have hp := liveCount_release_pos hi hlive hmany o
    omega
  have hret := ho.returned o
  simp only [hzero]
  exact hret

/-- The last reference takes the origin slice with it. -/
lemma RefsOwned.recycle (ho : RefsOwned κ h refs) (hi : refs[i]? = some r) (hlive : r.live = true)
    (hlast : liveCount refs r.origin = 1) :
    RefsOwned κ ((h.addRefs (κ r.origin) (-1)).recycle r.buffer (κ r.origin))
      (refs.set i { r with live := false }) := by
  refine ⟨ho.toRefsCounted.recycle hi hlive hlast, fun o => ?_⟩
  have hok := ho.live r (List.mem_of_getElem? hi) hlive
  have hst : (h.addRefs (κ r.origin) (-1)).struct r.buffer = h.struct r.buffer := rfl
  have hput : ((h.addRefs (κ r.origin) (-1)).recycle r.buffer (κ r.origin)).returned =
      h.returned ++ [r.origin] := by
    simp only [BufferHeap.recycle, hst, hok.pool, hok.origin, if_true, Option.toList_some]
    rfl
  have hlen : ((h.addRefs (κ r.origin) (-1)).recycle r.buffer (κ r.origin)).origins.length =
      h.origins.length := rfl
  rw [hput, hlen, List.count_append, ho.returned o]
  by_cases he : r.origin = o
  · subst he
    have hgone := liveCount_release_self hi hlive
    have hzero : liveCount (refs.set i { r with live := false }) r.origin = 0 := by omega
    simp [hlast, hzero, hok.valid]
  · have hnone : [r.origin].count o = 0 :=
      List.count_eq_zero_of_not_mem (by simpa using Ne.symm he)
    rw [hnone, Nat.add_zero, liveCount_release_ne hi he]

/-- Freeing a live reference, as long as the counter holds its number. -/
lemma RefsOwned.free (ho : RefsOwned κ h refs) (hi : refs[i]? = some r) (hlive : r.live = true)
    (hle : liveCount refs r.origin ≤ 2 ^ 31) :
    ∃ h', h.free r.buffer = .ok h' ∧ RefsOwned κ h' (refs.set i { r with live := false }) := by
  have hr := List.mem_of_getElem? hi
  have hpos := liveCount_pos hr hlive
  have hcounter := ho.toRefsCounted.counter_free hr hlive
  have heq : int32 ((liveCount refs r.origin : Int) - 1) = (liveCount refs r.origin : Int) - 1 :=
    int32_eq (by omega) (by omega)
  rw [heq] at hcounter
  rw [(ho.live r hr hlive).free_eq]
  dsimp only
  rw [hcounter]
  by_cases hlast : liveCount refs r.origin = 1
  · refine ⟨_, ?_, ho.recycle hi hlive hlast⟩
    rw [if_neg (by omega), if_pos (by omega)]
  · refine ⟨_, if_pos (by omega), ho.release hi hlive (by omega)⟩

/-- One reference more, and `Free` takes the wrapped counter for that of a freed buffer. -/
lemma RefsOwned.free_panics (ho : RefsOwned κ h refs) (hr : r ∈ refs) (hlive : r.live = true)
    (hcount : liveCount refs r.origin = 2 ^ 31 + 1) : h.free r.buffer = .error .panic := by
  have hcounter := ho.toRefsCounted.counter_free hr hlive
  rw [hcount] at hcounter
  have hneg : int32 (((2 ^ 31 + 1 : Nat) : Int) - 1) = -2 ^ 31 := by decide
  rw [hneg] at hcounter
  rw [(ho.toRefsCounted.live r hr hlive).free_eq]
  dsimp only
  rw [hcounter, if_neg (by decide), if_neg (by decide)]

/-- A `read` drains the buffer and frees it, or moves its view on. -/
lemma RefsOwned.read (ho : RefsOwned κ h refs) (hi : refs[i]? = some r) (hlive : r.live = true)
    (hle : liveCount refs r.origin ≤ 2 ^ 31) (k : Nat) :
    ∃ h' copied drained, h.read r.buffer k = .ok (h', copied, drained) ∧
      RefsOwned κ h' (if drained then refs.set i { r with live := false } else refs) := by
  have hok := ho.live r (List.mem_of_getElem? hi) hlive
  rw [read_eq hok.refs]
  dsimp only
  by_cases hdrain : min k (h.struct r.buffer).len = (h.struct r.buffer).len
  · obtain ⟨h', hfree, ho'⟩ := ho.free hi hlive hle
    rw [if_pos hdrain, hfree]
    exact ⟨h', _, true, rfl, ho'⟩
  · have hin : (h.struct r.buffer).off + min k (h.struct r.buffer).len +
        ((h.struct r.buffer).len - min k (h.struct r.buffer).len) ≤
        (h.struct r.buffer).off + (h.struct r.buffer).len := by omega
    exact ⟨_, _, false, if_neg hdrain, ho.toRefsCounted.setView hok.inUse hin, ho.returned⟩

end Operations

/-- No counter has gone further than to the value that still counts. -/
def Within (refs : List Reference) : Prop := ∀ o, liveCount refs o ≤ 2 ^ 31

section Within

variable {refs : List Reference} {r : Reference} {i : Nat}

lemma liveCount_acquire_le (hw : Within refs) (r : Reference) (o : Nat) :
    liveCount (refs ++ [r]) o ≤ 2 ^ 31 + 1 := by
  have hle := hw o
  have hshare : share o r ≤ 1 := by
    unfold share
    split <;> omega
  rw [liveCount_concat]
  omega

lemma within_acquire (hw : Within refs) (hlive : r.live = true) :
    Within (refs ++ [r]) ↔ liveCount refs r.origin < 2 ^ 31 := by
  constructor
  · intro h
    have hself := h r.origin
    rw [liveCount_concat, share_self hlive] at hself
    omega
  · intro h o
    rw [liveCount_concat]
    by_cases he : r.origin = o
    · subst he
      rw [share_self hlive]
      omega
    · rw [share_ne he]
      exact hw o

lemma within_release (hw : Within refs) (hi : refs[i]? = some r) :
    Within (refs.set i { r with live := false }) := by
  intro o
  have hc := liveCount_release hi o
  have hle := hw o
  omega

end Within

/-- What is asked of every state: each slice has been returned exactly once if no reference to it
is left and not at all before, no operation on a live reference panics, and a live reference shows
a part of a slice that has not been returned. -/
structure RefsSafe (s : RefState) : Prop where
  returned : ∀ o < s.heap.origins.length,
    s.heap.returned.count o = if liveCount s.refs o = 0 then 1 else 0
  usable : s.panicked = false ∧ ∀ a t, step s a = some t → t.panicked = false
  inside : ∀ r ∈ s.refs, r.live = true → (s.heap.struct r.buffer).originData = some r.origin ∧
    (s.heap.struct r.buffer).off + (s.heap.struct r.buffer).len ≤ (s.heap.origin r.origin).length ∧
    r.origin < s.heap.origins.length ∧ r.origin ∉ s.heap.returned
  readable : ∀ r ∈ s.refs, r.live = true →
    s.heap.readOnlyData r.buffer = .ok (s.heap.data (s.heap.struct r.buffer))

/-- A new reference is taken only while its slice has fewer than `2 ^ 31`. -/
def countable (s : RefState) : RefAction → Bool
  | .ref i | .split i _ _ => (s.find i).all fun r => liveCount s.refs r.origin < 2 ^ 31
  | _ => true

structure RefsInv (s : RefState) : Prop where
  running : s.panicked = false
  owned : ∃ κ, RefsOwned κ s.heap s.refs
  bounded : ∀ o, liveCount s.refs o ≤ 2 ^ 31 + 1

section Step

variable {s t : RefState} {a : RefAction}

lemma find_eq_some {i : Nat} {r : Reference} :
    s.find i = some r ↔ s.refs[i]? = some r ∧ r.live = true := by
  rw [RefState.find, Option.filter_eq_some_iff]

lemma RefsInv.of_owned {κ : Nat → Nat} {h : BufferHeap} {refs : List Reference}
    (ho : RefsOwned κ h refs) (hb : ∀ o, liveCount refs o ≤ 2 ^ 31 + 1) :
    RefsInv ⟨h, refs, false⟩ := ⟨rfl, ⟨κ, ho⟩, hb⟩

lemma Within.bounded {refs : List Reference} (hw : Within refs) (o : Nat) :
    liveCount refs o ≤ 2 ^ 31 + 1 := (hw o).trans (Nat.le_succ _)

/-- A step from a state in which every counter counts. -/
lemma step_spec (hs : RefsInv s) (hw : Within s.refs) (h : step s a = some t) :
    RefsInv t ∧ (Within t.refs ↔ countable s a = true) := by
  obtain ⟨κ, ho⟩ := hs.owned
  unfold step at h
  rw [if_neg (by simp [hs.running])] at h
  cases a with
  | newBuffer data cap choice refChoice =>
    obtain ⟨κ', ho'⟩ := ho.makeBuffer data choice refChoice
    have hfresh := ho.toRefsCounted.liveCount_fresh (le_refl s.heap.origins.length)
    simp only [BufferHeap.NewBuffer, Bool.not_true, Bool.false_and, Bool.false_eq_true, if_false,
      Option.some.injEq] at h
    subst h
    refine ⟨.of_owned ho' (liveCount_acquire_le hw _), iff_of_true ?_ rfl⟩
    refine (within_acquire hw rfl).mpr ?_
    dsimp only
    omega
  | ref i =>
    obtain ⟨r, hfind, rfl⟩ := Option.map_eq_some_iff.mp h
    obtain ⟨hi, hlive⟩ := find_eq_some.mp hfind
    obtain ⟨h', hop, ho'⟩ := ho.ref hi hlive
    rw [hop]
    refine ⟨.of_owned ho' (liveCount_acquire_le hw _), (within_acquire hw hlive).trans ?_⟩
    simp [countable, hfind]
  | free i =>
    obtain ⟨r, hfind, rfl⟩ := Option.map_eq_some_iff.mp h
    obtain ⟨hi, hlive⟩ := find_eq_some.mp hfind
    obtain ⟨h', hop, ho'⟩ := ho.free hi hlive (hw _)
    have hw' := within_release hw hi
    rw [hop]
    exact ⟨.of_owned ho' hw'.bounded, iff_of_true hw' rfl⟩
  | split i n choice =>
    obtain ⟨r, hfind, hsplit⟩ := Option.bind_eq_some_iff.mp h
    obtain ⟨hi, hlive⟩ := find_eq_some.mp hfind
    split at hsplit
    · next hn =>
      obtain ⟨h', right, hop, ho'⟩ := ho.split hi hlive hn choice
      rw [hop] at hsplit
      obtain rfl := Option.some.inj hsplit
      refine ⟨.of_owned ho' (liveCount_acquire_le hw _), (within_acquire hw rfl).trans ?_⟩
      simp [countable, hfind]
    · cases hsplit
  | read i k =>
    obtain ⟨r, hfind, rfl⟩ := Option.map_eq_some_iff.mp h
    obtain ⟨hi, hlive⟩ := find_eq_some.mp hfind
    obtain ⟨h', copied, drained, hop, ho'⟩ := ho.read hi hlive (hw _) k
    have hw' : Within (if drained then s.refs.set i { r with live := false } else s.refs) := by
      split
      · exact within_release hw hi
      · exact hw
    rw [hop]
    exact ⟨.of_owned ho' hw'.bounded, iff_of_true hw' rfl⟩

/-- With one reference too many, the next `Free` panics. -/
lemma RefsInv.within_of_usable (hs : RefsInv s)
    (husable : ∀ a t, step s a = some t → t.panicked = false) : Within s.refs := by
  intro o
  by_contra hgt
  have hcount : liveCount s.refs o = 2 ^ 31 + 1 := by
    have hle := hs.bounded o
    omega
  obtain ⟨κ, ho⟩ := hs.owned
  obtain ⟨r, hr, hlive, rfl⟩ := exists_live (by omega : 0 < liveCount s.refs o)
  obtain ⟨i, hi⟩ := List.mem_iff_getElem?.mp hr
  have hfind : s.find i = some r := find_eq_some.mpr ⟨hi, hlive⟩
  have hstep : step s (.free i) = some { s with panicked := true } := by
    rw [step, if_neg (by simp [hs.running]), hfind, Option.map_some, ho.free_panics hr hlive hcount]
    rfl
  cases husable _ _ hstep

lemma RefsInv.safe_iff (hs : RefsInv s) : RefsSafe s ↔ Within s.refs := by
  constructor
  · exact fun h => hs.within_of_usable h.usable.2
  · intro hw
    obtain ⟨κ, ho⟩ := hs.owned
    refine ⟨fun o hlt => ?_, ⟨hs.running, fun a t h => (step_spec hs hw h).1.running⟩,
      fun r hr hlive => ?_, fun r hr hlive => ?_⟩
    · rw [ho.returned o]
      simp only [hlt, true_and]
    · have hok := ho.live r hr hlive
      refine ⟨hok.origin, hok.inside, hok.valid, ?_⟩
      have hpos := liveCount_pos hr hlive
      rw [← List.count_eq_zero, ho.returned, if_neg]
      omega
    · rw [BufferHeap.readOnlyData, (ho.live r hr hlive).refs]

end Step

lemma refsInv_start : RefsInv start :=
  ⟨rfl, ⟨id, ready_empty.counted_nil, fun _ => rfl⟩, fun _ => Nat.zero_le _⟩

/-- Every state of a run is safe exactly when no step takes a reference to a slice that has `2 ^ 31`
of them. -/
theorem buffers_returned_once_iff {acts : List RefAction} {t : RefState}
    (h : exec step start acts = some t) :
    (∀ bs s, bs <+: acts → exec step start bs = some s → RefsSafe s) ↔
      Guarded step (fun s a => countable s a) start acts := by
  refine exec_always_iff_guarded_of_inv RefsInv RefsSafe ?_ ?_ refsInv_start ?_ h
  · intro s a t hs hgood hstep
    exact (step_spec hs (hs.safe_iff.mp hgood) hstep).1
  · intro s a t hs hgood hstep
    obtain ⟨ht, hiff⟩ := step_spec hs (hs.safe_iff.mp hgood) hstep
    exact ht.safe_iff.trans hiff
  · exact refsInv_start.safe_iff.mpr fun o => Nat.zero_le _

/-- A buffer is split, one half drained and the other freed; its struct and counter are reused. -/
def recycledRun : List RefAction :=
  [.newBuffer [1, 2, 3] 3 none none, .split 0 1 none, .ref 1, .read 1 2, .free 2, .read 0 4,
    .newBuffer [4] 1 (some 0) (some 0), .free 3]

theorem buffers_returned_once_recycled :
    ∃ t, exec step start recycledRun = some t ∧ t.heap.returned = [0, 1] ∧
      ∀ bs s, bs <+: recycledRun → exec step start bs = some s → RefsSafe s := by
  have hrun : ∃ t ∈ exec step start recycledRun, t.heap.returned = [0, 1] := by decide +kernel
  have hguard : Guarded step (fun s a => countable s a) start recycledRun := by decide +kernel
  obtain ⟨t, ht, hret⟩ := hrun
  exact ⟨t, ht, hret, (buffers_returned_once_iff ht).mpr hguard⟩

/-- One buffer, to which `n` references are taken. -/
def refRun (n : Nat) : List RefAction :=
  .newBuffer [] 0 none none :: List.replicate n (.ref 0)

lemma liveCount_replicate (n : Nat) {r : Reference} (hlive : r.live = true) :
    liveCount (List.replicate n r) r.origin = n := by
  induction n with
  | zero => rfl
  | succ n ih => rw [List.replicate_succ', liveCount_concat, ih, share_self hlive]

/-- `Ref` never looks at the counter, so it goes on past any number of references. -/
lemma exec_refRun (n : Nat) : ∃ s κ b, exec step start (refRun n) = some s ∧ s.panicked = false ∧
    RefsOwned κ s.heap s.refs ∧ s.refs = List.replicate (n + 1) ⟨b, 0, true⟩ := by
  induction n with
  | zero =>
    obtain ⟨κ, ho⟩ := refsInv_start.owned
    obtain ⟨κ', ho'⟩ := ho.makeBuffer [] none none
    exact ⟨_, κ', _, rfl, rfl, ho', rfl⟩
  | succ n ih =>
    obtain ⟨s, κ, b, hexec, hrunning, ho, hrefs⟩ := ih
    have hfirst : s.refs[0]? = some ⟨b, 0, true⟩ := by rw [hrefs, List.replicate_succ]; rfl
    have hfind : s.find 0 = some ⟨b, 0, true⟩ := find_eq_some.mpr ⟨hfirst, rfl⟩
    obtain ⟨h', href, ho'⟩ := ho.ref hfirst rfl
    have hstep : step s (.ref 0) = some ⟨h', s.refs ++ [⟨b, 0, true⟩], false⟩ := by
      rw [step, if_neg (by simp [hrunning]), hfind, Option.map_some, href]
      rfl
    have hrun : refRun (n + 1) = refRun n ++ [.ref 0] := by
      rw [refRun, refRun, List.replicate_succ', List.cons_append]
    refine ⟨⟨h', s.refs ++ [⟨b, 0, true⟩], false⟩, κ, b, ?_, rfl, ho', ?_⟩
    · rw [hrun]
      exact exec_append_some.mpr ⟨s, hexec, exec_cons_some.mpr ⟨_, hstep, rfl⟩⟩
    · dsimp only
      rw [hrefs, ← List.replicate_succ']

/-- With `2 ^ 31 + 1` references, all live, the first `Free` panics. -/
theorem buffers_counter_wraps : ∃ s t, exec step start (refRun (2 ^ 31)) = some s ∧
    step s (.free 0) = some t ∧ t.panicked = true := by
  obtain ⟨s, κ, b, hexec, hrunning, ho, hrefs⟩ := exec_refRun (2 ^ 31)
  have hfirst : s.refs[0]? = some ⟨b, 0, true⟩ := by rw [hrefs, List.replicate_succ]; rfl
  have hfind : s.find 0 = some ⟨b, 0, true⟩ := find_eq_some.mpr ⟨hfirst, rfl⟩
  have hcount : liveCount s.refs 0 = 2 ^ 31 + 1 := by
    rw [hrefs]
    exact liveCount_replicate (2 ^ 31 + 1) (r := ⟨b, 0, true⟩) rfl
  have hfree := ho.free_panics (List.mem_of_getElem? hfirst) rfl hcount
  refine ⟨s, { s with panicked := true }, hexec, ?_, rfl⟩
  rw [step, if_neg (by simp [hrunning]), hfind, Option.map_some, hfree]
  rfl

end Zrpc.Proofs
