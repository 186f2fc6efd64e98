import Zrpc.EtcdWatch
import Zrpc.Proofs.CachedDiscovery

/-!
# When the cache of an etcd discovery is up to date

A list of servers is fresh up to a revision if etcd gave it at a revision since which nothing that
the discovery watches has changed. The last refresh of the watch loop makes the cache fresh up to
what the channel has delivered, and refreshes that do not overlap keep it so.
-/

namespace Zrpc.Proofs

open Zrpc.Lib EtcdDiscovery

variable {β α ω : Type}

/-! ### Answers of etcd -/

/-- etcd gave the list at a revision since which, up to `pos`, no watched key has changed. -/
def Fresh (X : Etcd β α ω) (addrOf : Bytes → Option GoString) (serviceName : GoString) (b : β)
    (pos : Nat) (servers : List GoString) : Prop :=
  ∃ b₀ as o, exec X.step b₀ as = some b ∧
    servers = addresses addrOf (X.get o b₀ (getKeyPrefix serviceName)) ∧
    ∀ c ∈ ((X.changes b).take pos).drop (X.changes b₀).length, watches serviceName c.key = false

section Answers

variable {X : Etcd β α ω} {addrOf : Bytes → Option GoString} {serviceName : GoString} {b b' : β}
  {pos : Nat} {servers : List GoString} {a : α}

lemma fresh_now (b : β) (pos : Nat) (o : ω) : Fresh X addrOf serviceName b pos
    (addresses addrOf (X.get o b (getKeyPrefix serviceName))) := by
  refine ⟨b, [], o, rfl, rfl, fun c hc => ?_⟩
  rw [List.drop_eq_nil_of_le (by simp)] at hc
  cases hc

lemma Fresh.mono (h : Fresh X addrOf serviceName b pos servers) {pos' : Nat} (hle : pos' ≤ pos) :
    Fresh X addrOf serviceName b pos' servers := by
  obtain ⟨b₀, as, o, hrun, hservers, hquiet⟩ := h
  refine ⟨b₀, as, o, hrun, hservers, fun c hc => hquiet c ?_⟩
  rw [List.drop_take] at hc ⊢
  exact List.take_subset_take_left _ (by omega) hc

lemma Fresh.step (hX : EtcdLaw X) (h : Fresh X addrOf serviceName b pos servers)
    (hb : X.step b a = some b') (hpos : pos ≤ (X.changes b).length) :
    Fresh X addrOf serviceName b' pos servers := by
  obtain ⟨b₀, as, o, hrun, hservers, hquiet⟩ := h
  refine ⟨b₀, as ++ [a], o, exec_append_some.mpr ⟨b, hrun, exec_cons_some.mpr ⟨b', hb, rfl⟩⟩,
    hservers, ?_⟩
  obtain ⟨more, hmore⟩ := hX.changes b a b' hb
  rw [← hmore, List.take_append_of_le_length hpos]
  exact hquiet

/-- A change that is not watched leaves a list fresh up to the newest revision. -/
lemma Fresh.extend (hX : EtcdLaw X) (h : Fresh X addrOf serviceName b (X.changes b).length servers)
    (hb : X.step b a = some b')
    (hc : ∀ c ∈ (X.changes b').drop (X.changes b).length, watches serviceName c.key = false) :
    Fresh X addrOf serviceName b' (X.changes b').length servers := by
  obtain ⟨b₀, as, o, hrun, hservers, hquiet⟩ := h
  refine ⟨b₀, as ++ [a], o, exec_append_some.mpr ⟨b, hrun, exec_cons_some.mpr ⟨b', hb, rfl⟩⟩,
    hservers, fun c hmem => ?_⟩
  obtain ⟨more, hmore⟩ := hX.changes b a b' hb
  rw [← hmore] at hc hmem
  rw [List.take_length, List.drop_append] at hmem
  rw [List.take_length] at hquiet
  rcases List.mem_append.mp hmem with hold | hnew
  · exact hquiet c hold
  · refine hc c ?_
    rw [List.drop_left]
    exact List.mem_of_mem_drop hnew

/-- A list that is fresh, with no watched change since, has the addresses that a `Get` would find. -/
lemma Fresh.perm_get (hX : EtcdLaw X) (h : Fresh X addrOf serviceName b pos servers)
    (hrest : ∀ c ∈ (X.changes b).drop pos, watches serviceName c.key = false) (o : ω) :
    servers.Perm (addresses addrOf (X.get o b (getKeyPrefix serviceName))) := by
  obtain ⟨b₀, as, o₀, hrun, rfl, hquiet⟩ := h
  refine (hX.get b₀ as b o₀ o _ hrun fun c hc => ?_).filterMap _
  rw [← List.take_append_drop pos (X.changes b), List.drop_append] at hc
  rcases List.mem_append.mp hc with hbefore | hafter
  · exact hquiet c hbefore
  · exact hrest c (List.mem_of_mem_drop hafter)

end Answers

/-! ### Conditions on a run -/

/-- A goroutine holds an answer that it has yet to store. -/
def storingAt (s : CacheState β) (i : Nat) : Bool :=
  match s.threads[i]? with
  | some ⟨_, _, .storing _ _⟩ => true
  | _ => false

/-- At most one goroutine does. -/
def Serial (s : CacheState β) : Prop :=
  ∀ i < s.threads.length, ∀ j < s.threads.length, storingAt s i = true → storingAt s j = true → i = j

/-- The `Refresh` of `NewDiscovery` has not read from etcd yet. -/
def unasked (s : WatchState β) : Bool :=
  match s.cache.threads.head? with
  | some ⟨_, _, .start⟩ | some ⟨_, _, .querying⟩ => true
  | _ => false

/-- The `Refresh` of the watch loop has returned nil. -/
def loopRefreshed (s : WatchState β) : Bool :=
  match s.watcher with
  | some (.refreshing _ thread) => s.refreshed thread
  | _ => false

/-- No two refreshes overlap, no service comes or goes between the first `Refresh` and the start of
the watch, the watch loop's own refreshes succeed, and nobody calls `Update`. -/
def WatchOk (X : Etcd β α ω) (addrOf : Bytes → Option GoString) (serviceName : GoString)
    (s : WatchState β) (a : WatchAction α ω) : Prop :=
  (∀ t ∈ watchStep X addrOf serviceName s a, Serial t.cache) ∧
    match a with
    | .cache (.call (.Update _)) => False
    | .cache (.backend x) => s.watcher = none → ∀ b ∈ X.step s.cache.backend x,
      ∀ c ∈ (X.changes b).drop (X.changes s.cache.backend).length,
        watches serviceName c.key = true → unasked s = true
    | .resume => loopRefreshed s = true
    | _ => True

instance : DecidablePred (@Serial β) := fun s =>
  inferInstanceAs (Decidable (∀ i < s.threads.length, ∀ j < s.threads.length,
    storingAt s i = true → storingAt s j = true → i = j))

instance (X : Etcd β α ω) (addrOf : Bytes → Option GoString) (serviceName : GoString)
    (s : WatchState β) : ∀ a, Decidable (WatchOk X addrOf serviceName s a)
  | .cache (.call (.Update _)) => inferInstanceAs (Decidable (_ ∧ False))
  | .cache (.call (.Get _ _)) | .cache (.call .GetAll) | .cache (.call .Refresh) | .cache (.run _)
  | .cache (.query _ _ _) | .watch | .deliver _ | .close => inferInstanceAs (Decidable (_ ∧ True))
  | .cache (.backend x) =>
    inferInstanceAs (Decidable (_ ∧ (s.watcher = none → ∀ b ∈ X.step s.cache.backend x,
      ∀ c ∈ (X.changes b).drop (X.changes s.cache.backend).length,
        watches serviceName c.key = true → unasked s = true)))
  | .resume => inferInstanceAs (Decidable (_ ∧ loopRefreshed s = true))

/-! ### The invariant -/

/-- The revision up to which the cache ought to be fresh. -/
def target (X : Etcd β α ω) (s : WatchState β) : Nat :=
  match s.watcher with
  | none => (X.changes s.cache.backend).length
  | some (.waiting pos) | some (.refreshing pos _) => pos
  | some .closed => 0

/-- The goroutine whose `Refresh` is to make it so. -/
def activeThread (s : WatchState β) : Option Nat :=
  match s.watcher with
  | none => some 0
  | some (.refreshing _ thread) => some thread
  | some (.waiting _) | some .closed => none

/-- That goroutine is through. -/
def Refreshed (s : WatchState β) : Prop :=
  ∀ i, activeThread s = some i → ∃ th, s.cache.threads[i]? = some th ∧ th.pc = .finished .done

section Invariant

variable {X : Etcd β α ω} {addrOf : Bytes → Option GoString} {serviceName : GoString}

structure WatchInv (X : Etcd β α ω) (addrOf : Bytes → Option GoString) (serviceName : GoString)
    (s : WatchState β) : Prop where
  serial : Serial s.cache
  pos : target X s ≤ (X.changes s.cache.backend).length
  bound : ∀ i, activeThread s = some i → i < s.cache.threads.length
  calls : ∀ th ∈ s.cache.threads, th.pc ≠ .leaving .done ∧ ∀ servers, th.call ≠ .Update servers
  answered : ∀ i th servers answeredAt, s.cache.threads[i]? = some th →
    th.pc = .storing servers answeredAt → activeThread s = some i ∨ Refreshed s →
    Fresh X addrOf serviceName s.cache.backend (target X s) servers
  cached : Refreshed s → Fresh X addrOf serviceName s.cache.backend (target X s) s.cache.servers

lemma storingAt_of {s : CacheState β} {i : Nat} {th : CacheThread} {servers : List GoString}
    {answeredAt : Int} (hth : s.threads[i]? = some th) (hpc : th.pc = .storing servers answeredAt) :
    storingAt s i = true := by
  obtain ⟨call, calledAt, pc⟩ := th
  cases hpc
  unfold storingAt
  rw [hth]

lemma Serial.eq {s : CacheState β} (h : Serial s) {i j : Nat} {th th' : CacheThread}
    {servers servers' : List GoString} {answeredAt answeredAt' : Int} (hi : s.threads[i]? = some th)
    (hpc : th.pc = .storing servers answeredAt) (hj : s.threads[j]? = some th')
    (hpc' : th'.pc = .storing servers' answeredAt') : i = j :=
  h i (List.getElem?_eq_some_iff.mp hi).1 j (List.getElem?_eq_some_iff.mp hj).1
    (storingAt_of hi hpc) (storingAt_of hj hpc')

/-- A step of goroutine `i`, which leaves etcd and the watcher alone. -/
structure ThreadStep (s t : WatchState β) (i : Nat) (th : CacheThread) (pc : CachePc) : Prop where
  thread : s.cache.threads[i]? = some th
  threads : t.cache.threads = s.cache.threads.set i { th with pc := pc }
  watcher : t.watcher = s.watcher
  backend : t.cache.backend = s.cache.backend

variable {s t : WatchState β} {i : Nat} {th : CacheThread} {pc : CachePc}

lemma ThreadStep.target_eq (h : ThreadStep s t i th pc) : target X t = target X s := by
  unfold target
  rw [h.watcher, h.backend]

lemma ThreadStep.active_eq (h : ThreadStep s t i th pc) : activeThread t = activeThread s := by
  unfold activeThread
  rw [h.watcher]

/-- If the goroutine that counts is through, it was so before, or this step was its last. -/
lemma ThreadStep.refreshed (h : ThreadStep s t i th pc) (ht : Refreshed t) :
    Refreshed s ∨ activeThread s = some i ∧ pc = .finished .done := by
  by_cases hi : activeThread s = some i ∧ pc = .finished .done
  · exact .inr hi
  · refine .inl fun j hj => ?_
    obtain ⟨th', hth', hpc'⟩ := ht j (h.active_eq.trans hj)
    rw [h.threads] at hth'
    rcases getElem?_set_cases hth' with ⟨rfl, rfl⟩ | ⟨-, hold⟩
    · exact absurd ⟨hj, hpc'⟩ hi
    · exact ⟨th', hold, hpc'⟩

lemma WatchInv.thread (hs : WatchInv X addrOf serviceName s) (hserial : Serial t.cache)
    (h : ThreadStep s t i th pc) (hpc : pc ≠ .leaving .done)
    (hanswered : ∀ j th' servers answeredAt, t.cache.threads[j]? = some th' →
      th'.pc = .storing servers answeredAt → activeThread s = some j ∨ Refreshed t →
      Fresh X addrOf serviceName s.cache.backend (target X s) servers)
    (hcached : Refreshed t → Fresh X addrOf serviceName s.cache.backend (target X s) t.cache.servers) :
    WatchInv X addrOf serviceName t := by
  refine ⟨hserial, ?_, fun j hj => ?_, fun th' hth' => ?_, fun j th' servers answeredAt hth' hpc' => ?_,
    fun ht => ?_⟩
  · rw [h.target_eq, h.backend]
    exact hs.pos
  · rw [h.threads, List.length_set]
    exact hs.bound j (h.active_eq ▸ hj)
  · rw [h.threads] at hth'
    rcases List.mem_or_eq_of_mem_set hth' with hold | rfl
    · exact hs.calls th' hold
    · exact ⟨hpc, (hs.calls th (List.mem_of_getElem? h.thread)).2⟩
  · rw [h.target_eq, h.backend, h.active_eq]
    exact hanswered j th' servers answeredAt hth' hpc'
  · rw [h.target_eq, h.backend]
    exact hcached ht

/-- A goroutine goes on to `pc`, with the cached list as it was. -/
lemma WatchInv.setPc (hs : WatchInv X addrOf serviceName s) (hserial : Serial t.cache)
    (h : ThreadStep s t i th pc) (hservers : t.cache.servers = s.cache.servers)
    (hdone : pc ≠ .finished .done) (hleaving : pc ≠ .leaving .done)
    (hanswer : ∀ servers answeredAt, pc = .storing servers answeredAt →
      Fresh X addrOf serviceName s.cache.backend (target X s) servers) :
    WatchInv X addrOf serviceName t := by
  have hrefreshed : Refreshed t → Refreshed s := fun ht =>
    (h.refreshed ht).resolve_right fun hlast => hdone hlast.2
  refine hs.thread hserial h hleaving (fun j th' servers answeredAt hth' hpc' hwho => ?_) fun ht => ?_
  · rw [h.threads] at hth'
    rcases getElem?_set_cases hth' with ⟨-, rfl⟩ | ⟨-, hold⟩
    · exact hanswer servers answeredAt hpc'
    · exact hs.answered j th' servers answeredAt hold hpc' (hwho.imp_right hrefreshed)
  · rw [hservers]
    exact hs.cached (hrefreshed ht)

/-- A goroutine stores its answer, which no other goroutine can overwrite with an older one. -/
lemma WatchInv.store (hs : WatchInv X addrOf serviceName s) (hserial : Serial t.cache)
    (h : ThreadStep s t i th pc) {answeredAt : Int}
    (hpc : th.pc = .storing t.cache.servers answeredAt)
    (hnext : pc = .finished .done ∨ pc = .refreshed) : WatchInv X addrOf serviceName t := by
  have hleaving : pc ≠ .leaving .done := by
    rcases hnext with rfl | rfl <;> simp
  refine hs.thread hserial h hleaving (fun j th' servers answeredAt' hth' hpc' _ => ?_) fun ht => ?_
  · rw [h.threads] at hth'
    rcases getElem?_set_cases hth' with ⟨-, rfl⟩ | ⟨hne, hold⟩
    · rcases hnext with rfl | rfl <;> cases hpc'
    · exact absurd (hs.serial.eq h.thread hpc hold hpc') hne
  · refine hs.answered i th _ answeredAt h.thread hpc ?_
    rcases h.refreshed ht with hold | ⟨hactive, -⟩
    · exact .inr hold
    · exact .inl hactive

lemma unasked_pc (h : unasked s = true) {th : CacheThread} (hth : s.cache.threads[0]? = some th) :
    th.pc = .start ∨ th.pc = .querying := by
  unfold unasked at h
  rw [List.head?_eq_getElem?, hth] at h
  split at h
  · next heq => exact .inl (congrArg CacheThread.pc (Option.some.inj heq))
  · next heq => exact .inr (congrArg CacheThread.pc (Option.some.inj heq))
  · cases h

/-- etcd goes on. A change that counts for the first `Refresh` comes before it has asked. -/
lemma WatchInv.change (hX : EtcdLaw X) (hs : WatchInv X addrOf serviceName s) {x : α} {b : β}
    (hb : X.step s.cache.backend x = some b)
    (hchange : s.watcher = none → ∀ c ∈ (X.changes b).drop (X.changes s.cache.backend).length,
      watches serviceName c.key = true → unasked s = true) :
    WatchInv X addrOf serviceName ⟨{ s.cache with backend := b }, s.watcher⟩ := by
  let t : WatchState β := ⟨{ s.cache with backend := b }, s.watcher⟩
  have hpos := hs.pos
  have hgrow := (hX.changes _ _ _ hb).length_le
  have hfresh : ∀ servers, (s.watcher = none →
      ∀ c ∈ (X.changes b).drop (X.changes s.cache.backend).length, watches serviceName c.key = false) →
      Fresh X addrOf serviceName s.cache.backend (target X s) servers →
      Fresh X addrOf serviceName b (target X t) servers := by
    intro servers hc h
    unfold target at h hpos ⊢
    cases hw : s.watcher with
    | none =>
      simp only [t, hw] at h ⊢
      exact h.extend hX hb (hc hw)
    | some w =>
      cases w <;> simp only [hw] at h hpos ⊢ <;> exact h.step hX hb (by omega)
  have hbound : target X t ≤ (X.changes b).length := by
    unfold target at hpos ⊢
    cases hw : s.watcher with
    | none => simp only [t, le_refl]
    | some w => cases w <;> simp only [hw] at hpos ⊢ <;> omega
  by_cases hasked : unasked s = true ∧ s.watcher = none
  · -- the first `Refresh` has yet to ask, so nothing is claimed about the cache
    have hzero : activeThread s = some 0 := by
      unfold activeThread
      rw [hasked.2]
    have hnot : ¬Refreshed s := by
      intro h
      obtain ⟨th, hth, hpc⟩ := h 0 hzero
      rcases unasked_pc hasked.1 hth with hstart | hquery
      · cases hstart.symm.trans hpc
      · cases hquery.symm.trans hpc
    refine ⟨hs.serial, hbound, hs.bound, hs.calls, fun i th servers answeredAt hth hpc hwho => ?_,
      fun h => absurd h hnot⟩
    rcases hwho with hactive | h
    · cases hzero.symm.trans hactive
      rcases unasked_pc hasked.1 hth with hstart | hquery
      · cases hstart.symm.trans hpc
      · cases hquery.symm.trans hpc
    · exact absurd h hnot
  · have hc : s.watcher = none → ∀ c ∈ (X.changes b).drop (X.changes s.cache.backend).length,
        watches serviceName c.key = false := fun hw c hmem =>
      Bool.eq_false_iff.mpr fun hwatched => hasked ⟨hchange hw c hmem hwatched, hw⟩
    exact ⟨hs.serial, hbound, hs.bound, hs.calls,
      fun i th servers answeredAt hth hpc hwho =>
        hfresh servers hc (hs.answered i th servers answeredAt hth hpc hwho),
      fun h => hfresh _ hc (hs.cached h)⟩

/-- A new goroutine. -/
lemma WatchInv.call (hs : WatchInv X addrOf serviceName s) {th : CacheThread}
    (hserial : Serial { s.cache with threads := s.cache.threads ++ [th] }) (hpc : th.pc = .start)
    (hc : ∀ servers, th.call ≠ .Update servers) :
    WatchInv X addrOf serviceName ⟨{ s.cache with threads := s.cache.threads ++ [th] }, s.watcher⟩ := by
  have hold : ∀ (i : Nat) (th' : CacheThread), (s.cache.threads ++ [th])[i]? = some th' →
      th'.pc ≠ .start → s.cache.threads[i]? = some th' := by
    intro i th' hth' hne
    rw [List.getElem?_append] at hth'
    split at hth'
    · exact hth'
    · exact absurd (List.mem_singleton.mp (List.mem_of_getElem? hth') ▸ hpc) hne
  have hrefreshed : Refreshed ⟨{ s.cache with threads := s.cache.threads ++ [th] }, s.watcher⟩ →
      Refreshed s := by
    intro h i hi
    obtain ⟨th', hth', hpc'⟩ := h i hi
    exact ⟨th', hold i th' hth' (by simp [hpc']), hpc'⟩
  refine ⟨hserial, hs.pos, fun i hi => ?_, fun th' hth' => ?_,
    fun i th' servers answeredAt hth' hpc' hwho => ?_, fun h => hs.cached (hrefreshed h)⟩
  · have hlt := hs.bound i hi
    simp only [List.length_append]
    omega
  · rcases List.mem_append.mp hth' with hmem | hmem
    · exact hs.calls th' hmem
    · rw [List.mem_singleton.mp hmem]
      exact ⟨by simp [hpc], hc⟩
  · exact hs.answered i th' servers answeredAt (hold i th' hth' (by simp [hpc'])) hpc'
      (hwho.imp_right hrefreshed)

lemma WatchInv.move (hX : EtcdLaw X) (hs : WatchInv X addrOf serviceName s) {cache : CacheState β}
    (hserial : Serial cache) {a : CacheAction α ω}
    (hm : CacheMove (EtcdDiscovery.backend X addrOf serviceName) s.cache a cache)
    (hcall : ∀ servers, a ≠ .call (.Update servers))
    (hchange : ∀ x, a = .backend x → s.watcher = none → ∀ b ∈ X.step s.cache.backend x,
      ∀ c ∈ (X.changes b).drop (X.changes s.cache.backend).length,
        watches serviceName c.key = true → unasked s = true) :
    WatchInv X addrOf serviceName ⟨cache, s.watcher⟩ := by
  cases hm with
  | backend hb => exact hs.change hX hb fun hw => hchange _ rfl hw _ hb
  | call => exact hs.call hserial rfl fun servers hc => hcall servers (congrArg CacheAction.call hc)
  | @quiet a i th pc idx hth hpc =>
    have hstep : ThreadStep s ⟨{ s.cache with idx := idx }.setPc i th pc, s.watcher⟩ i th pc :=
      ⟨hth, rfl, rfl, rfl⟩
    refine hs.setPc hserial hstep rfl ?_ ?_ ?_
    · cases hpc <;> simp
    · cases hpc <;> simp
    · intro servers answeredAt hstoring
      cases hpc with
      | answer hpc hq =>
        cases hstoring
        rw [← Except.ok.inj hq]
        exact fresh_now _ _ _
      | _ => cases hstoring
  | @acquire a i th pc mu hth hmu hpc =>
    have hstep : ThreadStep s ⟨{ s.cache with mu := mu }.setPc i th pc, s.watcher⟩ i th pc :=
      ⟨hth, rfl, rfl, rfl⟩
    refine hs.setPc hserial hstep rfl ?_ ?_ ?_
    all_goals rcases hpc with ⟨-, rfl⟩ | ⟨-, rfl⟩ <;> simp
  | @release a i th pc hth hpc =>
    have hstep : ThreadStep s ⟨{ s.cache with mu := s.cache.mu.runlock i }.setPc i th pc, s.watcher⟩
        i th pc := ⟨hth, rfl, rfl, rfl⟩
    have hleaves := (hs.calls th (List.mem_of_getElem? hth)).1
    refine hs.setPc hserial hstep rfl ?_ ?_ ?_
    · rcases hpc with ⟨-, rfl⟩ | ⟨result, hpc, rfl⟩
      · simp
      · intro hdone
        cases hdone
        exact hleaves hpc
    all_goals rcases hpc with ⟨-, rfl⟩ | ⟨result, -, rfl⟩ <;> simp
  | update hth hpc hupdate hfree =>
    exact absurd hupdate ((hs.calls _ (List.mem_of_getElem? hth)).2 _)
  | @store i th servers answeredAt pc hth hpc hfree hnext =>
    exact hs.store hserial ⟨hth, rfl, rfl, rfl⟩ hpc hnext
  | panic => exact ⟨hserial, hs.pos, hs.bound, hs.calls, hs.answered, hs.cached⟩

/-- The channel delivers; nothing is claimed about the cache until the loop has refreshed it. -/
lemma WatchInv.deliver (hs : WatchInv X addrOf serviceName s) {pos : Nat}
    (hpos : pos ≤ (X.changes s.cache.backend).length) {th : CacheThread}
    (hserial : Serial { s.cache with threads := s.cache.threads ++ [th] }) (hpc : th.pc = .start)
    (hc : ∀ servers, th.call ≠ .Update servers) :
    WatchInv X addrOf serviceName ⟨{ s.cache with threads := s.cache.threads ++ [th] },
      some (.refreshing pos s.cache.threads.length)⟩ := by
  have hnew : ∀ th', (s.cache.threads ++ [th])[s.cache.threads.length]? = some th' → th'.pc = .start := by
    intro th' hth'
    rw [List.getElem?_concat_length] at hth'
    exact Option.some.inj hth' ▸ hpc
  have hnot : ¬Refreshed ⟨{ s.cache with threads := s.cache.threads ++ [th] },
      some (.refreshing pos s.cache.threads.length)⟩ := by
    intro h
    obtain ⟨th', hth', hpc'⟩ := h _ rfl
    cases (hnew th' hth').symm.trans hpc'
  refine ⟨hserial, hpos, fun i hi => ?_, (hs.call hserial hpc hc).calls,
    fun i th' servers answeredAt hth' hpc' hwho => ?_, fun h => absurd h hnot⟩
  · cases hi
    simp
  · rcases hwho with hactive | h
    · cases hactive
      cases (hnew th' hth').symm.trans hpc'
    · exact absurd h hnot

lemma refreshed_of_done {thread : Nat} (hactive : activeThread s = some thread)
    (h : s.refreshed thread = true) : Refreshed s := by
  intro i hi
  cases hactive.symm.trans hi
  unfold WatchState.refreshed at h
  split at h
  · next th hth => exact ⟨_, hth, rfl⟩
  · cases h

/-- The loop waits, or ends, with the cache fresh up to what was delivered. -/
lemma WatchInv.wait (hs : WatchInv X addrOf serviceName s) (h : Refreshed s) {w : Watcher}
    (hactive : activeThread ⟨s.cache, some w⟩ = none)
    (hle : target X ⟨s.cache, some w⟩ ≤ target X s) :
    WatchInv X addrOf serviceName { s with watcher := some w } := by
  refine ⟨hs.serial, hle.trans hs.pos, fun i hi => ?_, hs.calls,
    fun i th servers answeredAt hth hpc _ =>
      (hs.answered i th servers answeredAt hth hpc (.inr h)).mono hle,
    fun _ => (hs.cached h).mono hle⟩
  rw [show activeThread { s with watcher := some w } = none from hactive] at hi
  cases hi

lemma watchStep_cache {a : CacheAction α ω}
    (h : watchStep X addrOf serviceName s (.cache a) = some t) :
    cacheStep (backend X addrOf serviceName) s.cache a = some t.cache ∧ t.watcher = s.watcher := by
  cases hc : cacheStep (backend X addrOf serviceName) s.cache a with
  | none =>
    cases a with
    | call c =>
      simp only [watchStep, hc] at h
      split at h <;> cases h
    | _ =>
      simp only [watchStep, hc] at h
      cases h
  | some cache =>
    have ht : t = { s with cache := cache } := by
      cases a with
      | call c =>
        simp only [watchStep, hc] at h
        split at h
        · exact (Option.some.inj h).symm
        · cases h
      | _ =>
        simp only [watchStep, hc] at h
        exact (Option.some.inj h).symm
    rw [ht]
    exact ⟨rfl, rfl⟩

lemma watchStep_deliver (hX : EtcdLaw X) {choice : Nat}
    (h : watchStep X addrOf serviceName s (.deliver choice) = some t) :
    ∃ pos ≤ (X.changes s.cache.backend).length,
      t = ⟨{ s.cache with
          threads := s.cache.threads ++ [⟨.Refresh, X.clock s.cache.backend, .start⟩] },
        some (.refreshing pos s.cache.threads.length)⟩ := by
  simp only [watchStep] at h
  split at h
  · split at h
    · next pos cache hnext hcache =>
      refine ⟨pos, hX.next _ _ _ _ hnext, ?_⟩
      have hcall : some { s.cache with
          threads := s.cache.threads ++ [⟨.Refresh, X.clock s.cache.backend, .start⟩] } =
            some cache := by
        unfold cacheStep at hcache
        split at hcache
        · cases hcache
        · exact hcache
      cases h
      cases hcall
      rfl
    · cases h
  · cases h

lemma watchStep_resume (h : watchStep X addrOf serviceName s .resume = some t) :
    ∃ pos thread, s.watcher = some (.refreshing pos thread) ∧
      t = { s with watcher := some (.waiting pos) } := by
  simp only [watchStep] at h
  split at h
  · next pos thread hw =>
    split at h
    · exact ⟨pos, thread, hw, (Option.some.inj h).symm⟩
    · cases h
  · cases h

lemma watchInv_step (hX : EtcdLaw X) {a : WatchAction α ω} (hs : WatchInv X addrOf serviceName s)
    (hok : WatchOk X addrOf serviceName s a) (h : watchStep X addrOf serviceName s a = some t) :
    WatchInv X addrOf serviceName t := by
  have hserial : Serial t.cache := hok.1 t h
  have hcond := hok.2
  cases a with
  | cache a =>
    obtain ⟨hcache, hwatcher⟩ := watchStep_cache h
    have ht := hs.move hX hserial (cacheStep_move hcache) (by rintro servers rfl; exact hcond)
      (by rintro x rfl; exact hcond)
    rw [← hwatcher] at ht
    exact ht
  | watch =>
    simp only [watchStep] at h
    split at h
    · next hw =>
      split at h
      · next hcreated =>
        cases h
        have hactive : activeThread s = some 0 := by
          unfold activeThread
          rw [hw]
        refine hs.wait (refreshed_of_done hactive hcreated) rfl ?_
        unfold target
        rw [hw]
        exact hX.watch _
      · cases h
    · cases h
  | deliver revisions =>
    obtain ⟨pos, hpos, rfl⟩ := watchStep_deliver hX h
    exact hs.deliver hpos hserial rfl fun servers => by simp
  | resume =>
    obtain ⟨pos, thread, hw, rfl⟩ := watchStep_resume h
    have hdone : s.refreshed thread = true := by
      have hloop : loopRefreshed s = true := hcond
      unfold loopRefreshed at hloop
      rw [hw] at hloop
      exact hloop
    have hactive : activeThread s = some thread := by
      unfold activeThread
      rw [hw]
    refine hs.wait (refreshed_of_done hactive hdone) rfl ?_
    unfold target
    rw [hw]
  | close =>
    simp only [watchStep] at h
    split at h
    · next pos hw =>
      cases h
      refine hs.wait (fun i hi => ?_) rfl (Nat.zero_le _)
      unfold activeThread at hi
      rw [hw] at hi
      cases hi
    · cases h

lemma watchInv_init (b : β) : WatchInv X addrOf serviceName (.init X b) := by
  have hpc : ∀ (i : Nat) (th : CacheThread), (WatchState.init X b).cache.threads[i]? = some th →
      th.pc = .start := fun i th hth =>
    List.mem_singleton.mp (List.mem_of_getElem? hth) ▸ rfl
  have hnot : ¬Refreshed (.init X b) := by
    intro h
    obtain ⟨th, hth, hdone⟩ := h 0 rfl
    cases (hpc 0 th hth).symm.trans hdone
  refine ⟨fun i hi j hj _ _ => ?_, le_refl _, fun i hi => ?_, fun th hth => ?_,
    fun i th servers answeredAt hth hstoring _ => ?_, fun h => absurd h hnot⟩
  · have hone : (WatchState.init X b).cache.threads.length = 1 := rfl
    omega
  · cases hi
    exact Nat.one_pos
  · cases List.mem_singleton.mp hth
    simp
  · cases (hpc i th hth).symm.trans hstoring

end Invariant

/-- While the watch loop waits and no delivery is outstanding, the cached servers are those that a
`Get` would find in etcd now, whatever came and went before and however the calls of the discovery
ran next to it: changes are neither lost nor undone by a late answer. -/
theorem watch_converges {X : Etcd β α ω} (hX : EtcdLaw X) {addrOf : Bytes → Option GoString}
    {serviceName : GoString} {b : β} {as : List (WatchAction α ω)} {s : WatchState β} {pos : Nat}
    (h : exec (watchStep X addrOf serviceName) (.init X b) as = some s)
    (hok : Guarded (watchStep X addrOf serviceName) (WatchOk X addrOf serviceName) (.init X b) as)
    (hw : s.watcher = some (.waiting pos))
    (hquiet : ∀ c ∈ (X.changes s.cache.backend).drop pos, watches serviceName c.key = false)
    (o : ω) : s.cache.servers.Perm
      (addresses addrOf (X.get o s.cache.backend (getKeyPrefix serviceName))) := by
  have hs : WatchInv X addrOf serviceName s :=
    exec_invariant_guarded _ (fun _ _ _ hr hokr hstep => watchInv_step hX hr hokr hstep)
      (watchInv_init b) hok h
  have hdone : Refreshed s := by
    intro i hi
    unfold activeThread at hi
    rw [hw] at hi
    cases hi
  have htarget : target X s = pos := by
    unfold target
    rw [hw]
  have hfresh := hs.cached hdone
  rw [htarget] at hfresh
  exact hfresh.perm_get hX hquiet o

/-! ### An etcd that satisfies the laws -/

abbrev EtcdEntries := AList (fun _ : GoString => Bytes)

def EtcdChange.apply (store : EtcdEntries) : EtcdChange → EtcdEntries
  | .put key value => store.insert key value
  | .delete key => store.erase key

/-- The contents after the given changes. -/
def contents (changes : List EtcdChange) : EtcdEntries := changes.foldl EtcdChange.apply ∅

def entriesFor (keyPrefix : GoString) (store : EtcdEntries) : List EtcdEntry :=
  store.entries.filter fun kv => keyPrefix.isPrefixOf kv.1

/-- The order in which etcd delivers the entries of an answer. -/
abbrev AnswerOrder := ∀ kvs : List EtcdEntry, {order : List EtcdEntry // order.Perm kvs}

/-- Its state is the list of its changes and a clock; a response has the changes of so many
revisions. -/
def listEtcd : Etcd (List EtcdChange × Int) (EtcdChange ⊕ Nat) AnswerOrder where
  step b
    | .inl c => some (b.1 ++ [c], b.2)
    | .inr d => some (b.1, b.2 + d)
  clock b := b.2
  get order b keyPrefix := (order (entriesFor keyPrefix (contents b.1))).1
  changes b := b.1
  watch b := b.1.length
  next revisions b pos := if pos + revisions ≤ b.1.length then some (pos + revisions) else none

lemma filter_kerase {p : EtcdEntry → Bool} {key : GoString} {l : List EtcdEntry}
    (h : ∀ kv ∈ l, kv.1 = key → p kv = false) : (l.kerase key).filter p = l.filter p := by
  induction l with
  | nil => rfl
  | cons kv l ih =>
    by_cases hkey : key = kv.1
    · rw [List.kerase_cons_eq hkey, List.filter_cons, h kv List.mem_cons_self hkey.symm]
      rfl
    · rw [List.kerase_cons_ne hkey, List.filter_cons, List.filter_cons,
        ih fun kv' hkv' => h kv' (List.mem_cons_of_mem _ hkv')]

/-- A change of a key without the prefix is not seen. -/
lemma entriesFor_apply {keyPrefix : GoString} {c : EtcdChange}
    (hc : keyPrefix.isPrefixOf c.key = false) (store : EtcdEntries) :
    entriesFor keyPrefix (EtcdChange.apply store c) = entriesFor keyPrefix store := by
  have herase : (store.entries.kerase c.key).filter (fun kv => keyPrefix.isPrefixOf kv.1) =
      store.entries.filter fun kv => keyPrefix.isPrefixOf kv.1 :=
    filter_kerase fun kv _ hkey => hkey ▸ hc
  cases c with
  | put key value =>
    have hkey : keyPrefix.isPrefixOf key = false := hc
    unfold entriesFor EtcdChange.apply
    rw [AList.entries_insert, List.filter_cons, if_neg (by simp [hkey])]
    exact herase
  | delete key => exact herase

lemma entriesFor_foldl {keyPrefix : GoString} {cs : List EtcdChange}
    (h : ∀ c ∈ cs, keyPrefix.isPrefixOf c.key = false) (store : EtcdEntries) :
    entriesFor keyPrefix (cs.foldl EtcdChange.apply store) = entriesFor keyPrefix store := by
  induction cs generalizing store with
  | nil => rfl
  | cons c cs ih =>
    rw [List.foldl_cons, ih fun c' hc' => h c' (List.mem_cons_of_mem _ hc'),
      entriesFor_apply (h c List.mem_cons_self)]

lemma listEtcd_step {b b' : List EtcdChange × Int} {a : EtcdChange ⊕ Nat}
    (h : listEtcd.step b a = some b') : b.1 <+: b'.1 := by
  cases a with
  | inl c => exact Option.some.inj h ▸ List.prefix_append _ _
  | inr d => exact Option.some.inj h ▸ List.prefix_rfl

lemma listEtcd_law : EtcdLaw listEtcd where
  changes _ _ _ h := listEtcd_step h
  get b as b' o o' keyPrefix hrun hquiet := by
    have hgrow : b.1 <+: b'.1 := exec_invariant (fun b' => b.1 <+: b'.1)
      (fun _ _ _ hs hb => hs.trans (listEtcd_step hb)) List.prefix_rfl hrun
    obtain ⟨more, hmore⟩ := hgrow
    have hsame : entriesFor keyPrefix (contents b'.1) = entriesFor keyPrefix (contents b.1) := by
      rw [← hmore, contents, List.foldl_append]
      refine entriesFor_foldl (fun c hc => hquiet c ?_) _
      change c ∈ b'.1.drop b.1.length
      rw [← hmore, List.drop_left]
      exact hc
    change (o (entriesFor keyPrefix (contents b.1))).1.Perm
      (o' (entriesFor keyPrefix (contents b'.1))).1
    rw [hsame]
    exact (o _).2.trans (o' _).2.symm
  watch _ := le_refl _
  next choice b pos pos' h := by
    obtain ⟨hle, hpos⟩ := Option.ite_none_right_eq_some.mp h
    exact Option.some.inj hpos ▸ hle

/-- Every value is the address itself. -/
def plainAddr (value : Bytes) : Option GoString := some value

def inOrder : AnswerOrder := fun kvs => ⟨kvs, .refl kvs⟩

/-- The second server comes while the refresh for the first is under way, and the first one goes. -/
def twoRegister : List (WatchAction (EtcdChange ⊕ Nat) AnswerOrder) :=
  [.cache (.run 0), .cache (.query 0 (some inOrder) []), .cache (.run 0), .watch,
    .cache (.backend (.inl (.put (str "service/echo/a") (str "a")))), .deliver 1,
    .cache (.run 1), .cache (.query 1 (some inOrder) []),
    .cache (.backend (.inl (.put (str "service/echo/b") (str "b")))), .cache (.run 1), .resume,
    .cache (.backend (.inl (.delete (str "service/echo/a")))), .cache (.call .GetAll), .deliver 2,
    .cache (.run 3), .cache (.run 2), .cache (.query 3 (some inOrder) []), .cache (.run 2),
    .cache (.run 2), .cache (.run 2), .cache (.run 2), .cache (.run 3), .resume]

theorem watch_converges_twoRegister : ∃ s,
    exec (watchStep listEtcd plainAddr (str "echo")) (.init listEtcd ([], 0)) twoRegister = some s ∧
      s.cache.servers = [str "b"] ∧ s.cache.servers.Perm (addresses plainAddr
        (listEtcd.get inOrder s.cache.backend (getKeyPrefix (str "echo")))) := by
  have hrun : ∃ s ∈ exec (watchStep listEtcd plainAddr (str "echo")) (.init listEtcd ([], 0))
      twoRegister, s.cache.servers = [str "b"] ∧ s.watcher = some (.waiting 3) ∧
        s.cache.backend.1.drop 3 = [] := by
    decide +kernel
  obtain ⟨s, hs, hservers, hw, hdrop⟩ := hrun
  refine ⟨s, hs, hservers, watch_converges listEtcd_law hs (by decide +kernel) hw (fun c hc => ?_)
    inOrder⟩
  change c ∈ s.cache.backend.1.drop 3 at hc
  rw [hdrop] at hc
  cases hc

end Zrpc.Proofs
