import Zrpc.Registry

/-!
# The registry is a timed set

The nested maps of a registry, read as one map from pairs of a service and an address to the
time of their last ping, follow the events of a timed set.
-/

namespace Zrpc

open Zrpc.Lib

namespace Registry

variable {r : Registry} {s a : GoString}

/-! ## What each call does to the entries -/

lemma lookup_eq_none_of_empty {services : Services} (h : services.entries.length = 0)
    (a : GoString) : services.lookup a = none := by
  have hnil : services.entries = [] := List.length_eq_zero_iff.mp h
  rw [AList.lookup_eq_none, AList.mem_keys, AList.keys, hnil]
  simp

lemma exists_lookup_of_nonempty {services : Services} (h : services.entries.length ≠ 0) :
    ∃ a info, services.lookup a = some info := by
  obtain ⟨e, he⟩ := List.exists_mem_of_length_pos (Nat.pos_of_ne_zero h)
  exact ⟨e.1, e.2, AList.mem_lookup_iff.mpr he⟩

lemma lookup_putBack (servers : AList fun _ : GoString => Services) (s : GoString)
    (services : Services) (k : GoString) :
    (putBack servers s services).lookup k =
      if k = s then (if services.entries.length = 0 then none else some services)
      else servers.lookup k := by
  unfold putBack
  by_cases hk : k = s
  · subst hk
    split <;> simp
  · rw [if_neg hk]
    split
    · exact AList.lookup_erase_ne hk
    · exact AList.lookup_insert_ne hk

/-- Dropping an empty inner map loses no entry. -/
lemma bind_dropEmpty (services : Services) (a : GoString) :
    ((if services.entries.length = 0 then none else some services).bind fun m : Services =>
      m.lookup a) = services.lookup a := by
  split
  · next h => rw [Option.bind_none, lookup_eq_none_of_empty h]
  · rfl

lemma entry_register (metadata : StringMap) (startTime now : Int) (s' a' : GoString) :
    (r.register s a metadata startTime now).entry s' a' =
      if (s', a') = (s, a) then some ⟨s, a, metadata, startTime, now⟩ else r.entry s' a' := by
  unfold entry register
  by_cases hs : s' = s
  · subst hs
    rw [AList.lookup_insert, Option.bind_some]
    by_cases ha : a' = a
    · subst ha
      simp
    · rw [AList.lookup_insert_ne ha, if_neg (by simp [ha])]
      cases r.servers.lookup s' <;> simp
  · rw [AList.lookup_insert_ne hs, if_neg (by simp [hs])]

/-- Where a service is not registered, removing it changes no entry. -/
lemma entry_eq_ite_none (h : r.entry s a = none) (s' a' : GoString) :
    r.entry s' a' = if (s', a') = (s, a) then none else r.entry s' a' := by
  split
  · next heq =>
    cases heq
    exact h
  · rfl

lemma entry_unregister (s' a' : GoString) :
    (r.unregister s a).1.entry s' a' = if (s', a') = (s, a) then none else r.entry s' a' := by
  unfold unregister
  split
  · next hs => exact entry_eq_ite_none (by simp [entry, hs]) s' a'
  · next services hs =>
    split
    · unfold entry
      rw [lookup_putBack]
      by_cases hs' : s' = s
      · subst hs'
        rw [if_pos rfl, bind_dropEmpty, hs, Option.bind_some]
        by_cases ha : a' = a
        · subst ha
          simp
        · rw [AList.lookup_erase_ne ha, if_neg (by simp [ha])]
      · rw [if_neg hs', if_neg (by simp [hs'])]
    · next ha => exact entry_eq_ite_none (by simp [entry, hs, AList.lookup_eq_none.mpr ha]) s' a'

lemma entry_heartbeat (now : Int) (s' a' : GoString) :
    (r.heartbeat s a now).1.entry s' a' =
      if (s', a') = (s, a) then (r.entry s a).map fun info => { info with lastPing := now }
      else r.entry s' a' := by
  unfold heartbeat
  split
  · next hs =>
    have hnone : r.entry s a = none := by simp [entry, hs]
    rw [hnone, Option.map_none]
    exact entry_eq_ite_none hnone s' a'
  · next services hs =>
    split
    · next ha =>
      have hnone : r.entry s a = none := by simp [entry, hs, ha]
      rw [hnone, Option.map_none]
      exact entry_eq_ite_none hnone s' a'
    · next service ha =>
      unfold entry
      by_cases hs' : s' = s
      · subst hs'
        rw [AList.lookup_insert, Option.bind_some, hs, Option.bind_some]
        by_cases ha' : a' = a
        · subst ha'
          simp [ha]
        · rw [AList.lookup_insert_ne ha', if_neg (by simp [ha']), Option.bind_some]
      · rw [AList.lookup_insert_ne hs', if_neg (by simp [hs'])]

lemma changesOwn_sweepAddr (timeout now : Int) :
    ChangesOwn (sweepAddr timeout now)
      fun _ info => if now - info.lastPing > timeout then none else some info := by
  intro services k k'
  unfold sweepAddr
  by_cases hk : k' = k
  · subst hk
    rw [if_pos rfl]
    split
    · next h => rw [h, Option.bind_none]
    · next h =>
      split
      · next hold =>
        rw [AList.lookup_erase, h]
        exact (if_pos hold).symm
      · next hfresh =>
        rw [h]
        exact (if_neg hfresh).symm
  · rw [if_neg hk]
    split
    · rfl
    · split
      · exact AList.lookup_erase_ne hk
      · rfl

lemma changesOwn_sweepService (timeout now : Int)
    (inner : RangeOrder GoString ServiceInfo) :
    ChangesOwn (sweepService timeout now inner) fun _ services =>
      let swept := (inner.order services).foldl (sweepAddr timeout now) services
      if swept.entries.length = 0 then none else some swept := by
  intro servers k k'
  unfold sweepService
  split
  · next h =>
    split
    · next hk => rw [hk, h, Option.bind_none]
    · rfl
  · next services h =>
    rw [lookup_putBack]
    split
    · next hk => rw [hk, h, Option.bind_some]
    · rfl

lemma lookup_cleanExpiredServers (outer : RangeOrder GoString Services)
    (inner : RangeOrder GoString ServiceInfo) (now : Int) (s : GoString) :
    (r.cleanExpiredServers outer inner now).servers.lookup s =
      (r.servers.lookup s).bind fun services =>
        let swept := (inner.order services).foldl (sweepAddr r.timeout now) services
        if swept.entries.length = 0 then none else some swept :=
  lookup_range (changesOwn_sweepService r.timeout now inner) outer r.servers s

lemma entry_cleanExpiredServers (outer : RangeOrder GoString Services)
    (inner : RangeOrder GoString ServiceInfo) (now : Int) (s a : GoString) :
    (r.cleanExpiredServers outer inner now).entry s a =
      (r.entry s a).filter fun info => now - info.lastPing ≤ r.timeout := by
  unfold entry
  rw [lookup_cleanExpiredServers]
  cases r.servers.lookup s with
  | none => rfl
  | some services =>
    rw [Option.bind_some, Option.bind_some, bind_dropEmpty,
      lookup_range (changesOwn_sweepAddr r.timeout now)]
    cases services.lookup a with
    | none => rfl
    | some info =>
      rw [Option.bind_some, Option.filter_some]
      by_cases hold : now - info.lastPing > r.timeout
      · rw [if_pos hold, if_neg (by rw [decide_eq_true_iff]; omega)]
      · rw [if_neg hold, if_pos (by rw [decide_eq_true_iff]; omega)]

/-! ## The simulation -/

/-- The registered pairs with their last pings. -/
def pings (r : Registry) : TimedSet (GoString × GoString) :=
  fun p => (r.entry p.1 p.2).map (·.lastPing)

lemma timeout_perform (op : RegistryOp) : (r.perform op).timeout = r.timeout := by
  cases op with
  | register s a metadata startTime now => rfl
  | unregister s a =>
    simp only [perform, unregister]
    split
    · rfl
    · split <;> rfl
  | heartbeat s a now =>
    simp only [perform, heartbeat]
    split
    · rfl
    · split <;> rfl
  | sweep outer inner now => rfl

lemma pings_perform (op : RegistryOp) :
    (r.perform op).pings = TimedSet.step r.timeout r.pings op.event := by
  funext ⟨s', a'⟩
  cases op with
  | register s a metadata startTime now =>
    simp only [pings, perform, entry_register, RegistryOp.event, TimedSet.step,
      Function.update_apply]
    split <;> rfl
  | unregister s a =>
    simp only [pings, perform, entry_unregister, RegistryOp.event, TimedSet.step,
      Function.update_apply]
    split <;> rfl
  | heartbeat s a now =>
    simp only [pings, perform, entry_heartbeat, RegistryOp.event, TimedSet.step,
      Function.update_apply]
    split
    · rw [Option.map_map, Option.map_map]
      rfl
    · rfl
  | sweep outer inner now =>
    simp only [pings, perform, entry_cleanExpiredServers, RegistryOp.event, TimedSet.step]
    cases r.entry s' a' with
    | none => rfl
    | some info =>
      rw [Option.filter_some, Option.map_some, Option.filter_some]
      split <;> rfl

/-- No service stays with an empty inner map. -/
def NoEmptyService (r : Registry) : Prop :=
  ∀ s services, r.servers.lookup s = some services → services.entries.length ≠ 0

lemma noEmptyService_insert (h : r.NoEmptyService) {services : Services}
    (hs : services.entries.length ≠ 0) :
    NoEmptyService { r with servers := r.servers.insert s services } := by
  intro s' services' hs'
  by_cases heq : s' = s
  · subst heq
    rw [AList.lookup_insert, Option.some.injEq] at hs'
    exact hs' ▸ hs
  · rw [AList.lookup_insert_ne heq] at hs'
    exact h s' services' hs'

lemma length_insert_ne_zero (services : Services) (a : GoString) (info : ServiceInfo) :
    (services.insert a info).entries.length ≠ 0 := by
  rw [AList.entries_insert]
  simp

lemma noEmptyService_perform (h : r.NoEmptyService) (op : RegistryOp) :
    (r.perform op).NoEmptyService := by
  cases op with
  | register s a metadata startTime now =>
    exact noEmptyService_insert h (length_insert_ne_zero _ _ _)
  | unregister s a =>
    simp only [perform, unregister]
    split
    · exact h
    · split
      · intro s' services' hs'
        rw [lookup_putBack] at hs'
        split at hs'
        · split at hs' <;> cases hs'
          assumption
        · exact h s' services' hs'
      · exact h
  | heartbeat s a now =>
    simp only [perform, heartbeat]
    split
    · exact h
    · split
      · exact h
      · exact noEmptyService_insert h (length_insert_ne_zero _ _ _)
  | sweep outer inner now =>
    intro s services hs
    rw [perform, lookup_cleanExpiredServers, Option.bind_eq_some_iff] at hs
    obtain ⟨before, -, hswept⟩ := hs
    dsimp only at hswept
    split at hswept <;> cases hswept
    assumption

/-- What holds of a registry after every sequence of calls, against the events of the calls. -/
structure Follows (r : Registry) (timeout : Int) (es : List (TimedEvent (GoString × GoString))) :
    Prop where
  timeout_eq : r.timeout = timeout
  pings : r.pings = TimedSet.after timeout es
  noEmpty : r.NoEmptyService

lemma follows_new (timeout : Int) : (newRegistry timeout).Follows timeout [] where
  timeout_eq := rfl
  pings := rfl
  noEmpty := by
    intro s services hs
    cases hs

lemma Follows.perform {timeout : Int} {es : List (TimedEvent (GoString × GoString))}
    (h : r.Follows timeout es) (op : RegistryOp) :
    (r.perform op).Follows timeout (es ++ [op.event]) where
  timeout_eq := by rw [timeout_perform, h.timeout_eq]
  pings := by rw [pings_perform, h.timeout_eq, h.pings, TimedSet.after, TimedSet.after,
    List.foldl_append, List.foldl_cons, List.foldl_nil]
  noEmpty := noEmptyService_perform h.noEmpty op

lemma follows_run (timeout : Int) (ops : List RegistryOp) :
    (ops.foldl Registry.perform (newRegistry timeout)).Follows timeout
      (ops.map RegistryOp.event) := by
  induction ops using List.reverseRecOn with
  | nil => exact follows_new timeout
  | append_singleton ops op ih =>
    rw [List.foldl_append, List.map_append]
    exact ih.perform op

/-! ## What the readers see -/

lemma getService_ok (inner : RangeOrder GoString ServiceInfo) {addrs : List GoString}
    (h : r.getService inner s = .ok addrs) :
    addrs.Nodup ∧ ∀ a, a ∈ addrs ↔ r.entry s a ≠ none := by
  unfold getService at h
  split at h
  · cases h
  · next services hs =>
    split at h
    · cases h
    · cases h
      refine ⟨inner.nodup services, fun a => ?_⟩
      rw [inner.mem_order, entry, hs, Option.bind_some, Option.isSome_iff_ne_none]

lemma getService_error_iff (inner : RangeOrder GoString ServiceInfo) :
    (∃ text, r.getService inner s = .error text) ↔ ∀ a, r.entry s a = none := by
  unfold getService entry
  cases hs : r.servers.lookup s with
  | none => simp
  | some services =>
    simp only [Option.bind_some]
    split
    · next hempty => simp [lookup_eq_none_of_empty hempty]
    · next hsome =>
      obtain ⟨a, info, ha⟩ := exists_lookup_of_nonempty hsome
      simp only [reduceCtorEq, exists_false, false_iff, not_forall]
      exact ⟨a, by simp [ha]⟩

lemma mem_getAllServices (h : r.NoEmptyService) (outer : RangeOrder GoString Services) :
    s ∈ r.getAllServices outer ↔ ∃ a, r.entry s a ≠ none := by
  rw [getAllServices, outer.mem_order]
  unfold entry
  cases hs : r.servers.lookup s with
  | none => simp
  | some services =>
    obtain ⟨a, info, ha⟩ := exists_lookup_of_nonempty (h s services hs)
    simp only [Option.isSome_some, Option.bind_some, true_iff]
    exact ⟨a, by simp [ha]⟩

lemma unregister_fails_iff : (r.unregister s a).2 ≠ none ↔ r.entry s a = none := by
  unfold unregister entry
  cases hs : r.servers.lookup s with
  | none => simp
  | some services =>
    simp only [Option.bind_some, AList.lookup_eq_none]
    split
    · next ha => simp [ha]
    · next ha => simp [ha]

lemma unregister_of_fails (h : (r.unregister s a).2 ≠ none) : (r.unregister s a).1 = r := by
  unfold unregister at h ⊢
  split
  · rfl
  · next services hs =>
    split
    · next ha => simp [hs, ha] at h
    · rfl

lemma heartbeat_fails_iff (now : Int) :
    (r.heartbeat s a now).2 ≠ none ↔ r.entry s a = none := by
  unfold heartbeat entry
  cases hs : r.servers.lookup s with
  | none => simp
  | some services =>
    simp only [Option.bind_some]
    split
    · next ha => simp [ha]
    · next ha => simp [ha]

lemma heartbeat_of_fails {now : Int} (h : (r.heartbeat s a now).2 ≠ none) :
    (r.heartbeat s a now).1 = r := by
  unfold heartbeat at h ⊢
  split
  · rfl
  · next services hs =>
    split
    · rfl
    · next info ha => simp [hs, ha] at h

end Registry

namespace Proofs

/-- After every sequence of calls, at whatever times, a registry holds exactly the pairs that
stand in the history of the calls, each with its last ping, and its readers return them. -/
theorem registry_refines_timedSet (timeout : Int) (ops : List RegistryOp) :
    let r := ops.foldl Registry.perform (newRegistry timeout)
    let standing := fun s a => ∃ t, Standing timeout (ops.map RegistryOp.event) (s, a) t
    (∀ s a t, (r.entry s a).map (·.lastPing) = some t ↔
      Standing timeout (ops.map RegistryOp.event) (s, a) t) ∧
    (∀ s services, r.servers.lookup s = some services → services.entries ≠ []) ∧
    (∀ inner s addrs, r.getService inner s = .ok addrs →
      addrs.Nodup ∧ ∀ a, a ∈ addrs ↔ standing s a) ∧
    (∀ inner s, (∃ text, r.getService inner s = .error text) ↔ ∀ a, ¬standing s a) ∧
    (∀ outer, (r.getAllServices outer).Nodup ∧
      ∀ s, s ∈ r.getAllServices outer ↔ ∃ a, standing s a) ∧
    (∀ s a, ((r.unregister s a).2 ≠ none ↔ ¬standing s a) ∧
      ((r.unregister s a).2 ≠ none → (r.unregister s a).1 = r)) ∧
    (∀ s a now, ((r.heartbeat s a now).2 ≠ none ↔ ¬standing s a) ∧
      ((r.heartbeat s a now).2 ≠ none → (r.heartbeat s a now).1 = r)) := by
  intro r standing
  have hr : r.Follows timeout (ops.map RegistryOp.event) := Registry.follows_run timeout ops
  have hpings : ∀ s a t, (r.entry s a).map (·.lastPing) = some t ↔
      Standing timeout (ops.map RegistryOp.event) (s, a) t := by
    intro s a t
    rw [← TimedSet.after_eq_some_iff, ← hr.pings]
    rfl
  have hstanding : ∀ s a, r.entry s a ≠ none ↔ standing s a := by
    intro s a
    show r.entry s a ≠ none ↔ ∃ t, Standing timeout (ops.map RegistryOp.event) (s, a) t
    rw [← exists_congr (hpings s a), ← Option.ne_none_iff_exists', ne_eq, ne_eq,
      Option.map_eq_none_iff]
  have habsent : ∀ s a, r.entry s a = none ↔ ¬standing s a :=
    fun s a => by rw [← hstanding, not_not]
  refine ⟨hpings, fun s services hs hnil => ?_, fun inner s addrs h => ?_, fun inner s => ?_,
    fun outer => ⟨outer.nodup _, fun s => ?_⟩, fun s a => ⟨?_, Registry.unregister_of_fails⟩,
    fun s a now => ⟨?_, Registry.heartbeat_of_fails⟩⟩
  · exact hr.noEmpty s services hs (by rw [hnil, List.length_nil])
  · obtain ⟨hnodup, hmem⟩ := Registry.getService_ok inner h
    exact ⟨hnodup, fun a => (hmem a).trans (hstanding s a)⟩
  · rw [Registry.getService_error_iff inner]
    exact forall_congr' (habsent s)
  · rw [Registry.mem_getAllServices hr.noEmpty]
    exact exists_congr (hstanding s)
  · rw [Registry.unregister_fails_iff, habsent]
  · rw [Registry.heartbeat_fails_iff, habsent]

end Proofs

end Zrpc
