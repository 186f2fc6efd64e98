import Zrpc.EtcdRegistry

/-!
# The lease of a registration in etcd

Every put of `RegisterService` names the lease just granted, so the key goes when the process no
longer renews it. The put of `reRegister` names none; the key it leaves stays.
-/

namespace Zrpc

open Zrpc.Lib

/-- The key, if it is there, is attached to a live lease of the registry. -/
def EtcdStore.Leased (st : EtcdStore) : Prop :=
  ∀ lease, st.key = some lease → ∃ id ∈ st.live, lease = some id

namespace EtcdStore

variable {st : EtcdStore}

lemma leased_drop (h : st.Leased) (lease : Nat) : (st.drop lease).Leased := by
  intro l hl
  simp only [drop] at hl ⊢
  split at hl
  · cases hl
  · next hne =>
    obtain ⟨id, hid, rfl⟩ := h l hl
    refine ⟨id, List.mem_filter.mpr ⟨hid, ?_⟩, rfl⟩
    rw [decide_eq_true_iff]
    rintro rfl
    exact hne hl

lemma leased_apply (h : st.Leased) {op : EtcdOp} (hop : op ≠ .put none) :
    (st.apply op).Leased := by
  unfold apply
  split
  · next haccepts =>
    cases op with
    | grant =>
      intro l hl
      obtain ⟨id, hid, rfl⟩ := h l hl
      exact ⟨id, List.mem_append_left _ hid, rfl⟩
    | put lease =>
      cases lease with
      | none => exact absurd rfl hop
      | some id =>
        rintro l ⟨⟩
        exact ⟨id, by simpa [accepts] using haccepts, rfl⟩
    | delete =>
      rintro l ⟨⟩
    | revoke lease => exact leased_drop h lease
  · exact h

lemma not_leased_put_none : ¬(st.apply (.put none)).Leased := by
  intro h
  obtain ⟨id, -, hid⟩ := h none rfl
  cases hid

/-- A key goes with the last lease. -/
lemma Leased.key_eq_none (h : st.Leased) (hlive : st.live = []) : st.key = none := by
  by_contra hkey
  obtain ⟨lease, hlease⟩ := Option.ne_none_iff_exists'.mp hkey
  obtain ⟨id, hid, -⟩ := h lease hlease
  rw [hlive] at hid
  cases hid

end EtcdStore

namespace EtcdState

variable {s t : EtcdState} {act : EtcdAction} {ok : Bool}

/-- The step makes the store apply the put of a `reRegister`. -/
def PutsBare (s : EtcdState) : EtcdAction → Prop
  | .run ok => ok = true ∧ s.pc = .readdEndpoint ∧ s.refused = false
  | .deliver j => s.late[j]? = some (.put none)
  | .contextDone | .callUnregister | .unregister _ _ | .crash | .expire _ => False

instance (s : EtcdState) : ∀ act, Decidable (PutsBare s act)
  | .run _ => inferInstanceAs (Decidable (_ ∧ _))
  | .deliver _ => inferInstanceAs (Decidable (_ = _))
  | .contextDone | .callUnregister | .unregister _ _ | .crash | .expire _ =>
    inferInstanceAs (Decidable False)

/-- The store after a step, with `bare` for whether it has applied a put without a lease. -/
inductive Stored (s t : EtcdState) (bare : Prop) : Prop
  | same (h : t.store = s.store) (hbare : ¬bare)
  | apply (op : EtcdOp) (h : t.store = s.store.apply op) (hbare : bare ↔ op = .put none)
  | drop (lease : Nat) (h : t.store = s.store.drop lease) (hbare : ¬bare)

/-- The call of a request that is no put without a lease. -/
lemma stored_request (ok : Bool) {op : EtcdOp} (hop : op ≠ .put none)
    (ht : t.store = (s.request op ok).2.store) : Stored s t False := by
  unfold request at ht
  split at ht
  · exact .apply op ht (by simp [hop])
  · exact .same ht id

lemma stored_grantStep {next : EtcdPc} {fails : EtcdState → EtcdState}
    (hfails : ∀ u, (fails u).store = u.store) : Stored s (s.grantStep ok next fails) False := by
  unfold grantStep
  split
  · exact .same (hfails s) id
  · refine stored_request ok (show EtcdOp.grant ≠ .put none by simp) ?_
    split
    · next heq => rw [heq]
    · next heq => rw [hfails, heq]

lemma stored_addStep (lease : Option Nat) {fails : EtcdState → EtcdState}
    (hfails : ∀ u, (fails u).store = u.store) :
    Stored s (s.addStep lease ok fails) (lease = none ∧ ok = true ∧ s.refused = false) := by
  unfold addStep
  split
  · next hrefused => exact .same (hfails s) (by simp [hrefused])
  · next hrefused =>
    have hsent : s.refused = false := by simpa using hrefused
    cases ok with
    | false => exact .same (hfails _) (by simp)
    | true =>
      cases haccepts : s.store.accepts (.put lease) with
      | true =>
        simp only [request, haccepts, Bool.and_self, if_true]
        exact .apply (.put lease) rfl (by simp [hsent])
      | false =>
        have hsome : lease ≠ none := by
          rintro rfl
          cases haccepts
        simp only [request, haccepts, Bool.and_false, Bool.false_eq_true, if_false]
        exact .same (hfails _) (by simp [hsome])

lemma Stored.congr {p q : Prop} (h : Stored s t p) (hpq : q ↔ p) : Stored s t q := by
  rwa [propext hpq]

lemma stored_runStep (h : s.runStep ok = some t) : Stored s t (PutsBare s (.run ok)) := by
  have hother : s.pc ≠ .readdEndpoint → (PutsBare s (.run ok) ↔ False) :=
    fun hne => iff_false_intro fun hbare => hne hbare.2.1
  unfold runStep at h
  cases hpc : s.pc with
  | connect | manager | watch =>
    rw [hpc] at h
    cases h
    exact .same rfl (hother (by simp [hpc])).mp
  | grant | regrant =>
    rw [hpc] at h
    cases h
    refine Stored.congr ?_ (hother (by simp [hpc]))
    exact stored_grantStep fun _ => rfl
  | addEndpoint =>
    rw [hpc] at h
    cases h
    refine Stored.congr ?_ ((hother (by simp [hpc])).trans
      (show False ↔ some s.leaseID = none ∧ ok = true ∧ s.refused = false by simp))
    exact stored_addStep (some s.leaseID) fun _ => rfl
  | keepAlive =>
    rw [hpc] at h
    cases h
    refine .same ?_ (hother (by simp [hpc])).mp
    split <;> rfl
  | readdEndpoint =>
    rw [hpc] at h
    cases h
    refine Stored.congr ?_ (show PutsBare s (.run ok) ↔
      (none : Option Nat) = none ∧ ok = true ∧ s.refused = false by simp [PutsBare, hpc])
    exact stored_addStep none fun _ => rfl
  | failed | ended =>
    rw [hpc] at h
    cases h

lemma stored_unregisterStep {pc pc' : EtcdUnregisterPc}
    (h : s.unregisterStep pc ok = some (pc', t)) : Stored s t False := by
  unfold unregisterStep at h
  split at h <;> cases h
  · exact .same rfl id
  · split
    · exact .same rfl id
    · exact stored_request ok (show EtcdOp.delete ≠ .put none by simp) rfl
  · split
    · exact .same rfl id
    · exact stored_request ok (show EtcdOp.revoke s.leaseID ≠ .put none by simp) rfl
  · exact .same rfl id

lemma stored_step (h : step s act = some t) : Stored s t (PutsBare s act) := by
  cases act with
  | run ok =>
    simp only [step] at h
    split at h
    · cases h
    · exact stored_runStep h
  | contextDone =>
    simp only [step] at h
    split at h <;> cases h
    exact .same rfl id
  | callUnregister =>
    simp only [step] at h
    split at h <;> cases h
    exact .same rfl id
  | unregister i ok =>
    simp only [step] at h
    split at h
    · cases h
    obtain ⟨pc, -, hstep⟩ := Option.bind_eq_some_iff.mp h
    obtain ⟨⟨pc', s'⟩, hs', rfl⟩ := Option.map_eq_some_iff.mp hstep
    cases stored_unregisterStep hs' with
    | same h hbare => exact .same h hbare
    | apply op h hbare => exact .apply op h hbare
    | drop lease h hbare => exact .drop lease h hbare
  | crash =>
    cases h
    exact .same rfl id
  | expire lease =>
    cases h
    exact .drop lease rfl id
  | deliver j =>
    obtain ⟨op, hop, rfl⟩ := Option.map_eq_some_iff.mp h
    refine .apply op rfl ?_
    simp [PutsBare, hop]

lemma leased_step (hs : s.store.Leased) (h : step s act = some t) :
    t.store.Leased ↔ ¬PutsBare s act := by
  cases stored_step h with
  | same h hbare => exact iff_of_true (h ▸ hs) hbare
  | drop lease h hbare => exact iff_of_true (h ▸ EtcdStore.leased_drop hs lease) hbare
  | apply op h hbare =>
    rw [h, hbare]
    constructor
    · rintro hleased rfl
      exact EtcdStore.not_leased_put_none hleased
    · exact EtcdStore.leased_apply hs

end EtcdState

namespace Proofs

/-- In all states of a run the service key, if present, is attached to a live lease of its registry,
and gone once there is none, exactly when the store applies no put of a `reRegister`. -/
theorem etcd_key_leased (acts : List EtcdAction) (s : EtcdState)
    (hrun : exec EtcdState.step .init acts = some s) :
    (∀ bs t, bs <+: acts → exec EtcdState.step .init bs = some t →
      (∀ lease, t.store.key = some lease → ∃ id ∈ t.store.live, lease = some id) ∧
      (t.store.live = [] → t.store.key = none)) ↔
    Guarded EtcdState.step (fun s act => ¬s.PutsBare act) .init acts := by
  have hinit : EtcdState.init.store.Leased := by
    rintro lease ⟨⟩
  rw [← exec_always_iff_guarded (fun s => s.store.Leased)
    (fun _ _ _ hs h => EtcdState.leased_step hs h) hinit hrun]
  constructor
  · exact fun h bs t hbs ht => (h bs t hbs ht).1
  · exact fun h bs t hbs ht => ⟨h bs t hbs ht, (h bs t hbs ht).key_eq_none⟩

/-- A registration whose process crashes, and whose lease expires. -/
def crashAndExpire : List EtcdAction :=
  [.run true, .run true, .run true, .run true, .run true, .crash, .expire 0]

theorem etcd_key_leased_crashAndExpire : ∃ s : EtcdState,
    exec EtcdState.step .init crashAndExpire = some s ∧
    ∀ bs t, bs <+: crashAndExpire → exec EtcdState.step .init bs = some t →
      (∀ lease, t.store.key = some lease → ∃ id ∈ t.store.live, lease = some id) ∧
      (t.store.live = [] → t.store.key = none) :=
  ⟨_, rfl, (etcd_key_leased crashAndExpire _ rfl).mpr (by decide)⟩

/-- A lease is lost and the service registers again. The process crashes and all its leases expire,
but the key stays. -/
theorem etcd_key_stays : ∃ s : EtcdState,
    exec EtcdState.step .init
      [.run true, .run true, .run true, .run true, .run true, .expire 0, .run false, .run true,
       .run true, .crash, .expire 1] = some s ∧
    s.store.live = [] ∧ s.store.key = some none :=
  ⟨_, rfl, rfl, rfl⟩

end Proofs

end Zrpc
