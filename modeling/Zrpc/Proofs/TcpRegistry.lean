import Zrpc.Proofs.Registry
import Zrpc.TcpRegistry

/-!
# Evictions from the TCP registry

A `heartbeatChecker` asks whether its pair has expired in one critical section and removes it in
the next. The removal is right as long as nothing refreshes the pair in between.
-/

namespace Zrpc

open Zrpc.Lib

/-- The request sets the last ping of its pair. -/
def Request.refreshes (cmd : Request) : Prop :=
  cmd.action = str "register" ∨ cmd.action = str "heartbeat"

instance (cmd : Request) : Decidable cmd.refreshes := inferInstanceAs (Decidable (_ ∨ _))

/-! ## The `switch` of a connection -/

section Serve

variable {r : Registry} {o : Orders} {now : Int} {cmd : Request} {s a : GoString}

lemma Registry.timeout_unregister : (r.unregister s a).1.timeout = r.timeout :=
  Registry.timeout_perform (.unregister s a)

lemma Registry.timeout_heartbeat : (r.heartbeat s a now).1.timeout = r.timeout :=
  Registry.timeout_perform (.heartbeat s a now)

lemma Registry.timeout_serve : (r.serve o now cmd).1.timeout = r.timeout := by
  unfold Registry.serve
  split
  · rfl
  split
  · exact Registry.timeout_unregister
  split
  · exact Registry.timeout_heartbeat
  split
  · split <;> rfl
  split <;> rfl

lemma Registry.serve_unregister (h : cmd.action = str "unregister") :
    (r.serve o now cmd).1 = (r.unregister cmd.serviceName cmd.addr).1 := by
  unfold Registry.serve
  rw [h, if_neg (by decide), if_pos rfl]

/-- An entry after a request was there before it, or the request has just refreshed it. -/
lemma Registry.entry_serve {info : ServiceInfo} (h : (r.serve o now cmd).1.entry s a = some info) :
    r.entry s a = some info ∨
      cmd.refreshes ∧ (cmd.serviceName, cmd.addr) = (s, a) ∧ info.lastPing = now := by
  unfold Registry.serve at h
  split at h
  · next haction =>
    rw [Registry.entry_register] at h
    split at h
    · next hpair =>
      cases h
      exact .inr ⟨.inl haction, hpair.symm, rfl⟩
    · exact .inl h
  split at h
  · dsimp only at h
    rw [Registry.entry_unregister] at h
    split at h
    · cases h
    · exact .inl h
  split at h
  · next haction =>
    dsimp only at h
    rw [Registry.entry_heartbeat] at h
    split at h
    · next hpair =>
      obtain ⟨old, -, rfl⟩ := Option.map_eq_some_iff.mp h
      exact .inr ⟨.inr haction, hpair.symm, rfl⟩
    · exact .inl h
  split at h
  · split at h <;> exact .inl h
  split at h <;> exact .inl h

end Serve

namespace TcpRegistry

variable {s t : TcpRegistry} {act : TcpRegistryAction} {i : Nat} {c : Checker}

/-! ## What a step can do -/

/-- Every checker that has found its pair expired did so before the step. -/
def NoneExpires (s t : TcpRegistry) : Prop :=
  ∀ c ∈ t.checkers, c.pc = .expired → c ∈ s.checkers

lemma noneExpires_setChecker {pc : CheckerPc} (hpc : pc ≠ .expired) :
    NoneExpires s (s.setChecker i c pc) := by
  intro c' hc' hexp
  obtain hold | rfl := List.mem_or_eq_of_mem_set hc'
  · exact hold
  · exact absurd hexp hpc

/-- A step that leaves the registry and the clock alone, or is one of a checker. -/
def quiet : TcpRegistryAction → Bool
  | .startSweeper | .check _ | .stop _ | .close => true
  | .tick _ | .request _ _ | .sweep _ => false

/-- Time passes, or a step serves a request, sweeps, finds a pair expired, removes a pair found
expired, or leaves the registry alone. -/
inductive Move (s t : TcpRegistry) : TcpRegistryAction → Prop
  | tick (d : Nat) (hreg : t.registry = s.registry) (hnow : t.now = s.now + d)
      (hexp : NoneExpires s t) : Move s t (.tick d)
  | serve (o : Orders) (cmd : Request) (hreg : t.registry = (s.registry.serve o s.now cmd).1)
      (hnow : t.now = s.now) (hexp : NoneExpires s t) : Move s t (.request o cmd)
  | sweep (o : Orders)
      (hreg : t.registry = s.registry.cleanExpiredServers o.outer o.inner s.now)
      (hnow : t.now = s.now) (hexp : NoneExpires s t) : Move s t (.sweep o)
  | expire (i : Nat) (c : Checker) (hold : s.registry.isExpired c.serviceName c.addr s.now = true)
      (hreg : t.registry = s.registry) (hnow : t.now = s.now)
      (hexp : ∀ c' ∈ t.checkers, c'.pc = .expired →
        c' ∈ s.checkers ∨ c'.serviceName = c.serviceName ∧ c'.addr = c.addr) : Move s t (.check i)
  | remove (i : Nat) (c : Checker) (hc : c ∈ s.checkers) (hpc : c.pc = .expired)
      (hreg : t.registry = (s.registry.unregister c.serviceName c.addr).1)
      (hnow : t.now = s.now) (hexp : NoneExpires s t) : Move s t (.check i)
  | other (act : TcpRegistryAction) (hact : quiet act = true) (hreg : t.registry = s.registry)
      (hnow : t.now = s.now) (hexp : NoneExpires s t) : Move s t act

lemma noneExpires_refl (s : TcpRegistry) : NoneExpires s s := fun _ hc _ => hc

lemma move_checkerStep (hc : c ∈ s.checkers) (h : s.checkerStep i c = some t) :
    Move s t (.check i) := by
  unfold checkerStep at h
  split at h
  · split at h <;> cases h
    · exact .other _ rfl rfl rfl (noneExpires_refl s)
    · exact .other _ rfl rfl rfl (noneExpires_setChecker (by simp))
  · split at h <;> cases h
    · next hold =>
      refine .expire i c hold rfl rfl fun c' hc' _ => ?_
      obtain hbefore | rfl := List.mem_or_eq_of_mem_set hc'
      · exact .inl hbefore
      · exact .inr ⟨rfl, rfl⟩
    · exact .other _ rfl rfl rfl (noneExpires_refl s)
  · next hpc =>
    cases h
    exact .remove i c hc hpc rfl rfl (noneExpires_setChecker (s := s) (by simp))
  · cases h

lemma move_requestStep (o : Orders) (cmd : Request) :
    Move s (s.requestStep o cmd) (.request o cmd) := by
  unfold requestStep
  split
  · refine .serve o cmd rfl rfl fun c hc hpc => ?_
    obtain hold | hnew := List.mem_append.mp hc
    · exact hold
    · rw [List.mem_singleton.mp hnew] at hpc
      cases hpc
  · exact .serve o cmd rfl rfl (noneExpires_refl s)

lemma move_of_step (h : step s act = some t) : Move s t act := by
  unfold step at h
  split at h
  · cases h
  split at h
  · cases h
    exact .tick _ rfl rfl (noneExpires_refl s)
  · cases h
    exact move_requestStep _ _
  · split at h
    · cases h
    · split at h <;> cases h <;> exact .other _ rfl rfl rfl (noneExpires_refl s)
  · split at h <;> cases h
    exact .sweep _ rfl rfl (noneExpires_refl s)
  · obtain ⟨c, hc, hstep⟩ := Option.bind_eq_some_iff.mp h
    exact move_checkerStep (List.mem_of_getElem? hc) hstep
  · split at h
    · split at h <;> cases h
      exact .other _ rfl rfl rfl (noneExpires_setChecker (by simp))
    · cases h
  · split at h <;> cases h <;> exact .other _ rfl rfl rfl (noneExpires_refl s)

/-! ## The window between the check and the removal -/

/-- No request refreshes a pair that a checker has found expired and not yet removed. -/
def Undisturbed (s : TcpRegistry) : TcpRegistryAction → Prop
  | .request _ cmd => cmd.refreshes → ∀ c ∈ s.checkers, c.pc = .expired →
      (cmd.serviceName, cmd.addr) ≠ (c.serviceName, c.addr)
  | .tick _ | .startSweeper | .sweep _ | .check _ | .stop _ | .close => True

instance (s : TcpRegistry) : ∀ act, Decidable (Undisturbed s act)
  | .request _ cmd => inferInstanceAs (Decidable (cmd.refreshes → ∀ c ∈ s.checkers, _ → _))
  | .tick _ | .startSweeper | .sweep _ | .check _ | .stop _ | .close => isTrue trivial

/-- The last ping of the pair, if it is registered, is older than the timeout. -/
def Overdue (s : TcpRegistry) (serviceName addr : GoString) : Prop :=
  ∀ info, s.registry.entry serviceName addr = some info →
    s.now - info.lastPing > s.registry.timeout

lemma overdue_of_isExpired {serviceName addr : GoString}
    (h : s.registry.isExpired serviceName addr s.now = true) : s.Overdue serviceName addr := by
  intro info hinfo
  obtain ⟨services, hs, ha⟩ := Option.bind_eq_some_iff.mp hinfo
  simpa only [Registry.isExpired, hs, ha, decide_eq_true_eq] using h

/-- A pair stays overdue while its entry is not refreshed. -/
lemma Overdue.mono {serviceName addr : GoString} (h : s.Overdue serviceName addr)
    (htimeout : t.registry.timeout = s.registry.timeout) (hnow : s.now ≤ t.now)
    (hentry : ∀ info, t.registry.entry serviceName addr = some info →
      s.registry.entry serviceName addr = some info) : t.Overdue serviceName addr := by
  intro info hinfo
  have hold := h info (hentry info hinfo)
  omega

/-- Each pair found expired is overdue until it is removed. -/
def WindowsOverdue (s : TcpRegistry) : Prop :=
  ∀ c ∈ s.checkers, c.pc = .expired → s.Overdue c.serviceName c.addr

lemma windowsOverdue_step (hs : s.WindowsOverdue) (hok : s.Undisturbed act)
    (h : step s act = some t) : t.WindowsOverdue := by
  intro c hc hpc
  cases move_of_step h with
  | tick d hreg hnow hexp =>
    exact (hs c (hexp c hc hpc) hpc).mono (by rw [hreg]) (by omega) fun info hinfo => hreg ▸ hinfo
  | serve o cmd hreg hnow hexp =>
    have hmem := hexp c hc hpc
    refine (hs c hmem hpc).mono (by rw [hreg, Registry.timeout_serve]) hnow.ge fun info hinfo => ?_
    rw [hreg] at hinfo
    obtain hbefore | ⟨hrefresh, hpair, -⟩ := Registry.entry_serve hinfo
    · exact hbefore
    · exact absurd hpair (hok hrefresh c hmem hpc)
  | sweep o hreg hnow hexp =>
    refine (hs c (hexp c hc hpc) hpc).mono (by rw [hreg]; rfl) hnow.ge fun info hinfo => ?_
    rw [hreg, Registry.entry_cleanExpiredServers] at hinfo
    exact (Option.filter_eq_some_iff.mp hinfo).1
  | expire i c₀ hold hreg hnow hexp =>
    have hdue : s.Overdue c.serviceName c.addr := by
      obtain hbefore | ⟨hname, haddr⟩ := hexp c hc hpc
      · exact hs c hbefore hpc
      · rw [hname, haddr]
        exact overdue_of_isExpired hold
    exact hdue.mono (by rw [hreg]) hnow.ge fun info hinfo => hreg ▸ hinfo
  | remove i c₀ hc₀ hpc₀ hreg hnow hexp =>
    refine (hs c (hexp c hc hpc) hpc).mono (by rw [hreg, Registry.timeout_unregister]) hnow.ge
      fun info hinfo => ?_
    rw [hreg, Registry.entry_unregister] at hinfo
    split at hinfo
    · cases hinfo
    · exact hinfo
  | other _ hact hreg hnow hexp =>
    exact (hs c (hexp c hc hpc) hpc).mono (by rw [hreg]) hnow.ge fun info hinfo => hreg ▸ hinfo

lemma windowsOverdue_new (keepaliveSec now : Int) :
    (newTcpRegistry keepaliveSec now).WindowsOverdue :=
  fun _ hc => absurd hc List.not_mem_nil

end TcpRegistry

/-- The steps of the checkers and of the sweeper. -/
def TcpRegistryAction.evicts : TcpRegistryAction → Bool
  | .check _ | .sweep _ => true
  | .tick _ | .request _ _ | .startSweeper | .stop _ | .close => false

namespace Proofs

/-- In a run in which no pair is refreshed between a checker's `IsExpired` and its `Unregister`,
a checker or the sweeper leaves an entry as it is, or removes it after its timeout. -/
theorem eviction_after_timeout (keepaliveSec start : Int) (acts : List TcpRegistryAction)
    (s t : TcpRegistry) (act : TcpRegistryAction)
    (hrun : exec TcpRegistry.step (newTcpRegistry keepaliveSec start) acts = some s)
    (hwindows : Guarded TcpRegistry.step TcpRegistry.Undisturbed
      (newTcpRegistry keepaliveSec start) acts)
    (hstep : TcpRegistry.step s act = some t) (hact : act.evicts = true)
    (serviceName addr : GoString) (info : ServiceInfo)
    (hentry : s.registry.entry serviceName addr = some info) :
    t.registry.entry serviceName addr = some info ∨
      t.registry.entry serviceName addr = none ∧ s.now - info.lastPing > s.registry.timeout := by
  have hdue : s.WindowsOverdue :=
    exec_invariant_guarded TcpRegistry.WindowsOverdue
      (fun _ _ _ hs hok h => TcpRegistry.windowsOverdue_step hs hok h)
      (TcpRegistry.windowsOverdue_new keepaliveSec start) hwindows hrun
  cases TcpRegistry.move_of_step hstep with
  | tick d hreg hnow hexp => cases hact
  | serve o cmd hreg hnow hexp => cases hact
  | sweep o hreg hnow hexp =>
    rw [hreg, Registry.entry_cleanExpiredServers, hentry, Option.filter_some]
    split
    · exact .inl rfl
    · next hold =>
      rw [decide_eq_true_iff] at hold
      exact .inr ⟨rfl, by omega⟩
  | expire i c hold hreg hnow hexp => exact .inl (hreg ▸ hentry)
  | remove i c hc hpc hreg hnow hexp =>
    rw [hreg, Registry.entry_unregister]
    split
    · next hpair =>
      cases hpair
      exact .inr ⟨rfl, hdue c hc hpc info hentry⟩
    · exact .inl hentry
  | other _ hquiet hreg hnow hexp => exact .inl (hreg ▸ hentry)

/-- A service registers and its checker finds it expired a minute and a second later. -/
def foundExpired : List TcpRegistryAction :=
  [.request .stored ⟨str "register", str "s", str "a", none⟩, .check 0, .tick 61000000000, .check 0]

theorem eviction_after_timeout_foundExpired : ∃ s t : TcpRegistry, ∃ info : ServiceInfo,
    exec TcpRegistry.step (newTcpRegistry 60 0) foundExpired = some s ∧
      TcpRegistry.step s (.check 0) = some t ∧
      s.registry.entry (str "s") (str "a") = some info ∧
      t.registry.entry (str "s") (str "a") = none ∧
      s.now - info.lastPing > s.registry.timeout := by
  have hgone : ∃ s ∈ exec TcpRegistry.step (newTcpRegistry 60 0) foundExpired,
      ∃ t ∈ TcpRegistry.step s (.check 0),
        ∃ info ∈ s.registry.entry (str "s") (str "a"),
          t.registry.entry (str "s") (str "a") ≠ some info := by
    decide +kernel
  obtain ⟨s, hs, t, ht, info, hinfo, hchanged⟩ := hgone
  obtain hsame | ⟨hnone, hold⟩ :=
    eviction_after_timeout 60 0 foundExpired s t (.check 0) hs (by decide +kernel) ht rfl
      (str "s") (str "a") info hinfo
  · exact absurd hsame hchanged
  · exact ⟨s, t, info, hs, ht, hinfo, hnone, hold⟩

/-- A heartbeat is accepted after the checker's `IsExpired`; the checker removes the entry whose
last ping is the present. -/
theorem eviction_of_live_service : ∃ s t : TcpRegistry, ∃ info : ServiceInfo,
    exec TcpRegistry.step (newTcpRegistry 60 0) (foundExpired ++
      [.request .stored ⟨str "heartbeat", str "s", str "a", none⟩]) = some s ∧
      TcpRegistry.step s (.check 0) = some t ∧
      s.registry.entry (str "s") (str "a") = some info ∧
      t.registry.entry (str "s") (str "a") = none ∧
      s.now - info.lastPing = 0 ∧ 0 < s.registry.timeout := by
  have hgone : ∃ s ∈ exec TcpRegistry.step (newTcpRegistry 60 0) (foundExpired ++
        [.request .stored ⟨str "heartbeat", str "s", str "a", none⟩]),
      ∃ t ∈ TcpRegistry.step s (.check 0),
        ∃ info ∈ s.registry.entry (str "s") (str "a"),
          t.registry.entry (str "s") (str "a") = none ∧
            s.now - info.lastPing = 0 ∧ 0 < s.registry.timeout := by
    decide +kernel
  obtain ⟨s, hs, t, ht, info, hinfo, hrest⟩ := hgone
  exact ⟨s, t, info, hs, ht, hinfo, hrest⟩

end Proofs

end Zrpc
