import Zrpc.Discovery
import Zrpc.Proofs.ClientMutex

/-!
# The pools of removed servers

A goroutine holds the target that discovery gave it until it has found or made the pool of that
target. `UpdateServers` removes the pools of the servers that are gone; a goroutine that still
holds such a target when it does so makes the pool again.
-/

namespace Zrpc

open Zrpc.Lib

variable {V T : Type}

/-- The target for which a goroutine has still to look up or make the pool. -/
def Thread.target : Thread T → Option GoString
  | .invoke t => match t.pc with
    | .lookup target | .insert target => some target
    | _ => none
  | .heartbeat pc => match pc with
    | .lookup target | .insert target => some target
    | _ => none
  | .prewarm _ _ | .closer _ _ => none

/-- When the latest `UpdateServers` takes `c.mu`, every goroutine that has still to look up or make
a pool does so for a server of the new list. -/
def NoStaleTarget (s : DiscoveryState T) : DiscoveryAction T → Prop
  | .client (.run i _) => s.updated.head? = some i →
      ∀ th ∈ s.client.threads[i]?, th.updates ≠ none →
        ∀ x ∈ s.client.threads, ∀ target ∈ x.target, target ∈ s.discovery.servers
  | .client (.invoke _ _) | .client .heartbeat | .client .close | .client (.updateServers _)
  | .client (.answer _ _ _ _) | .get _ _ | .update _ => True

instance (s : DiscoveryState T) : ∀ a, Decidable (NoStaleTarget s a)
  | .client (.run i _) => inferInstanceAs (Decidable (s.updated.head? = some i →
      ∀ th ∈ s.client.threads[i]?, _ → ∀ x ∈ s.client.threads, ∀ target ∈ x.target, _ ∈ _))
  | .client (.invoke _ _) | .client .heartbeat | .client .close | .client (.updateServers _)
  | .client (.answer _ _ _ _) | .get _ _ | .update _ => isTrue trivial

namespace Proofs

/-! ### Targets -/

lemma get_mem {m : MultiServerRegistry} {mode : SelectMode} {draw : Nat} {target : GoString}
    (h : selected (m.get mode draw).1 = .addr target) : target ∈ m.servers := by
  unfold MultiServerRegistry.get at h
  dsimp only at h
  split at h
  · cases h
  · split at h <;> cases h
    · exact List.get_mem _ _
    · exact List.get_mem _ _

lemma servers_get (m : MultiServerRegistry) (mode : SelectMode) (draw : Nat) :
    (m.get mode draw).2.servers = m.servers := by
  unfold MultiServerRegistry.get
  dsimp only
  split
  · rfl
  · split <;> rfl

section Steps

variable {cfg : ClientConfig V T} {s : ClientShared} {id : Nat} {inp : Input} {op : ClientOp}

lemma target_startPut {t t' : InvokeThread T} {result : Except GoString Message}
    (h : t.startPut result = some t') : (Thread.invoke t').target = none := by
  obtain ⟨-, p, g, hput⟩ := startPut_put h
  simp only [Thread.target, hput]

/-- A goroutine holds a target it held before, or has just been given it by discovery. -/
lemma target_invokeStep {t t' : InvokeThread T} {target : GoString}
    (h : invokeStep cfg s id t inp = some (op, t'))
    (ht : (Thread.invoke t').target = some target) :
    (Thread.invoke t).target = some target ∨ t.pc = .discover ∧ inp = .addr target := by
  obtain ⟨validMethod, replyType, retry, lastErr, cells, pc⟩ := t
  cases invokeStep_turn h with
  | discovered hinp =>
    cases ht
    exact .inr ⟨rfl, hinp⟩
  | missing =>
    cases ht
    exact .inl rfl
  | unreceived _ _ _ _ _ hput | unsettled _ _ hput | finish hput =>
    rw [target_startPut hput] at ht
    cases ht
  | @get _ _ _ out => cases out <;> cases ht
  | closeConn hcells =>
    obtain rfl : cells = _ := hcells
    cases ht
  | @put _ _ result _ out =>
    cases out with
    | some g => cases ht
    | none => cases result <;> cases ht
  | @unwind _ cell => cases hrel : cell.connReleased <;> simp [Thread.target, hrel] at ht
  | @unwindPut _ _ _ _ out => cases out <;> cases ht
  | _ => cases ht

lemma target_heartbeatStep {pc pc' : HeartbeatPc} {target : GoString}
    (h : heartbeatStep cfg s id pc inp = some (op, pc'))
    (ht : (Thread.heartbeat pc' : Thread T).target = some target) :
    (Thread.heartbeat pc : Thread T).target = some target ∨ pc = .discover ∧ inp = .addr target := by
  cases heartbeatStep_turn h with
  | discovered hinp =>
    cases ht
    exact .inr ⟨rfl, hinp⟩
  | missing =>
    cases ht
    exact .inl rfl
  | @get _ _ _ out => cases out <;> cases ht
  | @health _ _ _ _ _ healthy => cases healthy <;> cases ht
  | @put _ _ _ out => cases out <;> cases ht
  | _ => cases ht

lemma target_threadStep {th th' : Thread T} {target : GoString}
    (h : threadStep cfg s id th inp = some (op, th')) (ht : th'.target = some target) :
    th.target = some target ∨ (∃ mode, th.selects .RandomSelect = some mode) ∧ inp = .addr target := by
  cases threadStep_move h with
  | invoke hinv =>
    obtain hold | ⟨hpc, hinp⟩ := target_invokeStep hinv ht
    · exact .inl hold
    · exact .inr ⟨⟨_, by simp only [Thread.selects, hpc]; rfl⟩, hinp⟩
  | heartbeat hbeat =>
    obtain hold | ⟨hpc, hinp⟩ := target_heartbeatStep hbeat ht
    · exact .inl hold
    · exact .inr ⟨⟨_, by simp only [Thread.selects, hpc]; rfl⟩, hinp⟩
  | prewarm _ => cases ht
  | closer _ => cases ht

end Steps

/-! ### Whole runs -/

/-- How far the latest `UpdateServers` has come. -/
def sweepPc (s : DiscoveryState T) : CloserPc :=
  match s.updated.head? with
  | none => .done
  | some u => match s.client.threads[u]? with
    | some (.closer _ pc) => pc
    | _ => .done

/-- Once the latest `UpdateServers` has taken `c.mu`, the goroutines hold targets of its list, and
the other pools are those it is going to remove. -/
structure Swept (s : DiscoveryState T) : Prop where
  latest : ∀ u, s.updated.head? = some u →
    ∃ pc, s.client.threads[u]? = some (.closer (.update s.discovery.servers) pc)
  targets : sweepPc s ≠ .start → ∀ th ∈ s.client.threads, ∀ target, th.target = some target →
    target ∈ s.discovery.servers
  keys : sweepPc s ≠ .start → ∀ target ∈ s.client.shared.pools,
    target ∈ s.discovery.servers ∨ target ∈ (sweepPc s).targets

section Runs

variable {cfg : ClientConfig V T} {balancerMode : SelectMode} {s s' : DiscoveryState T}
  {i : Nat} {inp : Input} {th th' : Thread T} {op : ClientOp}

lemma sweepPc_of_latest {u : Nat} {kind : CloserKind} {pc : CloserPc}
    (hu : s.updated.head? = some u) (hth : s.client.threads[u]? = some (.closer kind pc)) :
    sweepPc s = pc := by
  simp only [sweepPc, hu, hth]

lemma swept_init (servers : List GoString) (idx : Nat) :
    Swept (.init servers idx : DiscoveryState T) where
  latest := by
    intro u hu
    cases hu
  targets := fun _ _ hth => absurd hth List.not_mem_nil
  keys := fun _ _ htarget => absurd htarget (AList.notMem_empty _)

/-- The latest `UpdateServers` stands where it stood. -/
lemma sweepPc_of_kept (hupdated : s'.updated = s.updated)
    (hlatest : ∀ u, s.updated.head? = some u →
      s'.client.threads[u]? = s.client.threads[u]?) : sweepPc s' = sweepPc s := by
  simp only [sweepPc, hupdated]
  cases hu : s.updated.head? with
  | none => rfl
  | some u => simp only [hlatest u hu]

/-- A step that leaves the latest `UpdateServers` alone. -/
lemma Swept.of_kept (hs : Swept s) (hservers : s'.discovery.servers = s.discovery.servers)
    (hupdated : s'.updated = s.updated)
    (hlatest : ∀ u, s.updated.head? = some u → s'.client.threads[u]? = s.client.threads[u]?)
    (htargets : sweepPc s ≠ .start → ∀ th ∈ s'.client.threads, ∀ target,
      th.target = some target → target ∈ s.discovery.servers)
    (hkeys : sweepPc s ≠ .start → ∀ target ∈ s'.client.shared.pools,
      target ∈ s.client.shared.pools ∨ target ∈ s.discovery.servers) : Swept s' := by
  have hpc := sweepPc_of_kept hupdated hlatest
  refine ⟨fun u hu => ?_, fun hstart => ?_, fun hstart target htarget => ?_⟩
  · rw [hupdated] at hu
    rw [hlatest u hu, hservers]
    exact hs.latest u hu
  · rw [hservers]
    exact htargets (hpc ▸ hstart)
  · rw [hpc, hservers]
    rw [hpc] at hstart
    obtain hold | hnew := hkeys hstart target htarget
    · exact hs.keys hstart target hold
    · exact .inl hnew

lemma target_spawned {shared : ClientShared} {x : Thread T} (hx : x ∈ spawned shared op) :
    x.target = none := by
  unfold spawned at hx
  split at hx
  · rw [List.mem_singleton.mp hx]
    rfl
  · cases hx

lemma target_newThread {a : ClientAction T} {x : Thread T} (hx : x ∈ newThread a) :
    x.target = none := by
  cases a <;> simp only [newThread, List.mem_singleton, List.not_mem_nil] at hx <;> subst hx <;> rfl

lemma mem_pools_apply {shared : ClientShared} {target : GoString}
    (h : target ∈ (shared.apply op).pools) :
    target ∈ shared.pools ∨ ∃ size, op = .newPool target size := by
  by_cases hkeep : op.keepsPools = true
  · rw [pools_apply hkeep] at h
    exact .inl h
  · cases op with
    | newPool target' size =>
      obtain rfl | hold := (AList.mem_insert _).mp h
      · exact .inr ⟨size, rfl⟩
      · exact .inl hold
    | removePool target' => exact .inl (AList.mem_erase.mp h).2
    | _ => exact absurd rfl hkeep

/-- The targets of all goroutines after a step of one of them. -/
lemma targets_run {shared : ClientShared} {threads : List (Thread T)} {servers : List GoString}
    (hold : ∀ x ∈ threads, ∀ target, x.target = some target → target ∈ servers)
    (hnew : ∀ target, th'.target = some target → target ∈ servers) :
    ∀ x ∈ threads.set i th' ++ spawned shared op, ∀ target, x.target = some target →
      target ∈ servers := by
  intro x hx target htarget
  obtain hx | hx := List.mem_append.mp hx
  · obtain hx | rfl := List.mem_or_eq_of_mem_set hx
    · exact hold x hx target htarget
    · exact hnew target htarget
  · rw [target_spawned hx] at htarget
    cases htarget

lemma target_of_inserts {target : GoString} (h : th.inserts = some target) :
    th.target = some target := by
  cases th with
  | invoke t =>
    obtain ⟨validMethod, replyType, retry, lastErr, cells, pc⟩ := t
    cases pc <;> first | (cases h; done) | exact h
  | heartbeat pc => cases pc <;> first | (cases h; done) | exact h
  | prewarm p pc => cases h
  | closer kind pc => cases h

/-- A step of a goroutine that is not the latest `UpdateServers`. -/
lemma swept_run_other (hs : Swept s) (hi : s.client.threads[i]? = some th)
    (hstep : threadStep cfg s.client.shared i th inp = some (op, th'))
    (hnot : s.updated.head? ≠ some i)
    (hnew : ∀ target, th'.target = some target →
      th.target = some target ∨ target ∈ s.discovery.servers)
    (hclient : s'.client = ⟨s.client.shared.apply op,
      s.client.threads.set i th' ++ spawned s.client.shared op⟩)
    (hservers : s'.discovery.servers = s.discovery.servers) (hupdated : s'.updated = s.updated) :
    Swept s' := by
  have hmem := List.mem_of_getElem? hi
  refine hs.of_kept hservers hupdated (fun u hu => ?_) (fun hstart => ?_)
    fun hstart target htarget => ?_
  · obtain ⟨pc, hpc⟩ := hs.latest u hu
    rw [hclient, hpc]
    refine thread_run_ne hpc ?_
    rintro rfl
    exact hnot hu
  · rw [hclient]
    refine targets_run (hs.targets hstart) fun target htarget => ?_
    obtain hold | hfresh := hnew target htarget
    · exact hs.targets hstart th hmem target hold
    · exact hfresh
  · rw [hclient] at htarget
    obtain hold | ⟨size, rfl⟩ := mem_pools_apply htarget
    · exact .inl hold
    · obtain ⟨-, -, hins⟩ := threadStep_newPool hstep
      exact .inr (hs.targets hstart th hmem target (target_of_inserts hins))

/-- `UpdateServers` goes on: what it has still to remove covers the pools of other servers. -/
lemma covered_closerStep {shared : ClientShared} {servers : List GoString} {pc pc' : CloserPc}
    (h : closerStep shared (.update servers) pc inp = some (op, pc'))
    (hcovered : pc ≠ .start → ∀ target ∈ shared.pools, target ∈ servers ∨ target ∈ pc.targets) :
    pc' ≠ .start ∧ ∀ target ∈ (shared.apply op).pools, target ∈ servers ∨ target ∈ pc'.targets := by
  cases closerStep_move h with
  | other hl =>
    cases hl with
    | refused _ hkind _ => cases hkind
    | lock hpc hmu hperm =>
      refine ⟨by simp, fun target htarget => ?_⟩
      by_cases hmem : target ∈ servers
      · exact .inl hmem
      · refine .inr (hperm.mem_iff.mpr (List.mem_filter.mpr ⟨htarget, ?_⟩))
        exact decide_eq_true hmem
    | finish hpc =>
      subst hpc
      exact ⟨by simp, fun target htarget => hcovered (by simp) target htarget⟩
    | next hpc hl =>
      subst hpc
      exact ⟨by simp, fun target htarget => hcovered (by simp) target htarget⟩
    | @skip target' todo hpc hl =>
      subst hpc
      refine ⟨by simp, fun target htarget => ?_⟩
      obtain hmem | hmem := hcovered (by simp) target htarget
      · exact .inl hmem
      · obtain rfl | hmem := List.mem_cons.mp hmem
        · exact absurd htarget (AList.lookup_eq_none.mp hl)
        · exact .inr hmem
    | @remove target' todo hpc =>
      subst hpc
      refine ⟨by simp, fun target htarget => ?_⟩
      obtain ⟨hne, hold⟩ := AList.mem_erase.mp htarget
      obtain hmem | hmem := hcovered (by simp) target hold
      · exact .inl hmem
      · obtain rfl | hmem := List.mem_cons.mp hmem
        · exact absurd rfl hne
        · exact .inr hmem
  | inside hpc hc =>
    subst hpc
    rw [pools_apply (closeStep_keepsPools hc)]
    exact ⟨by simp, fun target htarget => hcovered (by simp) target htarget⟩
  | leave hpc hc hpc' =>
    subst hpc
    obtain ⟨-, hkind⟩ | rfl := hpc'
    · cases hkind
    · rw [pools_apply (closeStep_keepsPools hc)]
      exact ⟨by simp, fun target htarget => hcovered (by simp) target htarget⟩

/-- A step of the latest `UpdateServers`. -/
lemma swept_run_latest (hs : Swept s) (hi : s.client.threads[i]? = some th)
    (hstep : threadStep cfg s.client.shared i th inp = some (op, th'))
    (hlatest : s.updated.head? = some i)
    (hok : th.updates ≠ none → ∀ x ∈ s.client.threads, ∀ target ∈ x.target,
      target ∈ s.discovery.servers)
    (hclient : s'.client = ⟨s.client.shared.apply op,
      s.client.threads.set i th' ++ spawned s.client.shared op⟩)
    (hservers : s'.discovery.servers = s.discovery.servers) (hupdated : s'.updated = s.updated) :
    Swept s' := by
  obtain ⟨pc, hpc⟩ := hs.latest i hlatest
  cases hi.symm.trans hpc
  have hsweep := sweepPc_of_latest hlatest hpc
  cases threadStep_move hstep with
  | @closer _ _ _ pc' hr =>
    obtain ⟨hstart', hcovered⟩ := covered_closerStep hr fun hstart => hsweep ▸ hs.keys (hsweep ▸ hstart)
    have hself : s'.client.threads[i]? = some (.closer (.update s.discovery.servers) pc') := by
      rw [hclient]
      exact thread_run_self hi
    have hsweep' : sweepPc s' = pc' := sweepPc_of_latest (hupdated ▸ hlatest) hself
    refine ⟨fun u hu => ?_, fun _ => ?_, fun _ => ?_⟩
    · rw [hupdated, hlatest] at hu
      cases hu
      rw [hservers]
      exact ⟨pc', hself⟩
    · rw [hclient, hservers]
      refine targets_run ?_ (by intro target ht; cases ht)
      by_cases hstart : pc = .start
      · subst hstart
        exact hok (by simp [Thread.updates])
      · exact hs.targets (hsweep ▸ hstart)
    · rw [hsweep', hclient, hservers]
      exact hcovered

lemma swept_client {a : ClientAction T} {client : ClientState T} (hs : Swept s)
    (hok : NoStaleTarget s (.client a)) (hallows : s.allows a = true)
    (h : clientStep cfg s.client a = some client) : Swept { s with client := client } := by
  have hstart : client = { s.client with threads := s.client.threads ++ newThread a } →
      Swept { s with client := client } := by
    rintro rfl
    refine hs.of_kept rfl rfl (fun u hu => ?_) (fun hstart x hx target htarget => ?_)
      fun _ target htarget => .inl htarget
    · obtain ⟨pc, hpc⟩ := hs.latest u hu
      rw [hpc]
      exact thread_start hpc
    · obtain hx | hx := List.mem_append.mp hx
      · exact hs.targets hstart x hx target htarget
      · rw [target_newThread hx] at htarget
        cases htarget
  cases a with
  | run i inp =>
    obtain ⟨th, op, th', hi, hstep, rfl⟩ := clientStep_run h
    simp only [DiscoveryState.allows, hi, Bool.and_eq_true, Option.isNone_iff_eq_none] at hallows
    by_cases hlatest : s.updated.head? = some i
    · exact swept_run_latest hs hi hstep hlatest (hok hlatest th hi) rfl rfl rfl
    · refine swept_run_other hs hi hstep hlatest (fun target htarget => ?_) rfl rfl rfl
      obtain hold | ⟨⟨mode, hmode⟩, -⟩ := target_threadStep hstep htarget
      · exact .inl hold
      · rw [hallows.1] at hmode
        cases hmode
  | answer c request header body =>
    cases clientStep_move h with
    | answer hk hans =>
      exact hs.of_kept rfl rfl (fun _ _ => rfl) hs.targets fun _ target htarget => .inl htarget
    | start => exact hstart rfl
  | invoke validMethod replyType | heartbeat | close | updateServers servers =>
    cases clientStep_move h
    exact hstart rfl

lemma selects_not_latest (hs : Swept s) {mode : SelectMode} (hi : s.client.threads[i]? = some th)
    (hmode : th.selects balancerMode = some mode) : s.updated.head? ≠ some i := by
  intro hlatest
  obtain ⟨pc, hpc⟩ := hs.latest i hlatest
  cases hi.symm.trans hpc
  cases hmode

lemma swept_step {a : DiscoveryAction T} (hs : Swept s) (hok : NoStaleTarget s a)
    (h : discoveryStep cfg balancerMode s a = some s') : Swept s' := by
  cases a with
  | client a =>
    simp only [discoveryStep] at h
    split at h
    · next hallows =>
      obtain ⟨client, hclient, rfl⟩ := Option.map_eq_some_iff.mp h
      exact swept_client hs hok hallows hclient
    · cases h
  | get i draw =>
    simp only [discoveryStep] at h
    split at h
    · cases h
    · next mode hmode =>
      obtain ⟨th, hi, hselects⟩ := Option.bind_eq_some_iff.mp hmode
      obtain ⟨client, hclient, rfl⟩ := Option.map_eq_some_iff.mp h
      obtain ⟨th₀, op, th', hi₀, hstep, rfl⟩ := clientStep_run hclient
      cases hi.symm.trans hi₀
      refine swept_run_other hs hi hstep (selects_not_latest hs hi hselects) (fun target htarget => ?_)
        rfl (servers_get _ _ _) rfl
      obtain hold | ⟨-, hinp⟩ := target_threadStep hstep htarget
      · exact .inl hold
      · exact .inr (get_mem hinp)
  | update i =>
    simp only [discoveryStep] at h
    split at h
    · cases h
    · next servers hservers =>
      obtain ⟨th, hi, hupdates⟩ := Option.bind_eq_some_iff.mp hservers
      have hstart : th = .closer (.update servers) .start := by
        unfold Thread.updates at hupdates
        split at hupdates
        · split at hupdates <;> cases hupdates
          rfl
        · cases hupdates
        · cases hupdates
        · cases hupdates
        · cases hupdates
      split at h <;> cases h
      have hsweep := sweepPc_of_latest (s := { s with
        discovery := s.discovery.update servers, updated := i :: s.updated }) rfl (hstart ▸ hi)
      refine ⟨?_, fun hne => absurd hsweep hne, fun hne => absurd hsweep hne⟩
      rintro u ⟨⟩
      exact ⟨.start, hstart ▸ hi⟩

end Runs

/-- In a run in which no goroutine holds the target of a removed server when the latest
`UpdateServers` takes `c.mu`, every pool is of a server of the latest list once that
`UpdateServers` has returned. -/
theorem pools_of_latest_servers (cfg : ClientConfig V T) (balancerMode : SelectMode)
    (servers : List GoString) (idx : Nat) (acts : List (DiscoveryAction T)) (s : DiscoveryState T)
    (hrun : exec (discoveryStep cfg balancerMode) (.init servers idx) acts = some s)
    (hfresh : Guarded (discoveryStep cfg balancerMode) NoStaleTarget (.init servers idx) acts)
    (hdone : ∀ u ∈ s.updated.head?, ∃ kind, s.client.threads[u]? = some (.closer kind .done)) :
    ∀ target ∈ s.client.shared.pools.keys, target ∈ s.discovery.servers := by
  have hs : Proofs.Swept s :=
    exec_invariant_guarded Proofs.Swept (fun _ _ _ hs hok h => Proofs.swept_step hs hok h)
      (Proofs.swept_init servers idx) hfresh hrun
  have hsweep : Proofs.sweepPc s = .done := by
    unfold Proofs.sweepPc
    cases hu : s.updated.head? with
    | none => rfl
    | some u =>
      obtain ⟨kind, hth⟩ := hdone u hu
      simp only [hth]
  intro target htarget
  obtain hmem | hmem := hs.keys (by rw [hsweep]; simp) target htarget
  · exact hmem
  · rw [hsweep] at hmem
    cases hmem

/-- An Invoke is given the first server and looks up its pool. -/
def selectAndLookup (i : Nat) : List (DiscoveryAction Unit) :=
  [.client (.run i .go), .get i 0, .client (.run i .go)]

/-- The servers change from `s` to `b` in the `UpdateServers` of goroutine `i`. -/
def moveServers (i : Nat) (removed : List GoString) : List (DiscoveryAction Unit) :=
  [.client (.updateServers [str "b"]), .update i, .client (.run i (.targets removed))]

/-- An Invoke makes the pool of `s`, the servers change, and another Invoke makes the pool of `b`. -/
def movedServers : List (DiscoveryAction Unit) :=
  [.client (.invoke true ())] ++ selectAndLookup 0 ++ [.client (.run 0 .go)] ++
    moveServers 2 [str "s"] ++ (Proofs.steps 2 8).map .client ++
    [.client (.invoke true ())] ++ selectAndLookup 3 ++ [.client (.run 3 .go)]

theorem pools_of_latest_servers_movedServers : ∃ s : DiscoveryState Unit,
    exec (discoveryStep Proofs.smallClient .RandomSelect) (.init [str "s"] 0) movedServers = some s ∧
      s.client.shared.pools.keys = [str "b"] ∧
      ∀ target ∈ s.client.shared.pools.keys, target ∈ s.discovery.servers :=
  ⟨_, rfl, rfl, pools_of_latest_servers Proofs.smallClient .RandomSelect [str "s"] 0 movedServers _ rfl
    (by decide +kernel) (by rintro u ⟨⟩; exact ⟨_, rfl⟩)⟩

/-- An Invoke is given the server `s`, the servers change, and the Invoke makes a pool for `s` and
returns. -/
def staleInvoke : List (DiscoveryAction Unit) :=
  [.client (.invoke true ())] ++ selectAndLookup 0 ++ moveServers 1 [] ++
    [.client (.run 1 .go)] ++ (Proofs.steps 0 4).map .client ++ [.client (.run 0 (.fail []))] ++
    (Proofs.steps 0 3).map .client ++ List.replicate 6 (.client (.run 0 (.fail []))) ++
    (Proofs.steps 0 3).map .client

theorem staleInvoke_keeps_pool : ∃ (s : DiscoveryState Unit) (t : InvokeThread Unit)
    (kind : CloserKind) (result : Except GoString Message),
    exec (discoveryStep Proofs.smallClient .RandomSelect) (.init [str "s"] 0) staleInvoke = some s ∧
      s.client.threads[0]? = some (.invoke t) ∧ t.pc = .done result ∧
      s.client.threads[1]? = some (.closer kind .done) ∧ s.updated = [1] ∧
      s.discovery.servers = [str "b"] ∧ s.client.shared.pools.keys = [str "s"] :=
  ⟨_, _, _, _, rfl, rfl, rfl, rfl, rfl, rfl, rfl⟩

end Proofs

end Zrpc
