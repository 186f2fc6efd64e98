import Zrpc.Proofs.WorkerScaling
import Zrpc.ServerOptions

/-!
# Growth of an overloaded worker pool

The target of a growth is the counter times 1.2, rounded down, so a counter below five stays where
it is. Low readings bring the counter down to the minimum of the pool. An overloaded pool therefore
grows from every counter it can reach exactly when its minimum is at least five, or is its maximum.
-/

namespace Zrpc

open Zrpc.Lib

/-- The number that the monitor will store. -/
def MonitorPc.stores : MonitorPc → Option Int
  | .adding _ targetWorkers | .starting _ _ targetWorkers | .shrinking targetWorkers =>
    some targetWorkers
  | .waiting | .measuring | .returned => none

namespace ScalingState

/-- An overloaded monitor tick, and a `quickScaleUp` that wins its swap, choose a larger number of
workers that is allowed, and there is a worker. -/
structure Responds (F : FloatToInt32) (C : ScalingConfig) (s : ScalingState) : Prop where
  worker : 0 < s.liveWorkers.length
  monitor : s.numWorkers < C.maxWorkerPoolSize →
    s.numWorkers < monitorTarget F C s.numWorkers .high ∧
      monitorTarget F C s.numWorkers .high ≤ C.maxWorkerPoolSize
  quickScaleUp : ∀ currentWorkers targetWorkers,
    .swapping currentWorkers targetWorkers ∈ s.quickScaleUps →
    s.numWorkers = int32 currentWorkers →
    s.numWorkers < int32 targetWorkers ∧ int32 targetWorkers ≤ C.maxWorkerPoolSize

/-- A step of the running pool from a counter that fits `int32` after a growth. -/
def Running (s : ScalingState) (a : ScalingAction) : Prop :=
  a.scales = true ∧ 6 * s.numWorkers < 5 * 2 ^ 31

instance (s : ScalingState) (a : ScalingAction) : Decidable (s.Running a) := instDecidableAnd

/-- The counter, and what the monitor and the swaps will store, are not below the minimum. -/
structure AboveMin (C : ScalingConfig) (s : ScalingState) : Prop where
  count : C.minWorkerPoolSize ≤ s.numWorkers
  target : ∀ n ∈ s.monitor.stores, C.minWorkerPoolSize ≤ n
  swaps : ∀ pc ∈ s.quickScaleUps, SwapInLimits C pc

section Targets

variable {F : FloatToInt32} {C : ScalingConfig} {n : Int}

lemma monitorTarget_high (hn : 0 ≤ n) (hhigh : 6 * n < 5 * 2 ^ 31)
    (hmax : C.maxWorkerPoolSize < 2 ^ 31) :
    monitorTarget F C n .high =
      if n < C.maxWorkerPoolSize then min (6 * n / 5) C.maxWorkerPoolSize else n := by
  have hpos := C.max_nonneg
  have hconv : F.conv (sixFifths n) = 6 * n / 5 := by
    rw [sixFifths_eq hn (by omega)]
    exact F.conv_eq _ (by omega) (by omega)
  simp only [monitorTarget, hconv, int32_eq (show -2 ^ 31 ≤ C.maxWorkerPoolSize by omega) hmax]
  split
  · split <;> omega
  · rfl

lemma monitorTarget_low (hmin : 0 ≤ C.minWorkerPoolSize) (hfits : C.minWorkerPoolSize < 2 ^ 31)
    (hn : 0 ≤ n) (hhigh : 6 * n < 5 * 2 ^ 31) :
    monitorTarget F C n .low =
      if C.minWorkerPoolSize < n then max (4 * n / 5) C.minWorkerPoolSize else n := by
  have hconv : F.conv (fourFifths n) = 4 * n / 5 := by
    rw [fourFifths_eq hn (by omega)]
    exact F.conv_eq _ (by omega) (by omega)
  simp only [monitorTarget, hconv, int32_eq (show -2 ^ 31 ≤ C.minWorkerPoolSize by omega) hfits]
  split
  · split <;> omega
  · rfl

lemma monitorTarget_ge (hmin : 0 ≤ C.minWorkerPoolSize) (hfits : C.minWorkerPoolSize < 2 ^ 31)
    (hmax : C.maxWorkerPoolSize < 2 ^ 31) (hn : C.minWorkerPoolSize ≤ n)
    (hhigh : 6 * n < 5 * 2 ^ 31) (r : LoadReading) :
    C.minWorkerPoolSize ≤ monitorTarget F C n r := by
  cases r with
  | high =>
    rw [monitorTarget_high (by omega) hhigh hmax]
    split <;> omega
  | low =>
    rw [monitorTarget_low hmin hfits (by omega) hhigh]
    split <;> omega
  | normal => exact hn

lemma stores_monitorAdjust {r : LoadReading} :
    ∀ m ∈ (monitorAdjust F C n r).stores, m = monitorTarget F C n r := by
  intro m hm
  unfold monitorAdjust at hm
  dsimp only at hm
  split at hm
  · split at hm
    · exact (Option.mem_some.mp hm).symm
    · split at hm
      · exact (Option.mem_some.mp hm).symm
      · cases hm
  · cases hm

end Targets

namespace AboveMin

variable {F : FloatToInt32} {C : ScalingConfig} {s t : ScalingState}

lemma congr (hs : s.AboveMin C) (hnum : t.numWorkers = s.numWorkers)
    (hmonitor : t.monitor = s.monitor) (hquick : t.quickScaleUps = s.quickScaleUps) :
    t.AboveMin C := by
  refine ⟨?_, ?_, ?_⟩
  · rw [hnum]
    exact hs.count
  · rw [hmonitor]
    exact hs.target
  · rw [hquick]
    exact hs.swaps

lemma increment (hs : s.AboveMin C) (hmin : 0 ≤ C.minWorkerPoolSize)
    (hn : 6 * s.numWorkers < 5 * 2 ^ 31) : s.increment.AboveMin C := by
  have hcount := hs.count
  have hnum : s.increment.numWorkers = s.numWorkers + 1 := int32_eq (by omega) (by omega)
  refine ⟨?_, hs.target, hs.swaps⟩
  rw [hnum]
  omega

lemma setQuick (hs : s.AboveMin C) (i : Nat) {pc : QuickScaleUpPc} (hpc : SwapInLimits C pc) :
    (s.setQuick i pc).AboveMin C := by
  refine ⟨hs.count, hs.target, fun q hq => ?_⟩
  obtain hq | rfl := List.mem_or_eq_of_mem_set hq
  · exact hs.swaps q hq
  · exact hpc

lemma setMonitor (hs : s.AboveMin C) {m : MonitorPc}
    (hm : ∀ n ∈ m.stores, C.minWorkerPoolSize ≤ n) : { s with monitor := m }.AboveMin C :=
  ⟨hs.count, hm, hs.swaps⟩

lemma serverWorker (hs : s.AboveMin C) (hmin : 0 ≤ C.minWorkerPoolSize)
    (hn : 6 * s.numWorkers < 5 * 2 ^ 31) {w : Nat} {pc : ScaledWorkerPc}
    (h : s.serverWorker w pc = some t) : t.AboveMin C := by
  cases pc with
  | polling completed =>
    simp only [ScalingState.serverWorker] at h
    split at h <;> cases h
    · exact hs.congr rfl rfl rfl
    · exact (hs.increment hmin hn).congr rfl rfl rfl
  | creating nextID =>
    cases h
    exact hs.congr rfl rfl rfl
  | leaving =>
    cases h
    exact hs.congr rfl rfl rfl
  | returned => cases h

lemma monitorWorkerPool (hs : s.AboveMin C) (hmin : 0 ≤ C.minWorkerPoolSize)
    (hn : 6 * s.numWorkers < 5 * 2 ^ 31) (h : s.monitorWorkerPool = some t) : t.AboveMin C := by
  have htarget := hs.target
  unfold ScalingState.monitorWorkerPool at h
  split at h
  · rename_i left target hm
    cases h
    rw [hm] at htarget
    exact (hs.increment hmin hn).setMonitor htarget
  · rename_i nextID left target hm
    cases h
    rw [hm] at htarget
    exact ⟨hs.count, htarget, hs.swaps⟩
  · rename_i target hm
    cases h
    rw [hm] at htarget
    exact ⟨htarget target rfl, by simp [MonitorPc.stores], hs.swaps⟩
  · rename_i target hm
    cases h
    rw [hm] at htarget
    exact ⟨htarget target rfl, by simp [MonitorPc.stores], hs.swaps⟩
  all_goals cases h

lemma quickScaleUp (hs : s.AboveMin C) (hmin : 0 ≤ C.minWorkerPoolSize)
    (hn : 6 * s.numWorkers < 5 * 2 ^ 31) {i : Nat} {pc : QuickScaleUpPc}
    (hpc : s.quickScaleUps[i]? = some pc) (h : s.quickScaleUp C i pc = some t) :
    t.AboveMin C := by
  have hcount := hs.count
  cases pc with
  | loading =>
    cases h
    exact hs.setQuick i (quickScaleUpTarget_spec C (by omega) hn).2
  | swapping current target =>
    obtain ⟨hpos, hlt, -, hfits⟩ := hs.swaps _ (List.mem_of_getElem? hpc)
    simp only [ScalingState.quickScaleUp] at h
    split at h <;> cases h
    · rename_i hcurrent
      rw [int32_eq (by omega) (by omega)] at hcurrent
      have hset : (s.setQuick i (.locking (target - current).toNat)).AboveMin C :=
        hs.setQuick i trivial
      refine ⟨?_, hs.target, hset.swaps⟩
      change _ ≤ int32 target
      rw [int32_eq (by omega) hfits]
      omega
    · exact hs.setQuick i trivial
  | locking left =>
    simp only [ScalingState.quickScaleUp] at h
    split at h <;> cases h
    have hset : (s.setQuick i (.adding (if left < batchSize then left else batchSize)
        (left - if left < batchSize then left else batchSize))).AboveMin C := hs.setQuick i trivial
    exact hset.congr rfl rfl rfl
  | adding batch left =>
    cases batch with
    | zero =>
      cases h
      have hpc' : SwapInLimits C (if 0 < left then .locking left else .returned) := by
        split <;> trivial
      exact (hs.setQuick i hpc').congr rfl rfl rfl
    | succ batch =>
      cases h
      exact (hs.increment hmin hn).setQuick i trivial
  | starting nextID batch left =>
    cases h
    have hset : (s.setQuick i (.adding batch left)).AboveMin C := hs.setQuick i trivial
    exact hset.congr rfl rfl rfl
  | returned => cases h

lemma step (hs : s.AboveMin C) (hmin : 0 ≤ C.minWorkerPoolSize)
    (hfits : C.minWorkerPoolSize < 2 ^ 31) (hmax : C.maxWorkerPoolSize < 2 ^ 31)
    {a : ScalingAction} (ha : s.Running a) (h : scalingStep F C s a = some t) : t.AboveMin C := by
  obtain ⟨ha, hn⟩ := ha
  cases a with
  | worker w =>
    obtain ⟨x, -, hstep⟩ := Option.bind_eq_some_iff.mp h
    exact hs.serverWorker hmin hn hstep
  | tick =>
    simp only [scalingStep] at h
    split at h <;> cases h
    refine hs.setMonitor fun m hm => ?_
    split at hm <;> cases hm
  | reading r =>
    simp only [scalingStep] at h
    split at h <;> cases h
    refine hs.setMonitor fun m hm => ?_
    rw [stores_monitorAdjust m hm]
    exact monitorTarget_ge hmin hfits hmax hs.count hn r
  | monitor => exact hs.monitorWorkerPool hmin hn h
  | callQuickScaleUp =>
    cases h
    refine ⟨hs.count, hs.target, fun pc hpc => ?_⟩
    obtain hpc | hpc := List.mem_append.mp hpc
    · exact hs.swaps pc hpc
    · rw [List.mem_singleton.mp hpc]
      trivial
  | quickScaleUp i =>
    obtain ⟨pc, hpc, hstep⟩ := Option.bind_eq_some_iff.mp h
    exact hs.quickScaleUp hmin hn hpc hstep
  | exit w => cases ha
  | panic w => cases ha
  | replacement i => cases ha
  | startShutdown => cases ha
  | closeChannel => cases ha

end AboveMin

lemma aboveMin_initFunctionWorkerPool {C : ScalingConfig} (hmin : 0 ≤ C.minWorkerPoolSize)
    (hfits : 2 * C.minWorkerPoolSize < 2 ^ 31) : (initFunctionWorkerPool C).AboveMin C := by
  obtain ⟨ws, -, -, hinit⟩ := initFunctionWorkerPool_eq C
  rw [hinit, int32_eq (by omega) (by omega)]
  refine ⟨?_, by simp [MonitorPc.stores], by simp⟩
  dsimp only
  omega

lemma AboveMin.responds {F : FloatToInt32} {C : ScalingConfig} {s : ScalingState}
    (hs : s.AboveMin C) (hstaying : 0 < s.staying) (hmin : 0 ≤ C.minWorkerPoolSize)
    (hmax : 6 * C.maxWorkerPoolSize ≤ 5 * 2 ^ 31)
    (hgrows : 5 ≤ C.minWorkerPoolSize ∨ C.maxWorkerPoolSize ≤ C.minWorkerPoolSize) :
    s.Responds F C := by
  have hcount := hs.count
  refine ⟨?_, fun hlt => ?_, fun current target hpc hcurrent => ?_⟩
  · rw [length_liveWorkers]
    omega
  · rw [monitorTarget_high (by omega) (by omega) (by omega), if_pos hlt]
    omega
  · obtain ⟨hpos, hlt, hle, hfits⟩ := hs.swaps _ hpc
    rw [int32_eq (by omega) (by omega)] at hcurrent
    rw [int32_eq (by omega) hfits]
    omega

/-! ## Down to the minimum -/

section Low

variable {F : FloatToInt32} {C : ScalingConfig} {s : ScalingState}

/-- A tick with a low reading lowers a counter above the minimum. -/
lemma low_round (hmonitor : s.monitor = .waiting) (hup : s.inShutdown = false)
    (hmin : 0 ≤ C.minWorkerPoolSize) (hlow : C.minWorkerPoolSize < s.numWorkers)
    (hn : 6 * s.numWorkers < 5 * 2 ^ 31) :
    exec (scalingStep F C) s [.tick, .reading .low, .monitor] =
        some { s with numWorkers := max (4 * s.numWorkers / 5) C.minWorkerPoolSize } ∧
      Guarded (scalingStep F C) Running s [.tick, .reading .low, .monitor] := by
  have htarget := monitorTarget_low (F := F) hmin (by omega) (by omega) hn
  rw [if_pos hlow] at htarget
  have hadjust : monitorAdjust F C s.numWorkers .low =
      .shrinking (max (4 * s.numWorkers / 5) C.minWorkerPoolSize) := by
    simp only [monitorAdjust, htarget]
    rw [if_pos (by omega), int32_eq (by omega) (by omega), if_neg (by omega), if_pos (by omega)]
  have h₁ : scalingStep F C s .tick = some { s with monitor := .measuring } := by
    simp [scalingStep, hmonitor, hup]
  have h₂ : scalingStep F C { s with monitor := .measuring } (.reading .low) =
      some { s with monitor := .shrinking (max (4 * s.numWorkers / 5) C.minWorkerPoolSize) } := by
    simp only [scalingStep, if_true, hadjust]
  have h₃ : scalingStep F C
        { s with monitor := .shrinking (max (4 * s.numWorkers / 5) C.minWorkerPoolSize) } .monitor =
      some { s with numWorkers := max (4 * s.numWorkers / 5) C.minWorkerPoolSize } := by
    simp only [scalingStep, ScalingState.monitorWorkerPool, hmonitor]
  constructor
  · simp only [exec, h₁, h₂, h₃, Option.bind_some]
  · simp only [Guarded, h₁, h₂, h₃]
    exact ⟨⟨rfl, hn⟩, ⟨rfl, hn⟩, ⟨rfl, hn⟩, trivial⟩

/-- Low readings bring the counter down to the minimum. -/
lemma exists_run_to_min (hmin : 0 ≤ C.minWorkerPoolSize) (hmonitor : s.monitor = .waiting)
    (hup : s.inShutdown = false) (hle : C.minWorkerPoolSize ≤ s.numWorkers)
    (hn : 6 * s.numWorkers < 5 * 2 ^ 31) :
    ∃ acts t, exec (scalingStep F C) s acts = some t ∧ Guarded (scalingStep F C) Running s acts ∧
      t.numWorkers = C.minWorkerPoolSize := by
  induction hk : s.numWorkers.toNat using Nat.strong_induction_on generalizing s with
  | h k ih =>
    by_cases hlow : C.minWorkerPoolSize < s.numWorkers
    · obtain ⟨hrun, hguard⟩ := low_round (F := F) hmonitor hup hmin hlow hn
      obtain ⟨acts, t, hacts, hguard', ht⟩ := ih
        (max (4 * s.numWorkers / 5) C.minWorkerPoolSize).toNat (by omega)
        (s := { s with numWorkers := max (4 * s.numWorkers / 5) C.minWorkerPoolSize })
        hmonitor hup (by dsimp only; omega) (by dsimp only; omega) rfl
      exact ⟨_, t, exec_append_some.mpr ⟨_, hrun, hacts⟩, hguard.append hrun hguard', ht⟩
    · exact ⟨[], s, rfl, trivial, by omega⟩

end Low

/-- When an overloaded pool grows from every counter it can reach. -/
theorem responds_iff (F : FloatToInt32) (C : ScalingConfig) (hmin : 0 ≤ C.minWorkerPoolSize)
    (hfits : 2 * C.minWorkerPoolSize < 2 ^ 31) (hmax : 6 * C.maxWorkerPoolSize ≤ 5 * 2 ^ 31) :
    (∀ acts s, exec (scalingStep F C) (initFunctionWorkerPool C) acts = some s →
      Guarded (scalingStep F C) Running (initFunctionWorkerPool C) acts → s.Responds F C) ↔
    0 < C.minWorkerPoolSize ∧
      (5 ≤ C.minWorkerPoolSize ∨ C.maxWorkerPoolSize ≤ C.minWorkerPoolSize) := by
  have hinit := aboveMin_initFunctionWorkerPool hmin hfits
  have hstaying := staying_initFunctionWorkerPool C
  constructor
  · intro hall
    obtain ⟨ws, hlen, -, heq⟩ := initFunctionWorkerPool_eq C
    have hnum : (initFunctionWorkerPool C).numWorkers = 2 * C.minWorkerPoolSize := by
      rw [heq, int32_eq (by omega) (by omega)]
      dsimp only
      omega
    have hworker : 0 < C.minWorkerPoolSize := by
      have hlive : 0 < (initFunctionWorkerPool C).liveWorkers.length :=
        (hall [] _ rfl trivial).worker
      have hle : (initFunctionWorkerPool C).liveWorkers.length ≤
          (initFunctionWorkerPool C).workers.length := List.length_filter_le _ _
      rw [heq] at hlive hle
      dsimp only at hle
      omega
    refine ⟨hworker, ?_⟩
    by_contra hsmall
    -- The counter is brought down to the minimum, where 1.2 times it is not more.
    obtain ⟨acts, t, hrun, hguard, ht⟩ := exists_run_to_min (F := F) (C := C)
      (s := initFunctionWorkerPool C) hmin (by rw [heq]) (by rw [heq]) (by omega) (by omega)
    have hgrow := (hall acts t hrun hguard).monitor (by omega)
    rw [ht, monitorTarget_high (by omega) (by omega) (by omega), if_pos (by omega)] at hgrow
    omega
  · rintro ⟨hpos, hgrows⟩ acts s hrun hguard
    have hs : s.AboveMin C := exec_invariant_guarded (AboveMin C)
      (fun _ _ _ hs ha h => hs.step hmin (by omega) (by omega) ha h) hinit hguard hrun
    have hle : C.minWorkerPoolSize.toNat ≤ s.staying :=
      exec_invariant_guarded (fun t => C.minWorkerPoolSize.toNat ≤ t.staying)
        (fun _ _ _ hs ha h => hs.trans (staying_le_step ha.1 h)) hstaying.ge hguard hrun
    exact hs.responds (by omega) hmin hmax hgrows

end ScalingState

/-! ## The options of the pool -/

variable {C Q I R TLS H : Type}

/-- The option sets the limits of the pool; its arguments are Go integers. -/
def ServerOpt.SetsPool : ServerOpt C Q I R TLS H → Prop
  | .withWorkerPool size => 0 < size ∧ size < 2 ^ 63
  | .withWorkerPoolSize min max => 0 < min ∧ min ≤ max ∧ max < 2 ^ 63
  | _ => False

/-- The limits in a record of options that `NewServer` accepts. -/
def poolLimits (y : FullServerOption C Q I R TLS H) (h : 0 ≤ y.maxWorkerPoolSize) : ScalingConfig :=
  ⟨y.minWorkerPoolSize, y.maxWorkerPoolSize, h⟩

lemma limits_of_setsPool {o : ServerOpt C Q I R TLS H} {x y : FullServerOption C Q I R TLS H}
    (ho : o.SetsPool) (hy : o.apply x = .ok y) (h : 0 ≤ y.maxWorkerPoolSize) :
    0 ≤ y.minWorkerPoolSize ∧ y.minWorkerPoolSize ≤ y.maxWorkerPoolSize := by
  cases o with
  | withWorkerPool size =>
    obtain ⟨hpos, hsize⟩ := ho
    simp only [ServerOpt.apply, if_pos hpos] at hy
    cases hy
    dsimp only at h ⊢
    unfold int64 at h ⊢
    omega
  | withWorkerPoolSize min max =>
    obtain ⟨hpos, hle, -⟩ := ho
    simp only [ServerOpt.apply, if_pos (And.intro hpos hle)] at hy
    cases hy
    exact ⟨hpos.le, hle⟩
  | _ => cases ho

namespace Proofs

/-- For limits that leave room in `int32`: an overloaded monitor tick, and a `quickScaleUp` that
wins its swap, choose a larger number from every counter below the maximum that a running pool
reaches, and the pool always has a worker, exactly when the minimum is positive and is at least
five or is the maximum. -/
theorem overload_grows_iff (F : FloatToInt32) (o : ServerOpt C Q I R TLS H) (ho : o.SetsPool)
    (x y : FullServerOption C Q I R TLS H) (hy : o.apply x = .ok y)
    (hpool : 0 ≤ y.maxWorkerPoolSize) (hmin : 2 * y.minWorkerPoolSize < 2 ^ 31)
    (hmax : 6 * y.maxWorkerPoolSize ≤ 5 * 2 ^ 31) :
    (∀ acts s,
      exec (scalingStep F (poolLimits y hpool)) (.initFunctionWorkerPool (poolLimits y hpool)) acts =
        some s →
      Guarded (scalingStep F (poolLimits y hpool)) ScalingState.Running
        (.initFunctionWorkerPool (poolLimits y hpool)) acts →
      s.Responds F (poolLimits y hpool)) ↔
    0 < y.minWorkerPoolSize ∧
      (5 ≤ y.minWorkerPoolSize ∨ y.minWorkerPoolSize = y.maxWorkerPoolSize) := by
  obtain ⟨hnonneg, hle⟩ := limits_of_setsPool ho hy hpool
  rw [ScalingState.responds_iff F (poolLimits y hpool) hnonneg hmin hmax]
  change 0 < y.minWorkerPoolSize ∧
    (5 ≤ y.minWorkerPoolSize ∨ y.maxWorkerPoolSize ≤ y.minWorkerPoolSize) ↔ _
  omega

/-- `WithWorkerPool(20)` on the initial options. -/
def pool20 : FullServerOption Unit Unit Unit Unit Unit Unit :=
  { FullServerOption.initial with
    enableWorkerPool := true
    workerPoolSize := 20
    minWorkerPoolSize := 5
    maxWorkerPoolSize := 40 }

theorem overload_grows_pool20 :
    (ScalingState.initFunctionWorkerPool (poolLimits pool20 (by decide))).Responds .wrapping
      (poolLimits pool20 (by decide)) := by
  have hall := (overload_grows_iff .wrapping
    (.withWorkerPool 20 : ServerOpt Unit Unit Unit Unit Unit Unit) (by exact ⟨by decide, by decide⟩)
    .initial pool20 rfl (by decide) (by decide) (by decide)).mpr (by decide)
  exact hall [] _ rfl trivial

/-- `WithWorkerPoolSize(1, 10)` starts with a counter of 2, from which an overloaded monitor does not
grow. `WithWorkerPool(3)` starts no worker. -/
theorem overload_does_not_grow :
    (∃ y : FullServerOption Unit Unit Unit Unit Unit Unit, ∃ h : 0 ≤ y.maxWorkerPoolSize,
      (ServerOpt.withWorkerPoolSize 1 10).apply .initial = .ok y ∧
      ¬(ScalingState.initFunctionWorkerPool (poolLimits y h)).Responds .wrapping
        (poolLimits y h)) ∧
    ∃ y : FullServerOption Unit Unit Unit Unit Unit Unit, ∃ h : 0 ≤ y.maxWorkerPoolSize,
      (ServerOpt.withWorkerPool 3).apply .initial = .ok y ∧
      (ScalingState.initFunctionWorkerPool (poolLimits y h)).liveWorkers.length = 0 := by
  constructor
  · refine ⟨_, ?_, rfl, ?_⟩
    · decide
    · intro h
      have hgrow := h.monitor (by decide)
      revert hgrow
      decide +kernel
  · refine ⟨_, ?_, rfl, ?_⟩
    · decide
    · rfl

end Proofs

end Zrpc
