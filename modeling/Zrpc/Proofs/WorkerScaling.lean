import Zrpc.Lib.Tally
import Zrpc.WorkerScaling

/-!
# The counter of the worker pool and its limits

`initFunctionWorkerPool` stores the number of workers and counts each of them once more, so the
counter is never the number of workers of a pool that has any. What the pool needs of the counter
is less: that it is not below the number of workers that run or are about to be started. Growing
keeps that, and a worker that starts its successor does; a smaller number stored by the monitor
need not.
-/

namespace Zrpc

open Zrpc.Lib

lemma sixFifths_eq {n : Int} (hn : 0 ≤ n) (hhigh : n < 2 ^ 31) : sixFifths n = 6 * n / 5 := by
  unfold sixFifths
  rw [mulTrunc_six_fifths (by omega) hhigh, Int.tdiv_eq_ediv_of_nonneg (by omega)]

lemma fourFifths_eq {n : Int} (hn : 0 ≤ n) (hhigh : n < 2 ^ 31) : fourFifths n = 4 * n / 5 := by
  unfold fourFifths
  rw [mulTrunc_four_fifths (by omega) hhigh, Int.tdiv_eq_ediv_of_nonneg (by omega)]

namespace ScalingState

/-- After `n` calls of `workerCreator` the counter is `n` larger, and there are `n` workers more. -/
lemma iterate_workerCreator (n : Nat) (a : Int) (s : ScalingState) (ha : s.numWorkers = int32 a) :
    ∃ ws : List ScaledWorker, ws.length = n ∧ (∀ x ∈ ws, x.pc = .polling 0) ∧
      workerCreator^[n] s = { s with numWorkers := int32 (a + n), workers := s.workers ++ ws } := by
  induction n generalizing a s with
  | zero =>
    refine ⟨[], rfl, by simp, ?_⟩
    rw [Int.natCast_zero, Int.add_zero, ← ha, List.append_nil]
    rfl
  | succ n ih =>
    have hnext : s.workerCreator.numWorkers = int32 (a + 1) := by
      change int32 (s.numWorkers + 1) = _
      rw [ha, int32_int32_add]
    obtain ⟨ws, hlen, hpc, heq⟩ := ih (a + 1) s.workerCreator hnext
    refine ⟨⟨s.nextID, .polling 0⟩ :: ws, by simp [hlen], ?_, ?_⟩
    · intro x hx
      obtain rfl | hx := List.mem_cons.mp hx
      · rfl
      · exact hpc x hx
    · rw [Function.iterate_succ_apply, heq]
      simp only [workerCreator, start, increment, List.append_assoc, List.singleton_append]
      rw [show a + 1 + (n : Int) = a + ((n + 1 : Nat) : Int) by omega]

/-- The counter starts at twice the number of the workers. -/
lemma initFunctionWorkerPool_eq (C : ScalingConfig) : ∃ ws : List ScaledWorker,
    ws.length = C.minWorkerPoolSize.toNat ∧ (∀ x ∈ ws, x.pc = .polling 0) ∧
    initFunctionWorkerPool C =
      ⟨int32 (C.minWorkerPoolSize + C.minWorkerPoolSize.toNat), ws, .waiting, [], [],
        false, false, false⟩ :=
  iterate_workerCreator _ C.minWorkerPoolSize
    ⟨int32 C.minWorkerPoolSize, [], .waiting, [], [], false, false, false⟩ rfl

/-! ## A pool without workers -/

/-- There is no worker, the counter is 0, and nothing is being adjusted. -/
structure Empty (s : ScalingState) : Prop where
  numWorkers : s.numWorkers = 0
  workers : s.workers = []
  monitor : s.monitor = .waiting ∨ s.monitor = .measuring ∨ s.monitor = .returned
  quickScaleUps : ∀ pc ∈ s.quickScaleUps, pc = .loading ∨ pc = .returned
  replacements : s.replacements = []

lemma monitorAdjust_zero (F : FloatToInt32) {C : ScalingConfig}
    (hmin : int32 C.minWorkerPoolSize = 0) (r : LoadReading) :
    monitorAdjust F C 0 r = .waiting := by
  have htarget : monitorTarget F C 0 r = 0 := by
    cases r with
    | high =>
      have hconv : F.conv (sixFifths 0) = 0 := F.conv_eq 0 (by omega) (by omega)
      simp only [monitorTarget, hconv]
      split
      · exact if_neg (by omega)
      · rfl
    | low => exact if_neg (by omega)
    | normal => rfl
  simp [monitorAdjust, htarget]

lemma quickScaleUpTarget_zero (C : ScalingConfig) : quickScaleUpTarget C 0 = .returned := by
  have htarget : sixFifths 0 = 0 := rfl
  simp only [quickScaleUpTarget, htarget]
  split
  · rfl
  · split <;> exact if_pos (by omega)

lemma Empty.step {F : FloatToInt32} {C : ScalingConfig} {s t : ScalingState} {a : ScalingAction}
    (hmin : int32 C.minWorkerPoolSize = 0) (hs : s.Empty) (h : scalingStep F C s a = some t) :
    t.Empty := by
  cases a with
  | worker w => simp [scalingStep, hs.workers] at h
  | exit w => simp [scalingStep, hs.workers] at h
  | panic w => simp [scalingStep, hs.workers] at h
  | replacement i => simp [scalingStep, hs.replacements] at h
  | tick =>
    simp only [scalingStep] at h
    split at h <;> cases h
    refine { hs with monitor := ?_ }
    dsimp only
    split
    · exact .inr (.inr rfl)
    · exact .inr (.inl rfl)
  | reading r =>
    simp only [scalingStep] at h
    split at h <;> cases h
    refine { hs with monitor := .inl ?_ }
    dsimp only
    rw [hs.numWorkers, monitorAdjust_zero F hmin]
  | monitor =>
    obtain hm | hm | hm := hs.monitor <;> simp [scalingStep, monitorWorkerPool, hm] at h
  | callQuickScaleUp =>
    cases h
    refine { hs with quickScaleUps := fun pc hpc => ?_ }
    obtain hpc | hpc := List.mem_append.mp hpc
    · exact hs.quickScaleUps pc hpc
    · exact .inl (List.mem_singleton.mp hpc)
  | quickScaleUp i =>
    obtain ⟨pc, hpc, hstep⟩ := Option.bind_eq_some_iff.mp h
    obtain rfl | rfl := hs.quickScaleUps pc (List.mem_of_getElem? hpc)
    · cases hstep
      refine { hs with quickScaleUps := fun pc hpc => ?_ }
      obtain hpc | rfl := List.mem_or_eq_of_mem_set hpc
      · exact hs.quickScaleUps pc hpc
      · rw [hs.numWorkers, quickScaleUpTarget_zero]
        exact .inr rfl
    · cases hstep
  | startShutdown =>
    cases h
    exact { hs with }
  | closeChannel =>
    simp only [scalingStep] at h
    split at h <;> cases h
    exact { hs with }

end ScalingState

/-- The conversion of a processor that converts to `int64` first. -/
def FloatToInt32.wrapping : FloatToInt32 where
  conv := int32
  inRange := by
    intro x
    unfold int32
    omega
  conv_eq := fun _ => int32_eq

namespace Proofs

/-- The counter is the number of the live workers, and their IDs differ, in all settled states of
all runs exactly when the pool starts no worker and its counter at 0. -/
theorem worker_accounting_iff (F : FloatToInt32) (C : ScalingConfig) :
    (∀ acts s, exec (scalingStep F C) (.initFunctionWorkerPool C) acts = some s → s.Settled →
      s.numWorkers = s.liveWorkers.length ∧ (s.liveWorkers.map (·.workerID)).Nodup) ↔
    C.minWorkerPoolSize ≤ 0 ∧ int32 C.minWorkerPoolSize = 0 := by
  obtain ⟨ws, hlen, hpc, hinit⟩ := ScalingState.initFunctionWorkerPool_eq C
  constructor
  · intro hall
    have hsettled : (ScalingState.initFunctionWorkerPool C).Settled := by
      rw [hinit]
      refine ⟨.inl rfl, by simp, by simp, fun x hx => ?_⟩
      rw [hpc x hx]
      rfl
    obtain ⟨hcount, -⟩ := hall [] _ rfl hsettled
    have hlive : (ScalingState.initFunctionWorkerPool C).liveWorkers = ws := by
      rw [hinit]
      refine List.filter_eq_self.mpr fun x hx => ?_
      simp [hpc x hx]
    rw [hlive, hlen, hinit] at hcount
    dsimp only at hcount
    unfold int32 at hcount ⊢
    omega
  · rintro ⟨hle, hzero⟩ acts s hrun -
    have hnat : C.minWorkerPoolSize.toNat = 0 := by omega
    have hws : ws = [] := List.eq_nil_of_length_eq_zero (hlen.trans hnat)
    have hempty : (ScalingState.initFunctionWorkerPool C).Empty := by
      rw [hinit, hnat, Int.natCast_zero, Int.add_zero]
      exact ⟨hzero, hws, .inl rfl, by simp, rfl⟩
    have hs := exec_invariant ScalingState.Empty
      (fun _ _ _ hs h => hs.step hzero h) hempty hrun
    simp [ScalingState.liveWorkers, hs.workers, hs.numWorkers]

def noWorkers : ScalingConfig := ⟨0, 100, by decide⟩

/-- A pool without workers stays without, whatever the monitor reads. -/
theorem worker_accounting_iff_noWorkers : ∃ s,
    exec (scalingStep .wrapping noWorkers) (.initFunctionWorkerPool noWorkers)
      [.tick, .reading .high, .callQuickScaleUp, .quickScaleUp 0] = some s ∧ s.Settled ∧
    s.numWorkers = s.liveWorkers.length ∧ (s.liveWorkers.map (·.workerID)).Nodup := by
  have hrun : ∃ s ∈ exec (scalingStep .wrapping noWorkers) (.initFunctionWorkerPool noWorkers)
      [.tick, .reading .high, .callQuickScaleUp, .quickScaleUp 0], s.Settled := by
    decide +kernel
  obtain ⟨s, hs, hsettled⟩ := hrun
  have hall := (worker_accounting_iff .wrapping noWorkers).mpr (by decide)
  exact ⟨s, hs, hsettled, hall _ s hs hsettled⟩

def defaultPool : ScalingConfig := ⟨5, 100, by decide⟩

/-- With the default options `NewServer` starts five workers and counts ten. After a shrink to 8 and
a growth to 9 there are six, two of them with the ID 8. -/
theorem worker_accounting_default :
    (∃ s ∈ exec (scalingStep .wrapping defaultPool) (.initFunctionWorkerPool defaultPool) [],
      s.Settled ∧ s.numWorkers = 10 ∧ s.liveWorkers.length = 5) ∧
    ∃ s ∈ exec (scalingStep .wrapping defaultPool) (.initFunctionWorkerPool defaultPool)
        [.tick, .reading .low, .monitor, .tick, .reading .high, .monitor, .monitor, .monitor],
      s.Settled ∧ s.numWorkers = 9 ∧ s.liveWorkers.map (·.workerID) = [5, 6, 7, 8, 9, 8] := by
  decide +kernel

end Proofs

/-! ## The limits of a pool -/

/-- 1 for a worker that has not started a successor. -/
def ScaledWorkerPc.stays : ScaledWorkerPc → Nat
  | .polling _ | .creating _ => 1
  | .leaving | .returned => 0

/-- 1 for a worker that has started its successor and not returned. -/
def ScaledWorkerPc.leaves : ScaledWorkerPc → Nat
  | .leaving => 1
  | .polling _ | .creating _ | .returned => 0

/-- The next step starts the successor. -/
def ScaledWorkerPc.creates : ScaledWorkerPc → Bool
  | .creating _ => true
  | .polling _ | .leaving | .returned => false

/-- The workers a `quickScaleUp` has still to start. -/
def QuickScaleUpPc.owed : QuickScaleUpPc → Nat
  | .locking left => left
  | .adding batch left => batch + left
  | .starting _ batch left => batch + 1 + left
  | .loading | .swapping _ _ | .returned => 0

/-- The next step stores a larger number. -/
def QuickScaleUpPc.swaps (numWorkers : Int) : QuickScaleUpPc → Bool
  | .swapping currentWorkers _ => numWorkers = int32 currentWorkers
  | _ => false

namespace MonitorPc

/-- The workers the monitor has still to start. -/
def owed : MonitorPc → Nat
  | .adding left _ => left
  | .starting _ left _ => left + 1
  | .waiting | .measuring | .shrinking _ | .returned => 0

/-- The monitor is adding workers. -/
def grows : MonitorPc → Bool
  | .adding _ _ | .starting _ _ _ => true
  | .waiting | .measuring | .shrinking _ | .returned => false

/-- The counter, or the number that the monitor will store when it has added its workers. -/
def goal (numWorkers : Int) : MonitorPc → Int
  | .adding _ targetWorkers | .starting _ _ targetWorkers => targetWorkers
  | .waiting | .measuring | .shrinking _ | .returned => numWorkers

lemma goal_mono {n m : Int} (h : n ≤ m) (pc : MonitorPc) : pc.goal n ≤ pc.goal m := by
  cases pc <;> first | exact h | exact Int.le_refl _

lemma goal_of_not_grows {pc : MonitorPc} (h : pc.grows = false) (n : Int) : pc.goal n = n := by
  cases pc <;> first | rfl | cases h

end MonitorPc

/-- The steps of the workers, the monitor and `quickScaleUp` while the server runs. -/
def ScalingAction.scales : ScalingAction → Bool
  | .worker _ | .tick | .reading _ | .monitor | .callQuickScaleUp | .quickScaleUp _ => true
  | .exit _ | .panic _ | .replacement _ | .startShutdown | .closeChannel => false

namespace ScalingState

def staying (s : ScalingState) : Nat := tally (fun _ x => x.pc.stays) s.workers

def leaving (s : ScalingState) : Nat := tally (fun _ x => x.pc.leaves) s.workers

def owed (s : ScalingState) : Nat := tally (fun _ pc => pc.owed) s.quickScaleUps

/-- A step that keeps `k` places free. The counter times 1.2 fits `int32`. A worker starts its
successor while fewer than `k` others have started theirs and not returned; the monitor stores no
number that is less than `k` above the workers that run or are about to be started; and no
`quickScaleUp` swaps the counter while the monitor adds workers. -/
def Orderly (k : Nat) (s : ScalingState) (a : ScalingAction) : Prop :=
  6 * s.numWorkers < 5 * 2 ^ 31 ∧
  match a with
  | .worker w => s.leaving < k ∨ ∀ x ∈ s.workers[w]?, x.pc.creates = false
  | .monitor =>
    match s.monitor with
    | .shrinking targetWorkers => s.staying + s.owed + k ≤ targetWorkers
    | _ => True
  | .quickScaleUp i =>
    s.monitor.grows = false ∨ ∀ pc ∈ s.quickScaleUps[i]?, pc.swaps s.numWorkers = false
  | _ => True

instance (k : Nat) (s : ScalingState) (a : ScalingAction) : Decidable (s.Orderly k a) :=
  @instDecidableAnd _ _ _ <| match a with
    | .worker _ | .quickScaleUp _ => instDecidableOr
    | .monitor =>
      match s.monitor with
      | .shrinking targetWorkers => inferInstanceAs (Decidable (_ ≤ targetWorkers))
      | .waiting | .measuring | .adding _ _ | .starting _ _ _ | .returned => isTrue trivial
    | .exit _ | .panic _ | .replacement _ | .tick | .reading _ | .callQuickScaleUp
    | .startShutdown | .closeChannel => isTrue trivial

/-- The workers that run or are about to be started. -/
def demand (s : ScalingState) : Nat := s.staying + s.owed + s.monitor.owed

variable {s t : ScalingState} {C : ScalingConfig} {F : FloatToInt32} {k : Nat}

lemma length_liveWorkers (s : ScalingState) : s.liveWorkers.length = s.staying + s.leaving := by
  rw [liveWorkers, ← List.countP_eq_length_filter]
  unfold staying leaving
  induction s.workers with
  | nil => rfl
  | cons x l ih =>
    have hx : (if decide (x.pc ≠ .returned) = true then 1 else 0) = x.pc.stays + x.pc.leaves := by
      cases x.pc <;> rfl
    rw [List.countP_cons, ih, hx, tally_cons, tally_cons]
    omega

lemma staying_start (s : ScalingState) (id : Int) : (s.start id).staying = s.staying + 1 :=
  tally_append _ _ _

lemma leaving_start (s : ScalingState) (id : Int) : (s.start id).leaving = s.leaving :=
  tally_append _ _ _

lemma demand_start (s : ScalingState) (id : Int) : (s.start id).demand = s.demand + 1 := by
  have hstaying := staying_start s id
  change (s.start id).staying + s.owed + s.monitor.owed = s.demand + 1
  unfold demand
  omega

section Worker

variable {w : Nat} {x : ScaledWorker}

lemma staying_setWorker (hx : s.workers[w]? = some x) (pc : ScaledWorkerPc) :
    (s.setWorker w pc).staying + x.pc.stays = s.staying + pc.stays :=
  tally_modify hx _

lemma leaving_setWorker (hx : s.workers[w]? = some x) (pc : ScaledWorkerPc) :
    (s.setWorker w pc).leaving + x.pc.leaves = s.leaving + pc.leaves :=
  tally_modify hx _

lemma demand_setWorker (hx : s.workers[w]? = some x) (pc : ScaledWorkerPc) :
    (s.setWorker w pc).demand + x.pc.stays = s.demand + pc.stays := by
  have hstaying := staying_setWorker hx pc
  change (s.setWorker w pc).staying + s.owed + s.monitor.owed + _ = _
  unfold demand
  omega

end Worker

lemma demand_setQuick {i : Nat} {pc : QuickScaleUpPc} (hpc : s.quickScaleUps[i]? = some pc)
    (pc' : QuickScaleUpPc) : (s.setQuick i pc').demand + pc.owed = s.demand + pc'.owed := by
  have howed : (s.setQuick i pc').owed + pc.owed = s.owed + pc'.owed := tally_set hpc pc'
  change s.staying + (s.setQuick i pc').owed + s.monitor.owed + _ = _
  unfold demand
  omega

/-- A swap that is still to be made leads to a larger number, which is no larger than the limit and
fits `int32`. -/
def SwapInLimits (C : ScalingConfig) : QuickScaleUpPc → Prop
  | .swapping currentWorkers targetWorkers =>
    0 ≤ currentWorkers ∧ currentWorkers < targetWorkers ∧
      targetWorkers ≤ C.maxWorkerPoolSize ∧ targetWorkers < 2 ^ 31
  | _ => True

/-- The invariant: the counter, and the limit, are `k` above the workers that run or are about to be
started, and no more than `k` workers are about to return. -/
structure InLimits (C : ScalingConfig) (k : Nat) (s : ScalingState) : Prop where
  nonneg : 0 ≤ s.numWorkers
  counted : (s.demand + k : Int) ≤ s.monitor.goal s.numWorkers
  bounded : (s.demand + k : Int) ≤ C.maxWorkerPoolSize
  leaving : s.leaving ≤ k
  swaps : ∀ pc ∈ s.quickScaleUps, SwapInLimits C pc

lemma monitorTarget_bounds (F : FloatToInt32) (C : ScalingConfig) {n : Int} (hn : 0 ≤ n)
    (hhigh : 6 * n < 5 * 2 ^ 31) (r : LoadReading) :
    0 ≤ monitorTarget F C n r ∧ monitorTarget F C n r < 2 ^ 31 ∧
      (n < monitorTarget F C n r → monitorTarget F C n r ≤ C.maxWorkerPoolSize) := by
  cases r with
  | high =>
    have hmax := int32_le C.max_nonneg
    have hconv : F.conv (sixFifths n) = 6 * n / 5 := by
      rw [sixFifths_eq hn (by omega)]
      exact F.conv_eq _ (by omega) (by omega)
    simp only [monitorTarget, hconv]
    split
    · split <;> omega
    · omega
  | low =>
    have hconv : F.conv (fourFifths n) = 4 * n / 5 := by
      rw [fourFifths_eq hn (by omega)]
      exact F.conv_eq _ (by omega) (by omega)
    simp only [monitorTarget, hconv]
    split
    · split <;> omega
    · omega
  | normal =>
    change 0 ≤ n ∧ n < 2 ^ 31 ∧ (n < n → _)
    omega

/-- After a reading the monitor waits, or lowers the counter, or adds as many workers as its target
is above the counter. -/
lemma monitorAdjust_cases (F : FloatToInt32) (C : ScalingConfig) {n : Int} (hn : 0 ≤ n)
    (hhigh : 6 * n < 5 * 2 ^ 31) (r : LoadReading) :
    monitorAdjust F C n r = .waiting ∨ (∃ target, monitorAdjust F C n r = .shrinking target) ∨
    ∃ left target, monitorAdjust F C n r = .adding left target ∧ target = n + (left : Nat) ∧
      target ≤ C.maxWorkerPoolSize := by
  obtain ⟨hpos, hfits, hmax⟩ := monitorTarget_bounds F C hn hhigh r
  simp only [monitorAdjust]
  rw [int32_eq (by omega) (by omega)]
  split
  · split
    · exact .inr (.inr ⟨_, _, rfl, by omega, hmax (by omega)⟩)
    · split
      · exact .inr (.inl ⟨_, rfl⟩)
      · exact .inl rfl
  · exact .inl rfl

lemma quickScaleUpTarget_spec (C : ScalingConfig) {n : Int} (hn : 0 ≤ n)
    (hhigh : 6 * n < 5 * 2 ^ 31) :
    (quickScaleUpTarget C n).owed = 0 ∧ SwapInLimits C (quickScaleUpTarget C n) := by
  simp only [quickScaleUpTarget, sixFifths_eq hn (show n < 2 ^ 31 by omega)]
  generalize htarget :
    (if C.maxWorkerPoolSize < 6 * n / 5 then C.maxWorkerPoolSize else 6 * n / 5) = target
  have hle : target ≤ C.maxWorkerPoolSize ∧ target ≤ 6 * n / 5 := by
    rw [← htarget]
    split <;> omega
  split
  · exact ⟨rfl, trivial⟩
  · split
    · exact ⟨rfl, trivial⟩
    · exact ⟨rfl, hn, by omega, hle.1, by omega⟩

namespace InLimits

lemma congr (hs : s.InLimits C k) (hnum : t.numWorkers = s.numWorkers)
    (hgoal : t.monitor.goal s.numWorkers = s.monitor.goal s.numWorkers)
    (hdemand : t.demand = s.demand) (hleaving : t.leaving ≤ k)
    (hswaps : ∀ pc ∈ t.quickScaleUps, SwapInLimits C pc) : t.InLimits C k where
  nonneg := by
    rw [hnum]
    exact hs.nonneg
  counted := by
    rw [hdemand, hnum, hgoal]
    exact hs.counted
  bounded := by
    rw [hdemand]
    exact hs.bounded
  leaving := hleaving
  swaps := hswaps

lemma increment (hs : s.InLimits C k) (hn : 6 * s.numWorkers < 5 * 2 ^ 31) :
    s.increment.InLimits C k := by
  have hpos := hs.nonneg
  have hnum : s.increment.numWorkers = s.numWorkers + 1 := int32_eq (by omega) (by omega)
  refine { hs with nonneg := ?_, counted := ?_ }
  · omega
  · refine Int.le_trans hs.counted ?_
    rw [hnum]
    exact MonitorPc.goal_mono (by omega) _

lemma setWorker (hs : s.InLimits C k) {w : Nat} {x : ScaledWorker} {pc : ScaledWorkerPc}
    (hx : s.workers[w]? = some x) (hstays : pc.stays = x.pc.stays)
    (hleaves : pc.leaves ≤ x.pc.leaves) : (s.setWorker w pc).InLimits C k := by
  have hdemand := demand_setWorker hx pc
  have hleaving := leaving_setWorker hx pc
  have hle := hs.leaving
  exact hs.congr rfl rfl (by omega) (by omega) hs.swaps

lemma serverWorker (hs : s.InLimits C k) {w : Nat} {x : ScaledWorker}
    (hx : s.workers[w]? = some x) (hn : 6 * s.numWorkers < 5 * 2 ^ 31)
    (hok : s.leaving < k ∨ x.pc.creates = false) (h : s.serverWorker w x.pc = some t) :
    t.InLimits C k := by
  obtain ⟨id, pc⟩ := x
  cases pc with
  | polling completed =>
    simp only [ScalingState.serverWorker] at h
    split at h <;> cases h
    · exact hs.setWorker hx rfl (Nat.le_refl _)
    · exact (hs.increment hn).setWorker hx rfl (Nat.le_refl _)
  | creating nextID =>
    cases h
    -- The successor takes the place of the worker, which is still there.
    have hlt : s.leaving < k := hok.resolve_right (by simp [ScaledWorkerPc.creates])
    have hdemand := demand_setWorker hx .leaving
    have hleaving := leaving_setWorker hx .leaving
    simp only [ScaledWorkerPc.stays, ScaledWorkerPc.leaves] at hdemand hleaving
    refine hs.congr rfl rfl ?_ ?_ hs.swaps
    · rw [demand_start]
      omega
    · rw [leaving_start]
      omega
  | leaving =>
    cases h
    exact hs.setWorker hx rfl (Nat.zero_le _)
  | returned => cases h

lemma setMonitor (hs : s.InLimits C k) {m : MonitorPc} (howed : m.owed = s.monitor.owed)
    (hgoal : m.goal s.numWorkers = s.monitor.goal s.numWorkers) :
    { s with monitor := m }.InLimits C k := by
  refine hs.congr rfl hgoal ?_ hs.leaving hs.swaps
  change s.staying + s.owed + m.owed = s.demand
  rw [howed]
  rfl

lemma reading (hs : s.InLimits C k) (hn : 6 * s.numWorkers < 5 * 2 ^ 31)
    (hm : s.monitor = .measuring) (r : LoadReading) :
    { s with monitor := monitorAdjust F C s.numWorkers r }.InLimits C k := by
  have hcases := monitorAdjust_cases F C hs.nonneg hn r
  have hcounted := hs.counted
  rw [hm] at hcounted
  change (s.demand + k : Int) ≤ s.numWorkers at hcounted
  obtain hw | ⟨target, hshrink⟩ | ⟨left, target, hgrow, htarget, hmax⟩ := hcases
  · rw [hw]
    exact hs.setMonitor (by rw [hm]; rfl) (by rw [hm]; rfl)
  · rw [hshrink]
    exact hs.setMonitor (by rw [hm]; rfl) (by rw [hm]; rfl)
  · rw [hgrow]
    have hdemand : ({ s with monitor := .adding left target } : ScalingState).demand =
        s.demand + left := by
      unfold demand
      rw [hm]
      rfl
    refine { hs with counted := ?_, bounded := ?_ }
    · rw [hdemand]
      change _ ≤ target
      omega
    · rw [hdemand]
      omega

/-- The monitor stores a number that is `k` above the workers that run or are about to be
started. -/
lemma store (hs : s.InLimits C k) {target : Int} (howed : s.monitor.owed = 0)
    (htarget : (s.staying + s.owed + k : Int) ≤ target) :
    { s with numWorkers := target, monitor := .waiting }.InLimits C k := by
  have hbounded := hs.bounded
  unfold demand at hbounded
  refine { hs with nonneg := ?_, counted := ?_, bounded := ?_ }
  · change 0 ≤ target
    omega
  · change ((s.staying + s.owed + 0 : Nat) + k : Int) ≤ target
    omega
  · change ((s.staying + s.owed + 0 : Nat) + k : Int) ≤ _
    omega

lemma monitorWorkerPool (hs : s.InLimits C k) (hok : s.Orderly k .monitor)
    (h : s.monitorWorkerPool = some t) : t.InLimits C k := by
  obtain ⟨hn, hok⟩ := hok
  cases hm : s.monitor with
  | waiting => simp [ScalingState.monitorWorkerPool, hm] at h
  | measuring => simp [ScalingState.monitorWorkerPool, hm] at h
  | returned => simp [ScalingState.monitorWorkerPool, hm] at h
  | shrinking target =>
    simp only [ScalingState.monitorWorkerPool, hm] at h
    cases h
    simp only [hm] at hok
    exact hs.store (by rw [hm]; rfl) hok
  | starting nextID left target =>
    simp only [ScalingState.monitorWorkerPool, hm] at h
    cases h
    refine hs.congr rfl ?_ ?_ ((leaving_start s nextID).trans_le hs.leaving) hs.swaps
    · rw [hm]
      rfl
    · change (s.start nextID).staying + s.owed + left = s.staying + s.owed + s.monitor.owed
      rw [staying_start, hm]
      change _ = s.staying + s.owed + (left + 1)
      omega
  | adding left target =>
    cases left with
    | zero =>
      simp only [ScalingState.monitorWorkerPool, hm] at h
      cases h
      have hcounted := hs.counted
      unfold demand at hcounted
      rw [hm] at hcounted
      refine hs.store (by rw [hm]; rfl) ?_
      change ((s.staying + s.owed + 0 : Nat) + k : Int) ≤ target at hcounted
      omega
    | succ left =>
      simp only [ScalingState.monitorWorkerPool, hm] at h
      cases h
      refine (hs.increment hn).setMonitor ?_ ?_
      · change left + 1 = s.monitor.owed
        rw [hm]
        rfl
      · change target = s.monitor.goal s.increment.numWorkers
        rw [hm]
        rfl

section QuickScaleUp

variable {i : Nat} {pc pc' : QuickScaleUpPc}

lemma swaps_setQuick (hs : s.InLimits C k) (hswap : SwapInLimits C pc') :
    ∀ q ∈ (s.setQuick i pc').quickScaleUps, SwapInLimits C q := by
  intro q hq
  obtain hq | rfl := List.mem_or_eq_of_mem_set hq
  · exact hs.swaps q hq
  · exact hswap

lemma setQuick (hs : s.InLimits C k) (hpc : s.quickScaleUps[i]? = some pc)
    (howed : pc'.owed = pc.owed) (hswap : SwapInLimits C pc') :
    (s.setQuick i pc').InLimits C k := by
  have hdemand := demand_setQuick hpc pc'
  exact hs.congr rfl rfl (by omega) hs.leaving (hs.swaps_setQuick hswap)

/-- The swap adds to the counter the number of the workers that are then to be started. -/
lemma swap (hs : s.InLimits C k) {current target : Int}
    (hpc : s.quickScaleUps[i]? = some (.swapping current target))
    (hgrows : s.monitor.grows = false) (hcurrent : s.numWorkers = int32 current) :
    { s.setQuick i (.locking (target - current).toNat) with
      numWorkers := int32 target }.InLimits C k := by
  obtain ⟨hpos, hlt, hmax, hfits⟩ := hs.swaps _ (List.mem_of_getElem? hpc)
  rw [int32_eq (by omega) (by omega)] at hcurrent
  rw [int32_eq (by omega) hfits]
  have hdemand : (s.setQuick i (.locking (target - current).toNat)).demand + 0 =
      s.demand + (target - current).toNat := demand_setQuick hpc _
  have hcounted := hs.counted
  rw [MonitorPc.goal_of_not_grows hgrows] at hcounted
  have hle : ((s.setQuick i (.locking (target - current).toNat)).demand + k : Int) ≤ target := by
    omega
  refine { hs with nonneg := ?_, counted := ?_, bounded := ?_, swaps := hs.swaps_setQuick trivial }
  · change 0 ≤ target
    omega
  · change _ ≤ s.monitor.goal target
    rw [MonitorPc.goal_of_not_grows hgrows]
    exact hle
  · exact Int.le_trans hle hmax

lemma quickScaleUp (hs : s.InLimits C k) (hpc : s.quickScaleUps[i]? = some pc)
    (hn : 6 * s.numWorkers < 5 * 2 ^ 31)
    (hok : s.monitor.grows = false ∨ pc.swaps s.numWorkers = false)
    (h : s.quickScaleUp C i pc = some t) : t.InLimits C k := by
  cases pc with
  | loading =>
    cases h
    obtain ⟨howed, hswap⟩ := quickScaleUpTarget_spec C hs.nonneg hn
    exact hs.setQuick hpc howed hswap
  | swapping current target =>
    simp only [ScalingState.quickScaleUp] at h
    split at h <;> cases h
    · next hcurrent =>
      have hgrows := hok.resolve_right (by simp [QuickScaleUpPc.swaps, hcurrent])
      exact hs.swap hpc hgrows hcurrent
    · exact hs.setQuick hpc rfl trivial
  | locking left =>
    simp only [ScalingState.quickScaleUp] at h
    split at h <;> cases h
    refine { hs.setQuick hpc ?_ ?_ with }
    · change (if left < batchSize then left else batchSize) +
        (left - if left < batchSize then left else batchSize) = left
      split <;> omega
    · trivial
  | adding batch left =>
    cases batch with
    | zero =>
      cases h
      refine { hs.setQuick hpc ?_ ?_ with }
      · change _ = 0 + left
        split
        · exact (Nat.zero_add left).symm
        · change 0 = 0 + left
          omega
      · split <;> trivial
    | succ batch =>
      cases h
      exact (hs.increment hn).setQuick hpc rfl trivial
  | starting nextID batch left =>
    cases h
    have hdemand := demand_setQuick (s := s.start nextID) hpc (.adding batch left)
    rw [demand_start] at hdemand
    simp only [QuickScaleUpPc.owed] at hdemand
    exact hs.congr rfl rfl (by omega) ((leaving_start s nextID).trans_le hs.leaving)
      (hs.swaps_setQuick trivial)
  | returned => cases h

end QuickScaleUp

lemma step (hs : s.InLimits C k) {a : ScalingAction} (ha : a.scales = true)
    (hok : s.Orderly k a) (h : scalingStep F C s a = some t) : t.InLimits C k := by
  cases a with
  | worker w =>
    obtain ⟨x, hx, hstep⟩ := Option.bind_eq_some_iff.mp h
    exact hs.serverWorker hx hok.1 (hok.2.imp_right fun hall => hall x hx) hstep
  | tick =>
    simp only [scalingStep] at h
    split at h <;> cases h
    next hm =>
    refine hs.setMonitor ?_ ?_ <;> rw [hm] <;> split <;> rfl
  | reading r =>
    simp only [scalingStep] at h
    split at h <;> cases h
    next hm => exact hs.reading hok.1 hm r
  | monitor => exact hs.monitorWorkerPool hok h
  | callQuickScaleUp =>
    cases h
    refine hs.congr rfl rfl ?_ hs.leaving fun pc hpc => ?_
    · have howed : tally (fun _ pc => pc.owed) (s.quickScaleUps ++ [.loading]) = s.owed :=
        tally_append _ _ _
      change s.staying + tally (fun _ pc => pc.owed) (s.quickScaleUps ++ [.loading]) + _ = _
      rw [howed]
      rfl
    · obtain hpc | hpc := List.mem_append.mp hpc
      · exact hs.swaps pc hpc
      · rw [List.mem_singleton.mp hpc]
        trivial
  | quickScaleUp i =>
    obtain ⟨pc, hpc, hstep⟩ := Option.bind_eq_some_iff.mp h
    exact hs.quickScaleUp hpc hok.1 (hok.2.imp_right fun hall => hall pc hpc) hstep
  | exit w => cases ha
  | panic w => cases ha
  | replacement i => cases ha
  | startShutdown => cases ha
  | closeChannel => cases ha

end InLimits

lemma staying_serverWorker {w : Nat} {x : ScaledWorker} (hx : s.workers[w]? = some x)
    (h : s.serverWorker w x.pc = some t) : t.staying = s.staying := by
  obtain ⟨id, pc⟩ := x
  cases pc with
  | polling completed =>
    simp only [serverWorker] at h
    split at h <;> cases h
    · have hset := staying_setWorker hx (.polling (completed + 1))
      simp only [ScaledWorkerPc.stays] at hset
      omega
    · have hset : (s.increment.setWorker w (.creating s.nextID)).staying + 1 = s.staying + 1 :=
        staying_setWorker (s := s.increment) hx (.creating s.nextID)
      omega
  | creating nextID =>
    cases h
    have hset := staying_setWorker hx .leaving
    simp only [ScaledWorkerPc.stays] at hset
    rw [staying_start]
    omega
  | leaving =>
    cases h
    have hset := staying_setWorker hx .returned
    simp only [ScaledWorkerPc.stays] at hset
    omega
  | returned => cases h

lemma staying_monitorWorkerPool (h : s.monitorWorkerPool = some t) : s.staying ≤ t.staying := by
  unfold monitorWorkerPool at h
  split at h <;> cases h
  · exact Nat.le_refl _
  · exact Nat.le_of_lt (staying_start s _).ge
  · exact Nat.le_refl _
  · exact Nat.le_refl _

lemma staying_quickScaleUp {i : Nat} {pc : QuickScaleUpPc} (h : s.quickScaleUp C i pc = some t) :
    s.staying ≤ t.staying := by
  unfold quickScaleUp at h
  split at h
  · cases h
    exact Nat.le_refl _
  · split at h <;> cases h <;> exact Nat.le_refl _
  · split at h <;> cases h
    exact Nat.le_refl _
  · cases h
    exact Nat.le_refl _
  · cases h
    exact Nat.le_of_lt (staying_start s _).ge
  · cases h
    exact Nat.le_refl _
  · cases h

/-- No step of a running pool ends a worker that has not started its successor. -/
lemma staying_le_step {a : ScalingAction} (ha : a.scales = true) (h : scalingStep F C s a = some t) :
    s.staying ≤ t.staying := by
  cases a with
  | worker w =>
    obtain ⟨x, hx, hstep⟩ := Option.bind_eq_some_iff.mp h
    exact (staying_serverWorker hx hstep).ge
  | tick =>
    simp only [scalingStep] at h
    split at h <;> cases h
    exact Nat.le_refl _
  | reading r =>
    simp only [scalingStep] at h
    split at h <;> cases h
    exact Nat.le_refl _
  | monitor => exact staying_monitorWorkerPool h
  | callQuickScaleUp =>
    cases h
    exact Nat.le_refl _
  | quickScaleUp i =>
    obtain ⟨pc, -, hstep⟩ := Option.bind_eq_some_iff.mp h
    exact staying_quickScaleUp hstep
  | exit w => cases ha
  | panic w => cases ha
  | replacement i => cases ha
  | startShutdown => cases ha
  | closeChannel => cases ha

lemma tally_fresh {ws : List ScaledWorker} (h : ∀ x ∈ ws, x.pc = .polling 0) :
    tally (fun _ x => x.pc.stays) ws = ws.length ∧ tally (fun _ x => x.pc.leaves) ws = 0 := by
  induction ws with
  | nil => exact ⟨rfl, rfl⟩
  | cons x ws ih =>
    obtain ⟨hstays, hleaves⟩ := ih fun y hy => h y (List.mem_cons_of_mem x hy)
    rw [tally_cons, tally_cons, hstays, hleaves, h x List.mem_cons_self, List.length_cons]
    exact ⟨Nat.add_comm _ _, rfl⟩

lemma staying_initFunctionWorkerPool (C : ScalingConfig) :
    (initFunctionWorkerPool C).staying = C.minWorkerPoolSize.toNat := by
  obtain ⟨ws, hlen, hpc, hinit⟩ := initFunctionWorkerPool_eq C
  rw [hinit, ← hlen]
  exact (tally_fresh hpc).1

lemma inLimits_initFunctionWorkerPool (hk : k ≤ C.minWorkerPoolSize)
    (hmax : C.minWorkerPoolSize + k ≤ C.maxWorkerPoolSize)
    (hfits : 2 * C.minWorkerPoolSize < 2 ^ 31) : (initFunctionWorkerPool C).InLimits C k := by
  have hstaying := staying_initFunctionWorkerPool C
  obtain ⟨ws, hlen, hpc, hinit⟩ := initFunctionWorkerPool_eq C
  rw [int32_eq (by omega) (by omega)] at hinit
  have hdemand : (initFunctionWorkerPool C).demand = C.minWorkerPoolSize.toNat := by
    unfold demand
    rw [hstaying, hinit]
    rfl
  refine ⟨?_, ?_, ?_, ?_, ?_⟩
  · rw [hinit]
    change 0 ≤ C.minWorkerPoolSize + C.minWorkerPoolSize.toNat
    omega
  · rw [hdemand, hinit]
    change _ ≤ C.minWorkerPoolSize + C.minWorkerPoolSize.toNat
    omega
  · omega
  · rw [hinit]
    change tally _ ws ≤ k
    rw [(tally_fresh hpc).2]
    exact Nat.zero_le k
  · rw [hinit]
    simp

end ScalingState

namespace Proofs

/-- While the server runs there are never fewer workers than the minimum. There are never more than
the maximum in a run that keeps `k` places free, where `k` is a number of places that the
configuration has. -/
theorem live_workers_in_limits (F : FloatToInt32) (C : ScalingConfig) (acts : List ScalingAction)
    (s : ScalingState) (hacts : ∀ a ∈ acts, a.scales = true)
    (hrun : exec (scalingStep F C) (.initFunctionWorkerPool C) acts = some s) :
    C.minWorkerPoolSize ≤ s.liveWorkers.length ∧
    ∀ k : Nat, k ≤ C.minWorkerPoolSize → C.minWorkerPoolSize + k ≤ C.maxWorkerPoolSize →
      2 * C.minWorkerPoolSize < 2 ^ 31 →
      Guarded (scalingStep F C) (ScalingState.Orderly k) (.initFunctionWorkerPool C) acts →
      s.liveWorkers.length ≤ C.maxWorkerPoolSize := by
  have hscales : Guarded (scalingStep F C) (fun _ a => a.scales = true)
      (.initFunctionWorkerPool C) acts := guarded_of_mem fun a ha _ => hacts a ha
  rw [ScalingState.length_liveWorkers]
  refine ⟨?_, fun k hk hmax hfits hg => ?_⟩
  · have hle : C.minWorkerPoolSize.toNat ≤ s.staying :=
      exec_invariant_guarded (fun t => C.minWorkerPoolSize.toNat ≤ t.staying)
        (fun _ _ _ hs ha h => hs.trans (ScalingState.staying_le_step ha h))
        (ScalingState.staying_initFunctionWorkerPool C).ge hscales hrun
    omega
  · have hs : s.InLimits C k :=
      exec_invariant_guarded (ScalingState.InLimits C k)
        (fun _ _ _ hs hok h => hs.step hok.1 hok.2 h)
        (ScalingState.inLimits_initFunctionWorkerPool hk hmax hfits) (hscales.and hg) hrun
    have hbounded := hs.bounded
    have hleaving := hs.leaving
    unfold ScalingState.demand at hbounded
    omega

def roomyPool : ScalingConfig := ⟨5, 20, by decide⟩

/-- The monitor adds two workers and then `quickScaleUp` two more, and the monitor lowers the
counter to 12. -/
def growAndShrink : List ScalingAction :=
  [.tick, .reading .high, .monitor, .monitor, .monitor, .monitor, .monitor,
   .callQuickScaleUp, .quickScaleUp 0, .quickScaleUp 0, .quickScaleUp 0, .quickScaleUp 0,
   .quickScaleUp 0, .quickScaleUp 0, .quickScaleUp 0, .quickScaleUp 0,
   .tick, .reading .low, .worker 0, .monitor]

theorem live_workers_in_limits_growAndShrink : ∃ s,
    exec (scalingStep .wrapping roomyPool) (.initFunctionWorkerPool roomyPool) growAndShrink =
      some s ∧ s.Settled ∧ s.numWorkers = 12 ∧
    5 ≤ s.liveWorkers.length ∧ s.liveWorkers.length ≤ 20 := by
  have hrun : ∃ s ∈ exec (scalingStep .wrapping roomyPool) (.initFunctionWorkerPool roomyPool)
      growAndShrink, s.Settled ∧ s.numWorkers = 12 := by
    decide +kernel
  have hguarded : Guarded (scalingStep .wrapping roomyPool) (ScalingState.Orderly 3)
      (.initFunctionWorkerPool roomyPool) growAndShrink := by
    decide +kernel
  obtain ⟨s, hs, hsettled, hnum⟩ := hrun
  obtain ⟨hlow, hhigh⟩ :=
    live_workers_in_limits .wrapping roomyPool growAndShrink s (by decide) hs
  have hle := hhigh 3 (by decide) (by decide) (by decide) hguarded
  exact ⟨s, hs, hsettled, hnum, Int.ofNat_le.mp hlow, Int.ofNat_le.mp hle⟩

def narrowPool : ScalingConfig := ⟨5, 6, by decide⟩

/-- Lowering the counter ends no worker, so each time the load changes from low to high the monitor
adds another: seven workers, where six are allowed. -/
theorem live_workers_beyond_limit :
    ∃ s ∈ exec (scalingStep .wrapping narrowPool) (.initFunctionWorkerPool narrowPool)
      [.tick, .reading .low, .monitor, .tick, .reading .low, .monitor, .tick, .reading .low,
       .monitor, .tick, .reading .high, .monitor, .monitor, .monitor, .tick, .reading .low,
       .monitor, .tick, .reading .high, .monitor, .monitor, .monitor],
      s.Settled ∧ s.numWorkers = 6 ∧ s.liveWorkers.length = 7 := by
  decide +kernel

end Proofs

end Zrpc
