import Zrpc.ClientStats
import Zrpc.Proofs.ClientAccounting
import Zrpc.Proofs.ClientClosing

/-!
# Begin and End events of an Invoke

Between the start of an attempt and its end, exactly one Begin has no End. Every exit of the loop
body of `invoke` emits the End but one: a failed `pool.get`.
-/

namespace Zrpc

open Zrpc.Lib

variable {V T : Type}

/-- The program points between the Begin of an attempt and its End. -/
def InvokePc.inAttempt : InvokePc → Bool
  | .top | .unwind _ | .unwindPut _ _ _ | .done _ => false
  | .discover | .lookup _ | .insert _ | .get _ _ | .newCall | .closingCheck | .prepare | .number
  | .write _ | .unregister _ _ | .closeConn _ | .recv | .settle _ | .finish _ | .put _ _ _ => true

/-- The step is the end of a `pool.get` of an Invoke that returns an error. -/
def InvokeThread.getFails (t : InvokeThread T) (s : ClientShared) (inp : Input) : Bool :=
  match t.pc with
  | .get p pc => match getStep s p pc inp with
    | some (_, .failed _) => true
    | _ => false
  | _ => false

def Thread.getFails (s : ClientShared) (inp : Input) : Thread T → Bool
  | .invoke t => t.getFails s inp
  | .heartbeat _ | .prewarm _ _ | .closer _ _ => false

/-- If goroutine `i` is an Invoke, its `pool.get` returns no error in this step. -/
def GetsSucceed (i : Nat) (s : StatsState T) : ClientAction T × Int → Prop
  | (.run j inp, _) => j = i →
      ∀ th ∈ s.client.threads[i]?, Thread.getFails s.client.shared inp th = false
  | (.invoke _ _, _) | (.heartbeat, _) | (.close, _) | (.updateServers _, _)
  | (.answer _ _ _ _, _) => True

instance (i : Nat) (s : StatsState T) : ∀ a, Decidable (GetsSucceed i s a)
  | (.run j _, _) => inferInstanceAs (Decidable (j = i → ∀ th ∈ s.client.threads[i]?, _ = false))
  | (.invoke _ _, _) | (.heartbeat, _) | (.close, _) | (.updateServers _, _)
  | (.answer _ _ _ _, _) => isTrue trivial

namespace Proofs

/-- The Begin that is open at a program point. -/
def openBegin (pc : InvokePc) (beginTime : Int) : Option Int :=
  if pc.inAttempt then some beginTime else none

section Step

variable {cfg : ClientConfig V T} {s : ClientShared} {id : Nat} {inp : Input}
  {t t' : InvokeThread T} {op : ClientOp}

/-- The event of a step takes the open Begin from the one program point to the other. -/
def Follows (t t' : InvokeThread T) (beginTime now : Int) : Prop :=
  scan (openBegin t.pc beginTime) ((t.event t' beginTime now).toList.map RPCStats.bracket) =
    some (openBegin t'.pc (t.newBeginTime t' beginTime now))

/-- A step within an attempt, or outside of one, that emits no Begin and no End. -/
lemma follows_quiet {beginTime now : Int} (hpc : t.pc.inAttempt = t'.pc.inAttempt)
    (htop : t.pc ≠ .top)
    (hevent : ∀ e, t.event t' beginTime now = some e → e.bracket = .neutral) :
    Follows t t' beginTime now := by
  have htime : t.newBeginTime t' beginTime now = beginTime := by
    unfold InvokeThread.newBeginTime
    split
    · next hp _ => exact absurd hp htop
    · rfl
  rw [Follows, htime, openBegin, openBegin, hpc]
  cases he : t.event t' beginTime now with
  | none => rfl
  | some e =>
    simp only [Option.toList_some, List.map_cons, List.map_nil, hevent e he]
    rfl

/-- A step that leaves the attempt with an End. -/
lemma follows_end {beginTime now : Int} {err : Option GoString} (hpc : t.pc.inAttempt = true)
    (hpc' : t'.pc.inAttempt = false)
    (hevent : t.event t' beginTime now = some (.End beginTime now err)) :
    Follows t t' beginTime now := by
  rw [Follows, hevent, openBegin, openBegin, if_pos hpc, hpc']
  simp [RPCStats.bracket, scan]

/-- The deferred put of `recvMsg` is part of the attempt. -/
lemma follows_startPut {result : Except GoString Message} (h : t.startPut result = some t')
    (hpc : t.pc.inAttempt = true) (beginTime now : Int)
    (hevent : ∀ e, t.event t' beginTime now = some e → e.bracket = .neutral) :
    Follows t t' beginTime now := by
  obtain ⟨-, p, g, hput⟩ := startPut_put h
  refine follows_quiet (by rw [hpc, hput]; rfl) (fun htop => ?_) hevent
  rw [htop] at hpc
  cases hpc

lemma follows_get {p : Nat} {pc : GetPc} (hpc : t.pc = .get p pc) (hpc' : t'.pc.inAttempt = true)
    (beginTime now : Int) : Follows t t' beginTime now := by
  refine follows_quiet (by rw [hpc, hpc']; rfl) (by rw [hpc]; simp) fun e he => ?_
  simp [InvokeThread.event, hpc] at he

lemma follows_put {p : Nat} {pc : PutPc} {result : Except GoString Message}
    (hpc : t.pc = .put p pc result) (beginTime now : Int) :
    Follows t (t.afterPut result) beginTime now := by
  cases result with
  | ok res => exact follows_end (by rw [hpc]; rfl) rfl (by simp only [InvokeThread.event, hpc]; rfl)
  | error err =>
    exact follows_end (by rw [hpc]; rfl) rfl (by simp only [InvokeThread.event, hpc]; rfl)

lemma follows_step (h : invokeStep cfg s id t inp = some (op, t')) (hget : t.getFails s inp = false)
    (beginTime now : Int) : Follows t t' beginTime now := by
  obtain ⟨validMethod, replyType, retry, lastErr, cells, pc⟩ := t
  cases invokeStep_turn h with
  | attempt | cancelled | exhausted => rfl
  | undiscovered | misnamed | refused => exact follows_end rfl rfl rfl
  | closeConn hcells =>
    obtain rfl : cells = _ := hcells
    exact follows_end rfl rfl rfl
  | discovered | found | missing | insert | named | admitted | prepared | unprepared | unnumbered
  | unwritten | unregister | recv | settled | unwound =>
    exact follows_quiet rfl (by simp) (by rintro e ⟨⟩)
  | number | write => exact follows_quiet rfl (by simp) (by rintro e ⟨⟩; rfl)
  | @get _ _ _ out hg =>
    cases out with
    | next g => exact follows_get rfl rfl beginTime now
    | got c => exact follows_get rfl rfl beginTime now
    | failed err => simp [InvokeThread.getFails, hg] at hget
  | unreceived _ _ _ _ _ hput | unsettled _ _ hput =>
    exact follows_startPut hput rfl beginTime now (by rintro e ⟨⟩)
  | finish hput =>
    refine follows_startPut hput rfl beginTime now fun e he => ?_
    simp only [InvokeThread.event] at he
    split at he <;> cases he
    rfl
  | @put _ _ result _ out =>
    cases out with
    | some g =>
      refine follows_quiet rfl (by simp) ?_
      cases result <;> rintro e ⟨⟩
    | none => exact follows_put rfl beginTime now
  | @unwind _ cell =>
    refine follows_quiet ?_ (by simp) (by rintro e ⟨⟩)
    cases cell.connReleased <;> rfl
  | @unwindPut _ _ _ _ out =>
    cases out <;> exact follows_quiet rfl (by simp) (by rintro e ⟨⟩)

end Step

/-! ## What a handler sees -/

/-- Each handler gets each event once. -/
lemma seen_handleRPC {handlers sh : Nat} (hsh : sh < handlers) (event : Option RPCStats) :
    ((handleRPC handlers event).filter (·.1 = sh)).map (·.2) = event.toList := by
  cases event with
  | none => rfl
  | some e =>
    have hone : (List.range handlers).filter (· = sh) = [sh] := by
      rw [List.filter_eq, List.count_eq_one_of_mem List.nodup_range (List.mem_range.mpr hsh)]
      rfl
    have hfilter : ((fun p : Nat × RPCStats => decide (p.1 = sh)) ∘ fun sh' => (sh', e)) =
        fun sh' => decide (sh' = sh) := rfl
    rw [handleRPC, List.filter_map, hfilter, hone]
    rfl

section Run

variable {cfg : ClientConfig V T} {handlers i sh : Nat} {s s' : StatsState T}

/-- The events of goroutine `i` at one handler, and the Begin they leave open. -/
def Tracked (i sh : Nat) (s : StatsState T) : Prop :=
  match s.client.threads[i]? with
  | none => s.calls i = []
  | some (.invoke t) => ∃ last, scan none ((s.seen i sh).map RPCStats.bracket) = some last ∧
      (last = openBegin t.pc (s.beginTime i) ∨
        s.client.shared.panicked = true ∧ ∀ result, t.pc ≠ .done result)
  | some (.heartbeat _) | some (.prewarm _ _) | some (.closer _ _) => True

lemma tracked_init : Tracked i sh (.init : StatsState T) := rfl

lemma not_panicked_of_step {u u' : ClientState T} {a : ClientAction T}
    (h : clientStep cfg u a = some u') : u.shared.panicked = false := by
  unfold clientStep at h
  split at h
  · cases h
  · next hp => exact Bool.eq_false_of_not_eq_true hp

/-- A step of others: goroutine `i` stands where it stood, or has just started. -/
lemma tracked_of_frame (hs : Tracked i sh s) (hpanicked : s.client.shared.panicked = false)
    (hcalls : s'.calls i = s.calls i) (htime : s'.beginTime i = s.beginTime i)
    (hthread : ∀ th, s'.client.threads[i]? = some th → s.client.threads[i]? = some th ∨
      s.client.threads[i]? = none ∧ ∀ t, th = .invoke t → t.pc = .top)
    (hnone : s'.client.threads[i]? = none → s.client.threads[i]? = none) : Tracked i sh s' := by
  have hseen : s'.seen i sh = s.seen i sh := by rw [StatsState.seen, hcalls, StatsState.seen]
  unfold Tracked at hs ⊢
  cases hth' : s'.client.threads[i]? with
  | none =>
    rw [hnone hth'] at hs
    exact hcalls.trans hs
  | some th =>
    cases th with
    | invoke t =>
      obtain hth | ⟨hth, htop⟩ := hthread _ hth'
      · simp only [hth] at hs
        obtain ⟨last, hscan, hlast | ⟨hpanic, -⟩⟩ := hs
        · exact ⟨last, hseen ▸ hscan, .inl (htime ▸ hlast)⟩
        · rw [hpanicked] at hpanic
          cases hpanic
      · simp only [hth] at hs
        refine ⟨none, ?_, .inl ?_⟩
        · rw [hseen, StatsState.seen, hs]
          rfl
        · rw [htop t rfl]
          rfl
    | heartbeat pc => trivial
    | prewarm p pc => trivial
    | closer kind pc => trivial

lemma newThread_top {a : ClientAction T} {th : Thread T} (h : th ∈ newThread a)
    {t : InvokeThread T} (ht : th = .invoke t) : t.pc = .top := by
  subst ht
  cases a <;> simp [newThread] at h
  rw [h]

lemma spawned_not_invoke {shared : ClientShared} {op : ClientOp} {t : InvokeThread T} :
    Thread.invoke t ∉ spawned shared op := by
  unfold spawned
  split <;> simp

/-- A panic stops an Invoke in `pool.put`. -/
lemma not_done_of_panic {shared : ClientShared} {id : Nat} {inp : Input} {t t' : InvokeThread T}
    {op : ClientOp} (hpanicked : shared.panicked = false)
    (h : invokeStep cfg shared id t inp = some (op, t'))
    (hpanic : (shared.apply op).panicked = true) (result : Except GoString Message) :
    t'.pc ≠ .done result := by
  obtain hold | rfl := panicked_apply hpanic
  · rw [hpanicked] at hold
    cases hold
  intro hdone
  cases invokeStep_move h with
  | other hlocal => cases hlocal.op
  | @get p g _ out hpc hget => cases getStep_isGet hget
  | @put p g result' _ out hpc hput =>
    cases out with
    | some pc => cases hdone
    | none => cases result' <;> cases hdone
  | @unwindPut p g result' _ out hpc hput => cases out <;> cases hdone

lemma tracked_invoke {now : Int} {inp : Input} {t t' : InvokeThread T} {op : ClientOp}
    {client : ClientState T} (hsh : sh < handlers) (hs : Tracked i sh s)
    (hpanicked : s.client.shared.panicked = false) (ht : s.client.threads[i]? = some (.invoke t))
    (ht' : client.threads[i]? = some (.invoke t'))
    (hshared : client.shared = s.client.shared.apply op)
    (hstep : invokeStep cfg s.client.shared i t inp = some (op, t'))
    (hget : t.getFails s.client.shared inp = false) :
    Tracked i sh {
      client := client
      beginTime := Function.update s.beginTime i (t.newBeginTime t' (s.beginTime i) now)
      calls := Function.update s.calls i (s.calls i ++ handleRPC handlers
        (if client.shared.panicked then none else t.event t' (s.beginTime i) now)) } := by
  have hopen : scan none ((s.seen i sh).map RPCStats.bracket) =
      some (openBegin t.pc (s.beginTime i)) := by
    simp only [Tracked, ht] at hs
    obtain ⟨last, hscan, rfl | ⟨hpanic, -⟩⟩ := hs
    · exact hscan
    · rw [hpanicked] at hpanic
      cases hpanic
  simp only [Tracked, ht', StatsState.seen, Function.update_self, List.filter_append,
    List.map_append, seen_handleRPC hsh, scan_append]
  simp only [StatsState.seen] at hopen
  rw [hopen, Option.bind_some]
  cases hpanic : client.shared.panicked with
  | true =>
    refine ⟨_, rfl, .inr ⟨rfl, ?_⟩⟩
    exact not_done_of_panic hpanicked hstep (hshared ▸ hpanic)
  | false =>
    exact ⟨_, follows_step hstep hget (s.beginTime i) now, .inl rfl⟩

/-- Goroutine `i` while goroutine `j` takes a step. -/
lemma thread_frame_run (threads : List (Thread T)) (shared : ClientShared) (op : ClientOp)
    (th' : Thread T) {j : Nat} (hne : j ≠ i) :
    (∀ x, (threads.set j th' ++ spawned shared op)[i]? = some x → threads[i]? = some x ∨
      threads[i]? = none ∧ ∀ t, x = .invoke t → t.pc = .top) ∧
    ((threads.set j th' ++ spawned shared op)[i]? = none → threads[i]? = none) := by
  cases hi : threads[i]? with
  | some y =>
    have hsame : (threads.set j th' ++ spawned shared op)[i]? = some y := thread_run_ne hi hne
    rw [hsame]
    exact ⟨fun x hx => .inl hx, fun h => by cases h⟩
  | none =>
    refine ⟨fun x hx => .inr ⟨rfl, ?_⟩, fun _ => rfl⟩
    rintro t rfl
    obtain ⟨hij, -⟩ | ⟨-, hold⟩ | hnew := thread_of_run hx
    · exact absurd hij.symm hne
    · rw [hi] at hold
      cases hold
    · exact absurd hnew spawned_not_invoke

lemma thread_frame_start (threads : List (Thread T)) (a : ClientAction T) (i : Nat) :
    (∀ x, (threads ++ newThread a)[i]? = some x → threads[i]? = some x ∨
      threads[i]? = none ∧ ∀ t, x = .invoke t → t.pc = .top) ∧
    ((threads ++ newThread a)[i]? = none → threads[i]? = none) := by
  cases hi : threads[i]? with
  | some y =>
    rw [thread_start hi]
    exact ⟨fun x hx => .inl hx, fun h => by cases h⟩
  | none =>
    refine ⟨fun x hx => .inr ⟨rfl, fun t ht => ?_⟩, fun _ => rfl⟩
    rw [List.getElem?_append_right (List.getElem?_eq_none_iff.mp hi)] at hx
    exact newThread_top (List.mem_of_getElem? hx) ht

lemma tracked_run {inp : Input} {now : Int} {th th' : Thread T} {op : ClientOp} {j : Nat}
    (hsh : sh < handlers) (hs : Tracked i sh s) (hpanicked : s.client.shared.panicked = false)
    (hok : GetsSucceed i s (.run j inp, now)) (hj : s.client.threads[j]? = some th)
    (hstep : threadStep cfg s.client.shared j th inp = some (op, th'))
    (hclient : clientStep cfg s.client (.run j inp) = some
      ⟨s.client.shared.apply op, s.client.threads.set j th' ++ spawned s.client.shared op⟩)
    (h : statsStep cfg handlers s (.run j inp, now) = some s') : Tracked i sh s' := by
  have hself : (s.client.threads.set j th' ++ spawned s.client.shared op)[j]? = some th' :=
    thread_run_self hj
  simp only [statsStep, hclient, hj, hself] at h
  by_cases hij : j = i
  · subst hij
    cases threadStep_move hstep with
    | invoke hinv =>
      cases h
      exact tracked_invoke hsh hs hpanicked hj hself rfl hinv (hok rfl _ hj)
    | heartbeat _ =>
      cases h
      simp only [Tracked, hself]
    | prewarm _ =>
      cases h
      simp only [Tracked, hself]
    | closer _ =>
      cases h
      simp only [Tracked, hself]
  · obtain ⟨hthread, hnone⟩ := thread_frame_run s.client.threads s.client.shared op th' hij
    split at h <;> cases h
    · exact tracked_of_frame hs hpanicked (Function.update_of_ne (Ne.symm hij) _ _)
        (Function.update_of_ne (Ne.symm hij) _ _) hthread hnone
    · exact tracked_of_frame hs hpanicked rfl rfl hthread hnone

lemma tracked_step {a : ClientAction T × Int} (hsh : sh < handlers) (hs : Tracked i sh s)
    (hok : GetsSucceed i s a) (h : statsStep cfg handlers s a = some s') : Tracked i sh s' := by
  obtain ⟨a, now⟩ := a
  obtain ⟨client, hclient⟩ : ∃ client, clientStep cfg s.client a = some client := by
    unfold statsStep at h
    split at h
    · cases h
    · next client hclient => exact ⟨client, hclient⟩
  have hpanicked := not_panicked_of_step hclient
  cases a with
  | run j inp =>
    obtain ⟨th, op, th', hj, hth, rfl⟩ := clientStep_run hclient
    exact tracked_run hsh hs hpanicked hok hj hth hclient h
  | answer c request header body =>
    simp only [statsStep, hclient] at h
    cases h
    have hthreads : client.threads = s.client.threads := by
      cases clientStep_move hclient with
      | answer hk hans => rfl
      | start => exact List.append_nil _
    refine tracked_of_frame hs hpanicked rfl rfl (fun th hth => ?_) fun hnone => ?_
    · exact .inl (hthreads ▸ hth)
    · exact hthreads ▸ hnone
  | invoke validMethod replyType | heartbeat | close | updateServers servers =>
    simp only [statsStep, hclient] at h
    cases h
    obtain ⟨hthread, hnone⟩ := thread_frame_start s.client.threads _ i
    cases clientStep_move hclient
    exact tracked_of_frame hs hpanicked rfl rfl hthread hnone

end Run

/-- In a run in which no `pool.get` of an Invoke returns an error, each stats handler sees from that
Invoke for every Begin exactly one End with the same BeginTime, before the next Begin and before
the Invoke returns. -/
theorem stats_bracketed (cfg : ClientConfig V T) (handlers i : Nat)
    (acts : List (ClientAction T × Int)) (s : StatsState T)
    (hrun : exec (statsStep cfg handlers) .init acts = some s)
    (hgets : Guarded (statsStep cfg handlers) (GetsSucceed i) .init acts)
    (sh : Nat) (hsh : sh < handlers) (t : InvokeThread T)
    (ht : s.client.threads[i]? = some (.invoke t)) :
    Bracketed ((s.seen i sh).map RPCStats.bracket) (∃ result, t.pc = .done result) := by
  have hs : Proofs.Tracked i sh s :=
    exec_invariant_guarded (Proofs.Tracked i sh)
      (fun _ _ _ hs hok h => Proofs.tracked_step hsh hs hok h) Proofs.tracked_init hgets hrun
  simp only [Proofs.Tracked, ht] at hs
  obtain ⟨last, hscan, hlast⟩ := hs
  refine bracketed_of_scan hscan ?_
  rintro ⟨result, hdone⟩
  obtain hopen | ⟨-, hrunning⟩ := hlast
  · rw [hopen, hdone]
    rfl
  · exact absurd hdone (hrunning result)

/-- A run whose steps are taken at the times 0, 1, 2 and so on. -/
def clocked (acts : List (ClientAction Unit)) : List (ClientAction Unit × Int) :=
  acts.zipIdx.map fun a => (a.1, a.2)

theorem stats_bracketed_timedOutCall : ∃ (s : StatsState Unit) (t : InvokeThread Unit)
    (result : Except GoString Message),
    exec (statsStep Proofs.smallClient 1) .init (clocked Proofs.timedOutCall) = some s ∧
      s.client.threads[0]? = some (.invoke t) ∧ t.pc = .done result ∧
      Bracketed ((s.seen 0 0).map RPCStats.bracket) (∃ result, t.pc = .done result) :=
  ⟨_, _, _, rfl, rfl, rfl, stats_bracketed Proofs.smallClient 1 0 (clocked Proofs.timedOutCall) _ rfl
    (by decide +kernel) 0 (by decide) _ rfl⟩

/-- An Invoke whose pool can neither dial nor wait for a connection. -/
def noConnection : List (ClientAction Unit) :=
  [.invoke true ()] ++ Proofs.findPool 0 ++ Proofs.steps 0 4 ++ [.run 0 (.fail [])] ++
    Proofs.steps 0 3 ++ [.run 0 (.fail [])] ++ List.replicate 5 (.run 0 (.fail [])) ++
    Proofs.steps 0 3

/-- Its Begin has no End when the Invoke returns. -/
theorem noConnection_unbracketed : ∃ (s : StatsState Unit) (t : InvokeThread Unit)
    (result : Except GoString Message),
    exec (statsStep Proofs.smallClient 1) .init (clocked noConnection) = some s ∧
      s.client.threads[0]? = some (.invoke t) ∧ t.pc = .done result ∧
      s.seen 0 0 = [.Begin 1] ∧
      ¬Bracketed ((s.seen 0 0).map RPCStats.bracket) (∃ result, t.pc = .done result) := by
  refine ⟨_, _, _, rfl, rfl, rfl, rfl, fun hb => ?_⟩
  obtain ⟨mid, rest, hclosed, -⟩ | ⟨hrunning, -⟩ := hb.closed [] 1 [] rfl
  · cases mid <;> cases hclosed
  · exact hrunning ⟨_, rfl⟩

end Proofs

end Zrpc
