import Zrpc.ClientReuse
import Zrpc.Proofs.ServiceHeartbeat

/-!
# A client is good for one registration

`Unregister` closes the channel that `NewTcpClient` made, and nothing makes a new one. So a second
`Register` starts a loop beside the first, or one that returns at once, and a second `Unregister`
closes the channel again.
-/

namespace Zrpc

open Zrpc.Lib

namespace ReusedClient

/-- The loops that go on: a loop that finds `done` closed returns. -/
def running (s : ReusedClient) : Nat := if s.done then 0 else s.loops.count .selecting

/-- No call has panicked, and one loop runs if the client is registered, and else none. -/
structure Serves (s : ReusedClient) : Prop where
  panicked : s.panicked = false
  running : s.running = if s.registered then 1 else 0

/-- The client is used once: a `Register` on a client that never was registered, and an `Unregister`
of it. -/
def usedOnce (s : ReusedClient) : ReuseAction → Bool
  | .register _ _ _ => s.loops = []
  | .unregister _ _ => !s.done
  | .beat _ _ _ | .stop _ | .registry _ => true

/-- Loops only return when `done` is closed, and it is only closed after a `Register`. -/
structure Started (s : ReusedClient) : Prop where
  open_selecting : s.done = false → ∀ l ∈ s.loops, l = .selecting
  closed_started : s.done = true → s.loops ≠ []
  fields_started : s.fields.unset = false → s.loops ≠ []

/-- What a step does to the channel and the loops, whatever the registry becomes. -/
inductive Move (s : ReusedClient) : ReuseAction → ReusedClient → Prop
  | start {c o now} (r : Registry) : Move s (.register c o now)
      { s with registry := r, fields := c, loops := s.loops ++ [.selecting], registered := true }
  | close {o now} (r : Registry) (hset : s.fields.unset = false) :
      Move s (.unregister o now) { s with registry := r }.closeDone
  | stop {i} (hdone : s.done = true) :
      Move s (.stop i) { s with loops := s.loops.set i .returned }
  | other {a} (r : Registry) (ha : usedOnce s a = true) : Move s a { s with registry := r }

section Step

variable {s t : ReusedClient} {a : ReuseAction}

lemma started_new (r : Registry) : Started (newTcpClient r) := by
  constructor
  · intro _ l hl
    cases hl
  · intro h
    cases h
  · intro h
    cases h

lemma count_selecting (hs : Started s) (h : s.done = false) :
    s.loops.count .selecting = s.loops.length :=
  List.count_eq_length.mpr fun l hl => (hs.open_selecting h l hl).symm

lemma step_move (h : step s a = some t) : Move s a t := by
  unfold step at h
  split at h
  · cases h
  cases a with
  | register c o now =>
    dsimp only [register] at h
    split at h <;> cases h
    exact .start _
  | unregister o now =>
    dsimp only [unregister] at h
    split at h
    · cases h
    next hset =>
      split at h <;> cases h
      exact .close _ (Bool.eq_false_iff.mpr hset)
  | beat i o now =>
    dsimp only at h
    split at h <;> cases h
    unfold beat
    dsimp only
    split
    · exact .other _ rfl
    · exact .other _ rfl
  | stop i =>
    dsimp only at h
    split at h <;> cases h
    next hstop => exact .stop hstop.2
  | registry op =>
    cases h
    exact .other _ rfl

lemma Started.step (hs : Started s) (h : step s a = some t) : Started t := by
  cases step_move h with
  | start r =>
    refine ⟨fun hdone l hl => ?_, fun _ => by simp, fun _ => by simp⟩
    obtain hold | hnew := List.mem_append.mp hl
    · exact hs.open_selecting hdone l hold
    · exact List.mem_singleton.mp hnew
  | close r hset =>
    have hstarted := hs.fields_started hset
    unfold closeDone
    split
    · exact ⟨hs.open_selecting, hs.closed_started, hs.fields_started⟩
    · refine ⟨fun hopen => ?_, fun _ => hstarted, fun _ => hstarted⟩
      cases hopen
  | stop hdone =>
    have hstarted := hs.closed_started hdone
    refine ⟨fun hopen => ?_, fun _ => ?_, fun _ => ?_⟩
    · cases hdone.symm.trans hopen
    · simpa using hstarted
    · simpa using hstarted
  | other r ha => exact ⟨hs.open_selecting, hs.closed_started, hs.fields_started⟩

/-- A `Register` leaves one loop running exactly if it is the first. -/
lemma serves_start_iff (hs : Started s) (hg : Serves s) (r : Registry) (c : Registration) :
    Serves { s with
      registry := r, fields := c, loops := s.loops ++ [.selecting], registered := true } ↔
      s.loops = [] := by
  constructor
  · intro hg'
    have hrun := hg'.running
    simp only [running, if_true, List.count_append, List.count_singleton_self] at hrun
    cases hdone : s.done with
    | true =>
      rw [hdone] at hrun
      cases hrun
    | false =>
      rw [hdone, count_selecting hs hdone] at hrun
      simp only [Bool.false_eq_true, if_false] at hrun
      exact List.length_eq_zero_iff.mp (by omega)
  · intro hnil
    have hdone : s.done = false :=
      Bool.eq_false_iff.mpr fun hdone => hs.closed_started hdone hnil
    refine ⟨hg.panicked, ?_⟩
    simp [running, hdone, hnil]

/-- From a good state, a step leads to a good one exactly if the client is used once. -/
lemma serves_step_iff (hs : Started s) (hg : Serves s) (h : step s a = some t) :
    Serves t ↔ usedOnce s a = true := by
  cases step_move h with
  | start r => rw [serves_start_iff hs hg, usedOnce, decide_eq_true_iff]
  | close r hset =>
    rw [usedOnce]
    cases hdone : s.done with
    | true =>
      refine iff_of_false (fun hg' => ?_) (by simp)
      have hpanic := hg'.panicked
      simp [closeDone] at hpanic
    | false =>
      refine iff_of_true ?_ rfl
      simp only [closeDone, Bool.false_eq_true, if_false]
      exact ⟨hg.panicked, rfl⟩
  | stop hdone =>
    refine iff_of_true ⟨hg.panicked, ?_⟩ rfl
    have hrun := hg.running
    simp only [running, hdone, if_true] at hrun ⊢
    exact hrun
  | other r ha => exact iff_of_true ⟨hg.panicked, hg.running⟩ ha

lemma serves_new (r : Registry) : Serves (newTcpClient r) := ⟨rfl, rfl⟩

end Step

end ReusedClient

namespace Proofs

open ReusedClient

/-- Over any sequence of successful calls, with the loops and the registry going on in between, no
call panics and one loop runs exactly while the client is registered, exactly if the client is
registered only once and unregistered only once. -/
theorem client_reuse_iff (r : Registry) (as : List ReuseAction) (t : ReusedClient)
    (h : exec step (newTcpClient r) as = some t) :
    (∀ bs s, bs <+: as → exec step (newTcpClient r) bs = some s → Serves s) ↔
      Guarded step (fun s a => usedOnce s a = true) (newTcpClient r) as :=
  exec_always_iff_guarded_of_inv Started Serves (fun _ _ _ hs _ h => hs.step h)
    (fun _ _ _ hs hg h => serves_step_iff hs hg h) (started_new r) (serves_new r) h

/-- One registration, a heartbeat, and its end. -/
theorem client_reuse_once :
    (∃ t, exec step (newTcpClient (newRegistry 60))
      [.register serviceAtA .stored 0, .beat 0 .stored 1, .unregister .stored 2, .stop 0] =
        some t) ∧
    ∀ bs s,
      bs <+: [.register serviceAtA .stored 0, .beat 0 .stored 1, .unregister .stored 2, .stop 0] →
      exec step (newTcpClient (newRegistry 60)) bs = some s → Serves s :=
  ⟨⟨_, rfl⟩, (client_reuse_iff (newRegistry 60) _ _ rfl).mpr (by decide +kernel)⟩

/-- After registering again no loop runs, and unregistering again closes the closed channel. -/
theorem client_reuse_twice :
    (∃ s ∈ exec step (newTcpClient (newRegistry 60))
        [.register serviceAtA .stored 0, .unregister .stored 1, .register serviceAtA .stored 2],
      s.registered = true ∧ s.running = 0) ∧
    ∃ s ∈ exec step (newTcpClient (newRegistry 60))
        [.register serviceAtA .stored 0, .unregister .stored 1, .register serviceAtA .stored 2,
          .unregister .stored 3],
      s.panicked = true := by
  decide +kernel

end Proofs

end Zrpc
