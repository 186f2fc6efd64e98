import Zrpc.Proofs.ClientUsable

/-!
# Heartbeats

`sendHeartbeat` sends a `Call` without a request, and the codec does not marshal nil. So a heartbeat
never writes a frame, and it closes each connection that it has found healthy.
-/

namespace Zrpc.Proofs

open Zrpc.Lib

variable {V T : Type}

/-! ### Who sends -/

section Steps

variable {cfg : ClientConfig V T} {s : ClientShared} {id p c : Nat} {inp : Input} {r : SentRequest}

lemma threadStep_send {th th' : Thread T}
    (h : threadStep cfg s id th inp = some (.send c r, th')) :
    r.sender = id ∧ ((∃ t, th = .invoke t) ∨ ∃ pc, th = .heartbeat pc ∧ pc.sends = true) := by
  cases threadStep_source h with
  | write _ hth => exact ⟨rfl, hth⟩
  | own hop _ _ | get hop _ _ | put hop _ _ | health hop _ _ | prewarm hop _ | closer hop _ =>
    cases hop

lemma heartbeatStep_sends {pc pc' : HeartbeatPc} {op : ClientOp}
    (h : heartbeatStep cfg s id pc inp = some (op, pc')) (hpc : pc.sends = false) :
    pc'.sends = false := by
  cases heartbeatStep_move h with
  | other _ _ _ _ hsends _ _ =>
    by_contra hne
    rw [hsends (Bool.eq_true_of_not_eq_false hne)] at hpc
    cases hpc
  | @get _ _ _ out _ _ => cases out <;> rfl
  | @health _ _ _ _ _ healthy _ _ _ _ => cases healthy <;> rfl
  | write _ _ => rfl
  | closeConn _ => rfl
  | @put _ _ _ out _ _ => cases out <;> rfl

lemma heartbeatStep_send {op : ClientOp} {pc' : HeartbeatPc}
    (h : heartbeatStep cfg s id (.send p c) inp = some (op, pc')) :
    op = .nop ∧ pc' = .closeConn p c := by
  cases heartbeatStep_turn h with
  | send => exact ⟨rfl, rfl⟩

lemma invoke_of_threadStep {t : InvokeThread T} {th' : Thread T} {op : ClientOp}
    (h : threadStep cfg s id (.invoke t) inp = some (op, th')) : ∃ t', th' = .invoke t' := by
  cases threadStep_move h
  exact ⟨_, rfl⟩

end Steps

/-! ### Whole runs -/

/-- No heartbeat has got past `prepareMessage`, so every request comes from an Invoke. -/
structure Senders (s : ClientState T) : Prop where
  silent : ∀ pc, Thread.heartbeat pc ∈ s.threads → pc.sends = false
  invokes : ∀ (c : Nat) (k : ClientConn), s.shared.conns[c]? = some k → ∀ r ∈ k.sent,
    ∃ t, s.threads[r.sender]? = some (.invoke t)

section Runs

variable {cfg : ClientConfig V T} {s t : ClientState T} {i : Nat}

lemma silent_run (hs : Senders s) {inp : Input} {th th' : Thread T} {op : ClientOp}
    (hi : s.threads[i]? = some th) (h : threadStep cfg s.shared i th inp = some (op, th'))
    {pc : HeartbeatPc} (hpc : Thread.heartbeat pc ∈ s.threads.set i th' ++ spawned s.shared op) :
    pc.sends = false := by
  rcases List.mem_append.mp hpc with hset | hsp
  · rcases List.mem_or_eq_of_mem_set hset with hold | rfl
    · exact hs.silent pc hold
    · cases threadStep_move h with
      | heartbeat hr => exact heartbeatStep_sends hr (hs.silent _ (List.mem_of_getElem? hi))
  · cases op <;> simp [spawned] at hsp

/-- An Invoke stays one. -/
lemma invoke_run {inp : Input} {th th' : Thread T} {op : ClientOp} {j : Nat} {u : InvokeThread T}
    (hi : s.threads[i]? = some th) (h : threadStep cfg s.shared i th inp = some (op, th'))
    (hj : s.threads[j]? = some (.invoke u)) :
    ∃ u', (s.threads.set i th' ++ spawned s.shared op)[j]? = some (.invoke u') := by
  by_cases hij : i = j
  · subst hij
    cases hi.symm.trans hj
    obtain ⟨u', rfl⟩ := invoke_of_threadStep h
    exact ⟨u', thread_run_self hi⟩
  · exact ⟨u, thread_run_ne hj hij⟩

lemma senders_step {a : ClientAction T} (hs : Senders s) (h : clientStep cfg s a = some t) :
    Senders t := by
  cases clientStep_move h with
  | @run i inp th op th' hi hstep =>
    refine ⟨fun _ hpc => silent_run hs hi hstep hpc, fun c k hk r hr => ?_⟩
    have hsender : ∃ u, s.threads[r.sender]? = some (.invoke u) := by
      revert hr
      refine conn_cases (P := fun k => r ∈ k.sent → ∃ u, s.threads[r.sender]? = some (.invoke u))
        (fun k hk hr => hs.invokes c k hk r hr) (fun _ hr => by cases hr) ?_ hk
      intro k k' _ hold hm hr
      cases hm with
      | same he | mark _ he | read _ he =>
        rw [he] at hr
        exact hold hr
      | close _ he =>
        rw [he, (close_fields k).2.1] at hr
        exact hold hr
      | send hop he =>
        subst hop he
        rcases List.mem_append.mp hr with hmem | hnew
        · exact hold hmem
        · cases List.mem_singleton.mp hnew
          obtain ⟨hid, ⟨u, rfl⟩ | ⟨pc, rfl, hsends⟩⟩ := threadStep_send hstep
          · exact ⟨u, hid ▸ hi⟩
          · rw [hs.silent pc (List.mem_of_getElem? hi)] at hsends
            cases hsends
    obtain ⟨u, hu⟩ := hsender
    exact invoke_run hi hstep hu
  | @answer d _ _ _ k k' hk hans =>
    refine ⟨hs.silent, fun c l hl r hr => ?_⟩
    rcases getElem?_set_cases hl with ⟨rfl, rfl⟩ | ⟨-, hold⟩
    · obtain ⟨_, _, _, _, rfl⟩ := answer_spec hans
      exact hs.invokes d k hk r hr
    · exact hs.invokes c l hold r hr
  | start a =>
    refine ⟨fun pc hpc => ?_, fun c k hk r hr => ?_⟩
    · rcases List.mem_append.mp hpc with hold | hnew
      · exact hs.silent pc hold
      · cases a <;> simp [newThread] at hnew
        rw [hnew]
        rfl
    · obtain ⟨u, hu⟩ := hs.invokes c k hk r hr
      exact ⟨u, thread_start hu⟩

lemma senders_init : Senders (.init : ClientState T) := by
  refine ⟨?_, ?_⟩
  · intro pc hpc
    cases hpc
  · intro c k hk
    cases hk

lemma senders_of_exec {acts : List (ClientAction T)} (h : exec (clientStep cfg) .init acts = some s) :
    Senders s :=
  exec_invariant Senders (fun _ _ _ hs hstep => senders_step hs hstep) senders_init h

/-- The socket of connection `c` is closed. -/
def SockClosed (s : ClientState T) (c : Nat) : Prop :=
  ∃ k, s.shared.conns[c]? = some k ∧ k.sockClosed = true

lemma sockClosed_step {a : ClientAction T} {c : Nat} (hs : SockClosed s c)
    (h : clientStep cfg s a = some t) : SockClosed t c := by
  obtain ⟨k, hk, hsock⟩ := hs
  cases clientStep_move h with
  | @run _ _ _ op _ _ _ =>
    obtain ⟨k', hk', hm⟩ := conn_apply op hk
    exact ⟨k', hk', sockClosed_move hm hsock⟩
  | @answer d _ _ _ l l' hl hans =>
    by_cases hd : d = c
    · subst hd
      cases hk.symm.trans hl
      refine ⟨l', List.getElem?_set_self (List.getElem?_eq_some_iff.mp hk).1, ?_⟩
      rw [(pool_answer hans).2.2]
      exact hsock
    · exact ⟨k, (List.getElem?_set_ne hd).trans hk, hsock⟩
  | start a => exact ⟨k, hk, hsock⟩

/-- The heartbeat in goroutine `i` is about to close connection `c`, or has closed it. -/
def ClosesHealthy (i p c : Nat) (s : ClientState T) : Prop :=
  s.threads[i]? = some (.heartbeat (.send p c)) ∨
    s.threads[i]? = some (.heartbeat (.closeConn p c)) ∨ SockClosed s c

lemma closesHealthy_step {a : ClientAction T} {p c : Nat} (hs : Sound s)
    (hc : ClosesHealthy i p c s) (h : clientStep cfg s a = some t) : ClosesHealthy i p c t := by
  rcases hc with hsend | hclose | hsock
  · cases clientStep_move h with
    | @run j inp th op th' hj hstep =>
      by_cases hji : j = i
      · subst hji
        cases hj.symm.trans hsend
        cases threadStep_move hstep with
        | heartbeat hr =>
          obtain ⟨rfl, rfl⟩ := heartbeatStep_send hr
          exact .inr (.inl (thread_run_self hsend))
      · exact .inl (thread_run_ne hsend hji)
    | answer _ _ => exact .inl hsend
    | start a => exact .inl (thread_start hsend)
  · cases clientStep_move h with
    | @run j inp th op th' hj hstep =>
      by_cases hji : j = i
      · subst hji
        cases hj.symm.trans hclose
        obtain ⟨k, hk⟩ := conn_of_hands hs.owned hclose
          (show (p, c) ∈ (Thread.heartbeat (.closeConn p c)).hands from List.mem_singleton_self _)
        cases threadStep_move hstep with
        | heartbeat hr =>
          cases hr
          refine .inr (.inr ⟨k.close, ?_, sockClosed_close (hs.socks c k hk)⟩)
          simp [ClientShared.apply, ClientShared.onConn, hk]
      · exact .inr (.inl (thread_run_ne hclose hji))
    | answer _ _ => exact .inr (.inl hclose)
    | start a => exact .inr (.inl (thread_start hclose))
  · exact .inr (.inr (sockClosed_step hsock h))

end Runs

/-- What `sendHeartbeat` in goroutine `i` is to leave on a healthy connection `c`: one frame of its
own, an open socket and no unread response. -/
def Harmless (s : ClientState T) (i c : Nat) : Prop :=
  ∃ k, s.shared.conns[c]? = some k ∧ k.sent.countP (fun r => r.sender == i) = 1 ∧
    k.sockClosed = false ∧ k.pos = k.stream.length

/-- A heartbeat that finds its connection healthy writes no frame and closes the connection, which
was open if its pool is not closed. -/
theorem heartbeat_harms (cfg : ClientConfig V T) (before rest : List (ClientAction T))
    (s t : ClientState T) (hs : exec (clientStep cfg) .init before = some s)
    (ht : exec (clientStep cfg) s rest = some t) (i p c : Nat)
    (hi : s.threads[i]? = some (.heartbeat (.send p c)))
    (hdone : t.threads[i]? = some (.heartbeat .done)) :
    ¬ Harmless t i c ∧
      (∀ (d : Nat) (k : ClientConn), t.shared.conns[d]? = some k → ∀ r ∈ k.sent, r.sender ≠ i) ∧
      SockClosed t c ∧
      (Alive s.shared p → ∃ k, s.shared.conns[c]? = some k ∧ OpenConn k) := by
  have hsound := sound_of_exec hs
  have hclosed : SockClosed t c := by
    have hrun : Sound t ∧ ClosesHealthy i p c t :=
      exec_invariant (fun u => Sound u ∧ ClosesHealthy i p c u)
        (fun _ _ _ hu hstep => ⟨sound_step hu.1 hstep, closesHealthy_step hu.1 hu.2 hstep⟩)
        ⟨hsound, .inl hi⟩ ht
    rcases hrun.2 with hsend | hclose | hsock
    · cases hdone.symm.trans hsend
    · cases hdone.symm.trans hclose
    · exact hsock
  refine ⟨?_, ?_, hclosed, ?_⟩
  · rintro ⟨k, hk, _, hopen, _⟩
    obtain ⟨k', hk', hsock⟩ := hclosed
    cases hk.symm.trans hk'
    rw [hopen] at hsock
    cases hsock
  · intro d k hk r hr he
    have hsend := exec_invariant Senders (fun _ _ _ hu hstep => senders_step hu hstep)
      (senders_of_exec hs) ht
    obtain ⟨u, hu⟩ := hsend.invokes d k hk r hr
    rw [he, hdone] at hu
    cases hu
  · intro ha
    have hmem : (p, c) ∈ (Thread.heartbeat (T := T) (.send p c)).hands := List.mem_singleton_self _
    obtain ⟨k, hk⟩ := conn_of_hands hsound.owned hi hmem
    rcases open_of_hands hsound ha hi hmem hk with ho | ⟨_, he⟩
    · exact ⟨k, hk, ho⟩
    · cases he

/-- A heartbeat makes the pool of its target, dials a connection and finds it healthy. -/
def tick : List (ClientAction Unit) :=
  [.heartbeat, .run 0 (.addr (str "s"))] ++ steps 0 8 ++ [.run 0 (.health .fresh)]

/-- The heartbeat sends its `Call` and returns. -/
def tickRest : List (ClientAction Unit) := [.run 0 (.deadline 1000000000)] ++ steps 0 2

theorem heartbeat_harms_tick : ∃ s t,
    exec (clientStep smallClient) .init tick = some s ∧
      exec (clientStep smallClient) s tickRest = some t ∧
      s.threads[0]? = some (.heartbeat (.send 0 0)) ∧ t.threads[0]? = some (.heartbeat .done) ∧
      ¬ Harmless t 0 0 ∧ SockClosed t 0 := by
  have h := heartbeat_harms smallClient tick tickRest _ _ rfl rfl 0 0 0 rfl rfl
  exact ⟨_, _, rfl, rfl, rfl, rfl, h.1, h.2.2.1⟩

theorem tick_not_harmless : ∃ s t,
    exec (clientStep smallClient) .init tick = some s ∧
      exec (clientStep smallClient) s tickRest = some t ∧
      s.threads[0]? = some (.heartbeat (.send 0 0)) ∧ t.threads[0]? = some (.heartbeat .done) ∧
      openConns 0 s.shared = 1 ∧ openConns 0 t.shared = 0 ∧ ¬ Harmless t 0 0 := by
  refine ⟨_, _, rfl, rfl, rfl, rfl, rfl, rfl, ?_⟩
  rintro ⟨k, hk, hsent, _⟩
  cases hk
  cases hsent

end Zrpc.Proofs
