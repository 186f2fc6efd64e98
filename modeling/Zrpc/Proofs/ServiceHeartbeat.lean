import Zrpc.Proofs.TcpClient
import Zrpc.Proofs.TcpRegistry
import Zrpc.ServiceHeartbeat

/-!
# Unregistering a service

`Unregister` is final if it is sent when nothing else of its client is on its way, and if the
`heartbeat` loop sends nothing more.
-/

namespace Zrpc

open Zrpc.Lib

namespace ServiceState

variable {c : Registration} {s t : ServiceState}

/-- The entry of the client's own pair. -/
def ownEntry (c : Registration) (s : ServiceState) : Option ServiceInfo :=
  s.registry.entry c.serviceName c.serviceAddr

/-- `Unregister` is called while the loop is in its `select` and no message is in flight, and the
loop takes no tick from then on, unless that call of `Unregister` has failed. -/
def Orderly (s : ServiceState) : ServiceAction → Prop
  | .callUnregister => s.loop = .waiting ∧ s.flight = []
  | .loopTick => s.unregister = .idle
  | .tick _ | .loopDone | .loopReply _ | .unregisterReply _ | .closeDone | .process _ _ | .lose _
  | .other _ _ | .evict _ _ | .sweep _ => True

instance (s : ServiceState) : ∀ act, Decidable (Orderly s act)
  | .callUnregister => inferInstanceAs (Decidable (_ ∧ _))
  | .loopTick => inferInstanceAs (Decidable (_ = _))
  | .tick _ | .loopDone | .loopReply _ | .unregisterReply _ | .closeDone | .process _ _ | .lose _
  | .other _ _ | .evict _ _ | .sweep _ => isTrue trivial

/-- The loop waits for no reply. -/
def LoopQuiet (s : ServiceState) : Prop := s.loop = .waiting ∨ s.loop = .returned

/-- What is on its way at each point of `Unregister`. -/
def Pending (c : Registration) (s : ServiceState) : Prop :=
  match s.unregister with
  | .idle => True
  | .sent id => s.LoopQuiet ∧
      (s.flight = [(id, c.unregisterCmd)] ∧ (∀ e ∈ s.replies, e.1 ≠ id) ∨
        s.flight = [] ∧ ((∃ e ∈ s.replies, e.1 = id) → s.ownEntry c = none))
  | .closing | .returned => s.LoopQuiet ∧ s.flight = [] ∧ s.ownEntry c = none

structure Inv (c : Registration) (s : ServiceState) : Prop where
  flightIds : ∀ m ∈ s.flight, m.1 < s.sent
  replyIds : ∀ e ∈ s.replies, e.1 < s.sent
  pending : s.Pending c

lemma inv_init (c : Registration) (r : Registry) (now : Int) : (init r now).Inv c where
  flightIds := fun _ hm => absurd hm List.not_mem_nil
  replyIds := fun _ he => absurd he List.not_mem_nil
  pending := trivial

/-- A step that sends and processes nothing of the client, and brings no entry of it. -/
lemma Inv.of_frame (h : s.Inv c) (hflight : t.flight = s.flight) (hreplies : t.replies = s.replies)
    (hsent : t.sent = s.sent) (hunregister : t.unregister = s.unregister)
    (hloop : s.LoopQuiet → t.LoopQuiet) (hentry : s.ownEntry c = none → t.ownEntry c = none) :
    t.Inv c where
  flightIds := by rw [hflight, hsent]; exact h.flightIds
  replyIds := by rw [hreplies, hsent]; exact h.replyIds
  pending := by
    have hp := h.pending
    simp only [Pending, hflight, hreplies, hunregister] at hp ⊢
    cases hu : s.unregister with
    | idle => trivial
    | sent id =>
      simp only [hu] at hp ⊢
      obtain ⟨hquiet, hsent | ⟨hnil, hreply⟩⟩ := hp
      · exact ⟨hloop hquiet, .inl hsent⟩
      · exact ⟨hloop hquiet, .inr ⟨hnil, fun he => hentry (hreply he)⟩⟩
    | closing =>
      simp only [hu] at hp ⊢
      exact ⟨hloop hp.1, hp.2.1, hentry hp.2.2⟩
    | returned =>
      simp only [hu] at hp ⊢
      exact ⟨hloop hp.1, hp.2.1, hentry hp.2.2⟩

lemma entry_none_serve {r : Registry} {o : Orders} {now : Int} {cmd : Request} {n a : GoString}
    (hpair : (cmd.serviceName, cmd.addr) ≠ (n, a)) (h : r.entry n a = none) :
    (r.serve o now cmd).1.entry n a = none := by
  by_contra hsome
  obtain ⟨info, hinfo⟩ := Option.ne_none_iff_exists'.mp hsome
  obtain hbefore | ⟨-, hsame, -⟩ := Registry.entry_serve hinfo
  · rw [h] at hbefore
    cases hbefore
  · exact hpair hsame

lemma entry_serve_unregister (r : Registry) (o : Orders) (now : Int) :
    (r.serve o now c.unregisterCmd).1.entry c.serviceName c.serviceAddr = none := by
  rw [Registry.serve_unregister rfl, Registry.entry_unregister]
  exact if_pos rfl

/-- A message the client sends while no `Unregister` is under way. -/
lemma Inv.of_send (h : s.Inv c) {cmd : Request} (hflight : t.flight = s.flight ++ [(s.sent, cmd)])
    (hreplies : t.replies = s.replies) (hsent : t.sent = s.sent + 1) (hpending : t.Pending c) :
    t.Inv c where
  flightIds := by
    intro m hm
    rw [hflight] at hm
    rw [hsent]
    obtain hold | hnew := List.mem_append.mp hm
    · exact Nat.lt_succ_of_lt (h.flightIds m hold)
    · rw [List.mem_singleton.mp hnew]
      exact Nat.lt_succ_self _
  replyIds := by
    intro e he
    rw [hsent]
    exact Nat.lt_succ_of_lt (h.replyIds e (hreplies ▸ he))
  pending := hpending

lemma pending_idle (h : s.unregister = .idle) : s.Pending c := by
  simp only [Pending, h]

/-- While `Unregister` is under way, the loop is quiet. -/
lemma Inv.quiet (h : s.Inv c) (hu : s.unregister ≠ .idle) : s.LoopQuiet := by
  have hp := h.pending
  unfold Pending at hp
  cases hpc : s.unregister with
  | idle => exact absurd hpc hu
  | sent id => simp only [hpc] at hp; exact hp.1
  | closing => simp only [hpc] at hp; exact hp.1
  | returned => simp only [hpc] at hp; exact hp.1

lemma inv_loopReply {failed : Bool} (hs : s.Inv c) (h : s.loopReply c failed = some t) :
    t.Inv c := by
  have hbusy : ¬s.LoopQuiet := by
    rintro (hloop | hloop) <;> simp [loopReply, hloop] at h
  have hidle : s.unregister = .idle := by
    by_contra hu
    exact hbusy (hs.quiet hu)
  unfold loopReply at h
  split at h
  · obtain ⟨ok, -, rfl⟩ := Option.map_eq_some_iff.mp h
    split
    · exact ⟨hs.flightIds, hs.replyIds, pending_idle hidle⟩
    · unfold reregister
      split
      · exact ⟨hs.flightIds, hs.replyIds, pending_idle hidle⟩
      · exact hs.of_send rfl rfl rfl (pending_idle hidle)
  · obtain ⟨ok, -, rfl⟩ := Option.map_eq_some_iff.mp h
    exact ⟨hs.flightIds, hs.replyIds, pending_idle hidle⟩
  · cases h
  · cases h

/-- A reply that is there was processed, so `Unregister` succeeds on an entry that is gone. -/
lemma inv_unregisterReply {failed : Bool} (hs : s.Inv c) (h : s.unregisterReply failed = some t) :
    t.Inv c := by
  unfold unregisterReply at h
  split at h
  · next id hu =>
    obtain ⟨ok, hok, rfl⟩ := Option.map_eq_some_iff.mp h
    refine ⟨hs.flightIds, hs.replyIds, ?_⟩
    cases ok with
    | false => exact pending_idle rfl
    | true =>
      have hp := hs.pending
      simp only [Pending, hu] at hp
      obtain ⟨e, he, hid⟩ : ∃ e ∈ s.replies, e.1 = id := by
        unfold replied at hok
        split at hok
        · cases hok
        · obtain ⟨e, he, -⟩ := Option.map_eq_some_iff.mp hok
          exact ⟨e, List.mem_of_find?_eq_some he, by simpa using List.find?_some he⟩
      obtain ⟨hquiet, ⟨-, hnone⟩ | ⟨hnil, hreply⟩⟩ := hp
      · exact absurd hid (hnone e he)
      · exact ⟨hquiet, hnil, hreply ⟨e, he, hid⟩⟩
  · cases h
  · cases h
  · cases h

/-- Once `Unregister` has been called, only its own request can be on its way. -/
lemma Inv.flight_cases {m : Nat × Request} (hs : s.Inv c) (hmem : m ∈ s.flight) :
    s.unregister = .idle ∨ ∃ id, m = (id, c.unregisterCmd) ∧ s.unregister = .sent id ∧
      s.LoopQuiet ∧ s.flight = [m] ∧ ∀ e ∈ s.replies, e.1 ≠ id := by
  have hp := hs.pending
  unfold Pending at hp
  cases hu : s.unregister with
  | idle => exact .inl rfl
  | sent id =>
    simp only [hu] at hp
    obtain ⟨hquiet, ⟨hone, hnone⟩ | ⟨hnil, -⟩⟩ := hp
    · rw [hone, List.mem_singleton] at hmem
      exact .inr ⟨id, hmem, rfl, hquiet, hmem ▸ hone, hnone⟩
    · rw [hnil] at hmem
      cases hmem
  | closing =>
    simp only [hu] at hp
    rw [hp.2.1] at hmem
    cases hmem
  | returned =>
    simp only [hu] at hp
    rw [hp.2.1] at hmem
    cases hmem

lemma inv_process {id : Nat} {o : Orders} (hs : s.Inv c) (h : s.process id o = some t) :
    t.Inv c := by
  obtain ⟨m, hm, rfl⟩ := Option.map_eq_some_iff.mp h
  have hmem := List.mem_of_find?_eq_some hm
  have hid : m.1 = id := by simpa using List.find?_some hm
  refine ⟨fun m' hm' => hs.flightIds m' (List.mem_of_mem_erase hm'), fun e he => ?_, ?_⟩
  · obtain hold | hnew := List.mem_append.mp he
    · exact hs.replyIds e hold
    · rw [List.mem_singleton.mp hnew, ← hid]
      exact hs.flightIds m hmem
  · obtain hidle | ⟨id', rfl, hu, hquiet, hone, -⟩ := hs.flight_cases hmem
    · simp only [Pending, hidle]
    · simp only [Pending, hu]
      refine ⟨hquiet, .inr ⟨by rw [hone]; simp, fun _ => ?_⟩⟩
      exact entry_serve_unregister s.registry o s.now

lemma inv_lose {m : Nat × Request} (hs : s.Inv c) (hmem : m ∈ s.flight) :
    Inv c { s with flight := s.flight.erase m } := by
  refine ⟨fun m' hm' => hs.flightIds m' (List.mem_of_mem_erase hm'), hs.replyIds, ?_⟩
  obtain hidle | ⟨id, -, hu, hquiet, hone, hnone⟩ := hs.flight_cases hmem
  · simp only [Pending, hidle]
  · simp only [Pending, hu]
    refine ⟨hquiet, .inr ⟨by rw [hone]; simp, ?_⟩⟩
    rintro ⟨e, he, hid⟩
    exact absurd hid (hnone e he)

lemma inv_step {act : ServiceAction} (hs : s.Inv c) (hok : s.Orderly act)
    (h : step c s act = some t) : t.Inv c := by
  cases act with
  | tick d =>
    cases h
    exact hs.of_frame rfl rfl rfl rfl id id
  | loopTick =>
    simp only [step] at h
    split at h <;> cases h
    exact hs.of_send rfl rfl rfl (pending_idle hok)
  | loopDone =>
    simp only [step] at h
    split at h <;> cases h
    exact hs.of_frame rfl rfl rfl rfl (fun _ => .inr rfl) id
  | loopReply failed => exact inv_loopReply hs h
  | callUnregister =>
    simp only [step] at h
    split at h
    · cases h
    split at h <;> cases h
    · exact hs
    · refine hs.of_send rfl rfl rfl ⟨.inl hok.1, .inl ⟨?_, fun e he => ?_⟩⟩
      · change s.flight ++ _ = _
        rw [hok.2]
        rfl
      · exact (hs.replyIds e he).ne
  | unregisterReply failed => exact inv_unregisterReply hs h
  | closeDone =>
    simp only [step] at h
    split at h <;> cases h
    next hu =>
    refine ⟨hs.flightIds, hs.replyIds, ?_⟩
    have hp := hs.pending
    simp only [Pending, hu] at hp
    exact hp
  | process id o => exact inv_process hs h
  | lose id =>
    obtain ⟨m, hm, rfl⟩ := Option.map_eq_some_iff.mp h
    exact inv_lose hs (List.mem_of_find?_eq_some hm)
  | other cmd o =>
    simp only [step] at h
    split at h <;> cases h
    next hpair => exact hs.of_frame rfl rfl rfl rfl id (entry_none_serve hpair)
  | evict n a =>
    cases h
    refine hs.of_frame rfl rfl rfl rfl id fun hnone => ?_
    change (s.registry.unregister n a).1.entry _ _ = none
    rw [Registry.entry_unregister]
    split
    · rfl
    · exact hnone
  | sweep o =>
    cases h
    refine hs.of_frame rfl rfl rfl rfl id fun hnone => ?_
    change (s.registry.cleanExpiredServers o.outer o.inner s.now).entry _ _ = none
    rw [Registry.entry_cleanExpiredServers]
    change s.registry.entry _ _ = none at hnone
    rw [hnone]
    rfl

end ServiceState

namespace Proofs

/-- In a run in which `Unregister` is called only while the heartbeat loop is in its `select` and no
message is in flight, and the loop takes no tick afterwards, the registry holds no entry of the
client from the moment at which `Unregister` has returned nil. -/
theorem unregister_final (c : Registration) (r : Registry) (start : Int)
    (acts : List ServiceAction) (s : ServiceState)
    (hrun : exec (ServiceState.step c) (.init r start) acts = some s)
    (horder : Guarded (ServiceState.step c) ServiceState.Orderly (.init r start) acts)
    (hreturned : s.unregister = .returned) :
    s.registry.entry c.serviceName c.serviceAddr = none := by
  have hs : s.Inv c :=
    exec_invariant_guarded (ServiceState.Inv c)
      (fun _ _ _ hs hok h => ServiceState.inv_step hs hok h)
      (ServiceState.inv_init c r start) horder hrun
  have hp := hs.pending
  simp only [ServiceState.Pending, hreturned] at hp
  exact hp.2.2

/-- The service `s` at the address `a`. -/
def serviceAtA : Registration := ⟨str "s", str "a", none⟩

/-- A heartbeat is answered, then the service unregisters and the loop ends. -/
def orderlyEnd : List ServiceAction :=
  [.loopTick, .process 0 .stored, .loopReply false, .callUnregister, .process 1 .stored,
   .unregisterReply false, .closeDone, .loopDone]

theorem unregister_final_orderlyEnd : ∃ s : ServiceState,
    exec (ServiceState.step serviceAtA) (.init registryWithA 0) orderlyEnd = some s ∧
      s.unregister = .returned ∧ s.flight = [] ∧ s.loop = .returned ∧
      s.registry.entry serviceAtA.serviceName serviceAtA.serviceAddr = none := by
  have hend : ∃ s ∈ exec (ServiceState.step serviceAtA) (.init registryWithA 0) orderlyEnd,
      s.unregister = .returned ∧ s.flight = [] ∧ s.loop = .returned := by
    decide +kernel
  obtain ⟨s, hs, hu, hflight, hloop⟩ := hend
  exact ⟨s, hs, hu, hflight, hloop,
    unregister_final serviceAtA registryWithA 0 orderlyEnd s hs (by decide +kernel) hu⟩

/-- A heartbeat that is processed after the unregister request fails, and the loop registers the
service again; `Unregister` has returned nil, and nothing is in flight. -/
theorem unregister_not_final : ∃ s : ServiceState,
    exec (ServiceState.step serviceAtA) (.init registryWithA 0)
      [.loopTick, .callUnregister, .process 1 .stored, .unregisterReply false, .closeDone,
       .process 0 .stored, .loopReply false, .process 2 .stored, .loopReply false,
       .loopDone] = some s ∧
      s.unregister = .returned ∧ s.flight = [] ∧ s.loop = .returned ∧
      s.registry.entry serviceAtA.serviceName serviceAtA.serviceAddr ≠ none := by
  have hend : ∃ s ∈ exec (ServiceState.step serviceAtA) (.init registryWithA 0)
      [.loopTick, .callUnregister, .process 1 .stored, .unregisterReply false, .closeDone,
       .process 0 .stored, .loopReply false, .process 2 .stored, .loopReply false, .loopDone],
      s.unregister = .returned ∧ s.flight = [] ∧ s.loop = .returned ∧
        s.registry.entry serviceAtA.serviceName serviceAtA.serviceAddr ≠ none := by
    decide +kernel
  exact hend

end Proofs

end Zrpc
