import Zrpc.Proofs.TcpRegistry
import Zrpc.ServiceHeartbeat

/-!
# One keep-alive time for both sides

The client divides the keep-alive time by three and raises the result to ten seconds; the registry
waits for the whole of it, checks at a third and sweeps at a half. All of it is computed in 64 bits,
in nanoseconds.
-/

namespace Zrpc

open Zrpc.Lib TcpClient

/-! ## The intervals -/

lemma int64_emod (n : Int) : int64 (n % 2 ^ 64) = int64 n := by
  unfold int64
  omega

lemma seconds_third (k : Int) :
    seconds k = int64 (3 * (k / 3 * 1000000000 % 2 ^ 64) + k % 3 * 1000000000) := by
  rw [seconds, ← int64_emod (k * 1000000000), ← int64_emod (3 * _ + _)]
  congr 1
  omega

lemma half_pos_iff (n : Int) : 0 < n.tdiv 2 ↔ 2 ≤ n := by
  by_cases hn : 0 ≤ n
  · rw [Int.tdiv_eq_ediv_of_nonneg hn]
    omega
  · have hneg : n.tdiv 2 = -((-n) / 2) := by
      rw [← Int.tdiv_eq_ediv_of_nonneg (by omega), Int.neg_tdiv, neg_neg]
    omega

/-- The nanoseconds of a third of the time, as 64 bits hold them, and three times that with what the
division left. The second case needs the whole time to wrap past the third of it. -/
def SettingsMatch (keepaliveSec : Int) : Prop :=
  let third := keepaliveSec / 3 * 1000000000 % 2 ^ 64
  let rest := keepaliveSec % 3 * 1000000000
  (0 < third ∧ 10000000000 < 3 * third + rest ∧ 3 * third + rest < 2 ^ 63) ∨
    (2 ^ 64 < 2 * third + rest ∧ 3 * third + rest < 2 ^ 63 + 2 ^ 64)

lemma settingsMatch_of_le {k : Int} (hk : 0 < k) (hle : k ≤ 9223372036) :
    SettingsMatch k ↔ 10 < k := by
  have hsame : k / 3 * 1000000000 % 2 ^ 64 = k / 3 * 1000000000 := by
    apply Int.emod_eq_of_lt <;> omega
  unfold SettingsMatch
  dsimp only
  rw [hsame]
  omega

/-- Where `3 * a + r` seconds wrap to, for the nanoseconds `a` of a third. -/
lemma intervals_iff {a r : Int} (ha : 0 ≤ a) (ha' : a < 2 ^ 64) (hr : 0 ≤ r) (hr' : r ≤ 2) :
    ((if int64 a < 10000000000 then 10000000000 else int64 a) < int64 (3 * a + r * 1000000000) ∧
      0 < int64 a ∧ 2 ≤ int64 (3 * a + r * 1000000000)) ↔
    (0 < a ∧ 10000000000 < 3 * a + r * 1000000000 ∧ 3 * a + r * 1000000000 < 2 ^ 63) ∨
      (2 ^ 64 < 2 * a + r * 1000000000 ∧ 3 * a + r * 1000000000 < 2 ^ 63 + 2 ^ 64) := by
  by_cases hwrap : a < 2 ^ 63
  · have hthird : int64 a = a := int64_eq (by omega) hwrap
    rw [hthird]
    by_cases h0 : 3 * a + r * 1000000000 < 2 ^ 63
    · rw [int64_eq (by omega) h0]
      split <;> omega
    · by_cases h1 : 3 * a + r * 1000000000 < 2 ^ 63 + 2 ^ 64
      · have hsum : int64 (3 * a + r * 1000000000) = 3 * a + r * 1000000000 - 2 ^ 64 := by
          unfold int64
          omega
        rw [hsum]
        split <;> omega
      · have hsum : int64 (3 * a + r * 1000000000) = 3 * a + r * 1000000000 - 2 ^ 65 := by
          unfold int64
          omega
        rw [hsum]
        split <;> omega
  · have hthird : int64 a = a - 2 ^ 64 := by
      unfold int64
      omega
    rw [hthird]
    omega

/-- The client's interval is shorter than the registry's timeout, and both tickers can be made. -/
structure Intervals (heartbeatInterval keepaliveSec : Int) : Prop where
  interval_lt : ∀ start, keepAliveInterval heartbeatInterval keepaliveSec <
    (newTcpRegistry keepaliveSec start).registry.timeout
  checker_pos : ∀ start, 0 < seconds ((newTcpRegistry keepaliveSec start).keepaliveSec.tdiv 3)
  sweeper_pos : ∀ start, 0 < (newTcpRegistry keepaliveSec start).registry.timeout.tdiv 2

lemma intervals_settingsMatch (heartbeatInterval : Int) {k : Int} (hk : 0 < k) :
    Intervals heartbeatInterval k ↔ SettingsMatch k := by
  have h0 : ¬k ≤ 0 := by omega
  have hten : seconds 10 = 10000000000 := by decide
  have hdiv : k.tdiv 3 = k / 3 := Int.tdiv_eq_ediv_of_nonneg hk.le
  have hthird : seconds (k / 3) = int64 (k / 3 * 1000000000 % 2 ^ 64) := (int64_emod _).symm
  have hiff : (keepAliveInterval heartbeatInterval k < seconds k ∧ 0 < seconds (k.tdiv 3) ∧
      0 < (seconds k).tdiv 2) ↔ SettingsMatch k := by
    unfold keepAliveInterval SettingsMatch
    simp only [if_pos hk, hten, hdiv, hthird, seconds_third k, half_pos_iff]
    apply intervals_iff <;> omega
  rw [← hiff]
  constructor
  · rintro ⟨hlt, hcheck, hsweep⟩
    have h := And.intro (hlt 0) (And.intro (hcheck 0) (hsweep 0))
    simpa only [newTcpRegistry, newRegistry, if_neg h0] using h
  · rintro ⟨hlt, hcheck, hsweep⟩
    constructor <;> intro start <;> simpa only [newTcpRegistry, newRegistry, if_neg h0]

lemma keepAliveInterval_pos (heartbeatInterval : Int) {k : Int} (hk : 0 < k) :
    0 < keepAliveInterval heartbeatInterval k := by
  have hten : seconds 10 = 10000000000 := by decide
  unfold keepAliveInterval
  rw [if_pos hk, hten]
  dsimp only
  split <;> omega

/-! ## A service between its heartbeats -/

namespace TcpRegistry

/-- The service of the pair `p` is in order: it does not unregister, and no more than the interval
passes from one of its heartbeats to the next. -/
def Healthy (interval : Int) (p : GoString × GoString) (s : TcpRegistry) :
    TcpRegistryAction → Prop
  | .tick d => ∀ info ∈ s.registry.entry p.1 p.2, s.now + d ≤ info.lastPing + interval
  | .request _ cmd => ¬(cmd.action = str "unregister" ∧ (cmd.serviceName, cmd.addr) = p)
  | .startSweeper | .sweep _ | .check _ | .stop _ | .close => True

instance (interval : Int) (p : GoString × GoString) (s : TcpRegistry) :
    ∀ act, Decidable (Healthy interval p s act)
  | .tick d => inferInstanceAs (Decidable (∀ info ∈ s.registry.entry p.1 p.2,
      s.now + d ≤ info.lastPing + interval))
  | .request _ cmd => inferInstanceAs (Decidable (¬(cmd.action = _ ∧ (cmd.serviceName, cmd.addr) = p)))
  | .startSweeper | .sweep _ | .check _ | .stop _ | .close => isTrue trivial

/-- The pair is registered, its last ping is younger than the interval, and no checker has found it
expired. -/
structure Alive (timeout interval : Int) (p : GoString × GoString) (s : TcpRegistry) : Prop where
  timeout : s.registry.timeout = timeout
  entry : ∃ info, s.registry.entry p.1 p.2 = some info ∧ s.now ≤ info.lastPing + interval
  checkers : ∀ c ∈ s.checkers, c.pc = .expired → (c.serviceName, c.addr) ≠ p

variable {timeout interval : Int} {p : GoString × GoString} {s t : TcpRegistry}
  {act : TcpRegistryAction}

/-- A request that does not unregister a pair leaves its entry, or refreshes it. -/
lemma entry_serve_some {r : Registry} (o : Orders) (now : Int) {cmd : Request} {info : ServiceInfo}
    (h : r.entry p.1 p.2 = some info)
    (hcmd : ¬(cmd.action = str "unregister" ∧ (cmd.serviceName, cmd.addr) = p)) :
    ∃ info', (r.serve o now cmd).1.entry p.1 p.2 = some info' ∧
      (info' = info ∨ info'.lastPing = now) := by
  unfold Registry.serve
  split
  · dsimp only
    rw [Registry.entry_register]
    split
    · exact ⟨_, rfl, .inr rfl⟩
    · exact ⟨info, h, .inl rfl⟩
  split
  · next haction =>
    have hpair : (p.1, p.2) ≠ (cmd.serviceName, cmd.addr) := fun he => hcmd ⟨haction, he.symm⟩
    dsimp only
    rw [Registry.entry_unregister, if_neg hpair]
    exact ⟨info, h, .inl rfl⟩
  split
  · dsimp only
    rw [Registry.entry_heartbeat]
    split
    · next hpair =>
      obtain ⟨hname, haddr⟩ := Prod.mk.inj hpair
      rw [← hname, ← haddr, h]
      exact ⟨_, rfl, .inr rfl⟩
    · exact ⟨info, h, .inl rfl⟩
  split
  · split <;> exact ⟨info, h, .inl rfl⟩
  split <;> exact ⟨info, h, .inl rfl⟩

/-- A pair in time is not found expired. -/
lemma Alive.not_expired (hs : Alive timeout interval p s) (hlt : interval < timeout)
    (h : s.registry.isExpired p.1 p.2 s.now = true) : False := by
  obtain ⟨info, hinfo, hyoung⟩ := hs.entry
  have hold := overdue_of_isExpired h info hinfo
  have htimeout := hs.timeout
  omega

lemma Alive.checkers_of_noneExpires (hs : Alive timeout interval p s) (h : NoneExpires s t) :
    ∀ c ∈ t.checkers, c.pc = .expired → (c.serviceName, c.addr) ≠ p :=
  fun c hc hpc => hs.checkers c (h c hc hpc) hpc

/-- Without a heartbeat in between, neither the sweeper nor a checker removes the pair. -/
lemma Alive.step (hs : Alive timeout interval p s) (hpos : 0 < interval) (hlt : interval < timeout)
    (hact : Healthy interval p s act) (h : step s act = some t) : Alive timeout interval p t := by
  obtain ⟨info, hinfo, hyoung⟩ := hs.entry
  have htimeout := hs.timeout
  cases move_of_step h with
  | tick d hreg hnow hexp =>
    have hin := hact info hinfo
    exact ⟨hreg ▸ htimeout, ⟨info, hreg ▸ hinfo, hnow ▸ hin⟩, hs.checkers_of_noneExpires hexp⟩
  | serve o cmd hreg hnow hexp =>
    obtain ⟨info', hinfo', hping⟩ := entry_serve_some o s.now hinfo hact
    refine ⟨?_, ⟨info', hreg ▸ hinfo', ?_⟩, hs.checkers_of_noneExpires hexp⟩
    · rw [hreg, Registry.timeout_serve, htimeout]
    · rw [hnow]
      rcases hping with rfl | hping
      · exact hyoung
      · omega
  | sweep o hreg hnow hexp =>
    have hkept : decide (s.now - info.lastPing ≤ s.registry.timeout) = true := by
      rw [decide_eq_true_iff]
      omega
    refine ⟨?_, ⟨info, ?_, hnow ▸ hyoung⟩, hs.checkers_of_noneExpires hexp⟩
    · rw [hreg]
      exact htimeout
    · rw [hreg, Registry.entry_cleanExpiredServers, hinfo, Option.filter_some, if_pos hkept]
  | expire i c hold hreg hnow hexp =>
    refine ⟨hreg ▸ htimeout, ⟨info, hreg ▸ hinfo, hnow ▸ hyoung⟩, fun c' hc' hpc hpair => ?_⟩
    rcases hexp c' hc' hpc with hbefore | ⟨hname, haddr⟩
    · exact hs.checkers c' hbefore hpc hpair
    · rw [← hname, ← haddr] at hold
      exact hs.not_expired hlt (hpair ▸ hold)
  | remove i c hc hpc hreg hnow hexp =>
    have hpair : (p.1, p.2) ≠ (c.serviceName, c.addr) := fun he => hs.checkers c hc hpc he.symm
    refine ⟨?_, ⟨info, ?_, hnow ▸ hyoung⟩, hs.checkers_of_noneExpires hexp⟩
    · rw [hreg, Registry.timeout_unregister, htimeout]
    · rw [hreg, Registry.entry_unregister, if_neg hpair, hinfo]
  | other _ hquiet hreg hnow hexp =>
    exact ⟨hreg ▸ htimeout, ⟨info, hreg ▸ hinfo, hnow ▸ hyoung⟩, hs.checkers_of_noneExpires hexp⟩

/-- A pair registers that no checker is about to remove. -/
lemma alive_register {o : Orders} {c : Registration} (htimeout : s.registry.timeout = timeout)
    (hpos : 0 < interval)
    (hnew : ∀ x ∈ s.checkers, x.pc = .expired →
      (x.serviceName, x.addr) ≠ (c.serviceName, c.serviceAddr))
    (h : step s (.request o c.registerCmd) = some t) :
    Alive timeout interval (c.serviceName, c.serviceAddr) t := by
  have ht : t = s.requestStep o c.registerCmd := by
    unfold step at h
    split at h <;> cases h
    rfl
  have hreg : t.registry =
      s.registry.register c.serviceName c.serviceAddr c.metadata s.now s.now := by
    rw [ht]
    rfl
  refine ⟨hreg ▸ htimeout, ⟨⟨c.serviceName, c.serviceAddr, c.metadata, s.now, s.now⟩, ?_, ?_⟩, ?_⟩
  · rw [hreg, Registry.entry_register, if_pos rfl]
  · have hnow : t.now = s.now := by
      rw [ht]
      rfl
    dsimp only
    omega
  · intro x hx hpc
    have hchecker : t.checkers = s.checkers ++ [⟨c.serviceName, c.serviceAddr, .starting⟩] := by
      rw [ht]
      rfl
    rw [hchecker] at hx
    obtain hold | hmade := List.mem_append.mp hx
    · exact hnew x hold hpc
    · rw [List.mem_singleton.mp hmade] at hpc
      cases hpc

lemma timeout_of_step (h : step s act = some t) : t.registry.timeout = s.registry.timeout := by
  cases move_of_step h with
  | tick d hreg hnow hexp => rw [hreg]
  | serve o cmd hreg hnow hexp => rw [hreg, Registry.timeout_serve]
  | sweep o hreg hnow hexp =>
    rw [hreg]
    rfl
  | expire i c hold hreg hnow hexp => rw [hreg]
  | remove i c hc hpc hreg hnow hexp => rw [hreg, Registry.timeout_unregister]
  | other _ hquiet hreg hnow hexp => rw [hreg]

/-- However the registry goes on, a service that is in order stays registered, and is not expired,
from a registration on at which no checker is between finding it expired and removing it. -/
def StaysRegistered (interval keepaliveSec : Int) : Prop :=
  ∀ start before s o (c : Registration) t after u,
    exec step (newTcpRegistry keepaliveSec start) before = some s →
    (∀ x ∈ s.checkers, x.pc = .expired →
      (x.serviceName, x.addr) ≠ (c.serviceName, c.serviceAddr)) →
    step s (.request o c.registerCmd) = some t →
    Guarded step (Healthy interval (c.serviceName, c.serviceAddr)) t after →
    exec step t after = some u →
    (u.registry.entry c.serviceName c.serviceAddr).isSome = true ∧
      u.registry.isExpired c.serviceName c.serviceAddr u.now = false

lemma staysRegistered {keepaliveSec : Int} (hpos : 0 < interval)
    (hlt : ∀ start, interval < (newTcpRegistry keepaliveSec start).registry.timeout) :
    StaysRegistered interval keepaliveSec := by
  intro start before s o c t after u hbefore hnew hreg hafter hu
  have htimeout := exec_invariant
    (fun s : TcpRegistry => s.registry.timeout = (newTcpRegistry keepaliveSec start).registry.timeout)
    (fun _ _ _ hs h => (timeout_of_step h).trans hs) rfl hbefore
  have halive := exec_invariant_guarded _ (fun _ _ _ hs hok h => hs.step hpos (hlt start) hok h)
    (alive_register htimeout hpos hnew hreg) hafter hu
  obtain ⟨info, hinfo, -⟩ := halive.entry
  refine ⟨by rw [hinfo]; rfl, ?_⟩
  by_contra hexp
  exact halive.not_expired (hlt start) (Bool.eq_true_of_not_eq_false hexp)

end TcpRegistry

/-- The two sides fit together, and so the service is never expired between two heartbeats. -/
structure KeepsAlive (heartbeatInterval keepaliveSec : Int) : Prop where
  intervals : Intervals heartbeatInterval keepaliveSec
  stays : TcpRegistry.StaysRegistered (keepAliveInterval heartbeatInterval keepaliveSec) keepaliveSec

namespace Proofs

/-- Where nothing wraps, the time has to be more than ten seconds. -/
theorem keep_alive_settings_match (heartbeatInterval keepaliveSec : Int)
    (hk : 0 < keepaliveSec) :
    (KeepsAlive heartbeatInterval keepaliveSec ↔ SettingsMatch keepaliveSec) ∧
      (keepaliveSec ≤ 9223372036 → (SettingsMatch keepaliveSec ↔ 10 < keepaliveSec)) := by
  refine ⟨?_, settingsMatch_of_le hk⟩
  rw [← intervals_settingsMatch heartbeatInterval hk]
  constructor
  · exact KeepsAlive.intervals
  · intro h
    exact ⟨h, TcpRegistry.staysRegistered (keepAliveInterval_pos heartbeatInterval hk) h.interval_lt⟩

theorem keep_alive_minute : KeepsAlive 0 60 :=
  have h := keep_alive_settings_match 0 60 (by decide)
  h.1.mpr ((h.2 (by decide)).mpr (by decide))

/-- With five seconds the client waits ten before its first heartbeat, and the sweeper removes the
service after six. -/
theorem keep_alive_five_seconds :
    ¬KeepsAlive 0 5 ∧ keepAliveInterval 0 5 = 10000000000 ∧
      (newTcpRegistry 5 0).registry.timeout = 5000000000 := by
  let c : Registration := ⟨str "s", str "a", none⟩
  let acts : List TcpRegistryAction := [.startSweeper, .tick 6000000000, .sweep .stored]
  have hrun : ∃ t ∈ TcpRegistry.step (newTcpRegistry 5 0) (.request .stored c.registerCmd),
      Guarded TcpRegistry.step
        (TcpRegistry.Healthy (keepAliveInterval 0 5) (c.serviceName, c.serviceAddr)) t acts ∧
      ∃ u ∈ exec TcpRegistry.step t acts,
        (u.registry.entry c.serviceName c.serviceAddr).isSome = false := by
    decide +kernel
  obtain ⟨t, ht, hhealthy, u, hu, hgone⟩ := hrun
  refine ⟨fun h => ?_, by decide, by decide⟩
  have hstays := h.stays 0 [] _ .stored c t acts u rfl (fun x hx => by cases hx) ht hhealthy hu
  rw [hgone] at hstays
  cases hstays.1

end Proofs

end Zrpc
