import Mathlib.Data.List.Rotate
import Zrpc.Proofs.ClientServers

/-!
# Round robin over the servers

The index of a registry only matters modulo the length of the list. So the positions that the
round-robin `Get`s of a window read are a rotation of the positions of the list, wherever the index
stood before.
-/

namespace Zrpc.Proofs

open MultiServerRegistry

lemma rotate_range (k n : Nat) :
    (List.range n).rotate k = (List.range n).map (fun j => (k + j) % n) := by
  apply List.ext_getElem
  · simp
  · intro j h₁ h₂
    rw [List.getElem_rotate]
    simp [Nat.add_comm]

section Get

variable (m : MultiServerRegistry) (mode : SelectMode) (draw : Nat)

lemma position_lt {p : Nat} (h : m.position mode draw = some p) : p < m.servers.length := by
  unfold position at h
  dsimp only at h
  split at h
  · cases h
  · rename_i hn
    have hpos : 0 < m.servers.length := Nat.pos_of_ne_zero hn
    cases mode <;> cases h
    · exact Nat.mod_lt _ hpos
    · exact Nat.mod_lt _ hpos

/-- What `Get` returns is what stands at the position it reads. -/
lemma get_of_position {p : Nat} (h : m.position mode draw = some p) :
    ∃ target, (m.get mode draw).1 = .ok target ∧ m.servers[p]? = some target := by
  have hlt := position_lt m mode draw h
  refine ⟨m.servers.get ⟨p, hlt⟩, ?_, List.getElem?_eq_getElem hlt⟩
  unfold position at h
  unfold MultiServerRegistry.get
  dsimp only at h ⊢
  split at h
  · cases h
  · rename_i hn
    rw [dif_neg hn]
    cases mode <;> cases h <;> rfl

lemma position_none_iff : m.position mode draw = none ↔
    m.servers = [] ∨ ∃ k, mode = .unsupported k := by
  unfold position
  dsimp only
  split
  · rename_i hn
    exact iff_of_true rfl (.inl (List.length_eq_zero_iff.mp hn))
  · rename_i hn
    have hne : m.servers ≠ [] := fun h => hn (List.length_eq_zero_iff.mpr h)
    cases mode <;> simp [hne]

/-- A `Get` that reads no position fails and leaves the registry as it is. -/
lemma get_of_none (h : m.position mode draw = none) :
    (∃ err, (m.get mode draw).1 = .error err) ∧ (m.get mode draw).2 = m := by
  unfold position at h
  unfold MultiServerRegistry.get
  dsimp only at h ⊢
  split at h
  · rename_i hn
    rw [dif_pos hn]
    exact ⟨⟨_, rfl⟩, rfl⟩
  · rename_i hn
    rw [dif_neg hn]
    cases mode with
    | RandomSelect => cases h
    | RoundRobinSelect => cases h
    | unsupported k => exact ⟨⟨_, rfl⟩, rfl⟩

/-- A `Get` fails and changes nothing, or returns what stands at a position of the list. -/
lemma get_cases : (m.position mode draw = none ∧
      (∃ err, (m.get mode draw).1 = .error err) ∧ (m.get mode draw).2 = m) ∨
    ∃ p target, p < m.servers.length ∧ m.position mode draw = some p ∧
      (m.get mode draw).1 = .ok target ∧ m.servers[p]? = some target := by
  cases hp : m.position mode draw with
  | none => exact .inl ⟨rfl, get_of_none m mode draw hp⟩
  | some p =>
    obtain ⟨target, hok, htarget⟩ := get_of_position m mode draw hp
    exact .inr ⟨p, target, position_lt m mode draw hp, rfl, hok, htarget⟩

end Get

/-- The list given by the last `Update`. -/
def currentServers (servers : List GoString) : List MultiServerRegistry.Call → List GoString
  | [] => servers
  | .get _ _ :: calls => currentServers servers calls
  | .update servers' :: calls => currentServers servers' calls

lemma servers_calls (m : MultiServerRegistry) (calls : List MultiServerRegistry.Call) :
    (calls.foldl call m).servers = currentServers m.servers calls := by
  induction calls generalizing m with
  | nil => rfl
  | cons c calls ih =>
    rw [List.foldl_cons, ih]
    cases c with
    | get mode draw => rw [call, servers_get, currentServers]
    | update servers => rfl

def isRoundRobin : MultiServerRegistry.Call → Bool
  | .get .RoundRobinSelect _ => true
  | .get .RandomSelect _ | .get (.unsupported _) _ | .update _ => false

section Window

variable (m : MultiServerRegistry)

lemma position_roundRobin (hm : m.servers ≠ []) (draw : Nat) :
    m.position .RoundRobinSelect draw = some (m.idx % m.servers.length) := by
  have hn : m.servers.length ≠ 0 := fun h => hm (List.length_eq_zero_iff.mp h)
  exact if_neg hn

lemma call_roundRobin (hm : m.servers ≠ []) (draw : Nat) :
    m.call (.get .RoundRobinSelect draw) =
      { m with idx := (m.idx + 1) % m.servers.length } := by
  have hn : m.servers.length ≠ 0 := fun h => hm (List.length_eq_zero_iff.mp h)
  unfold call MultiServerRegistry.get
  dsimp only
  rw [dif_neg hn]

lemma call_other {mode : SelectMode} (draw : Nat) (h : isRoundRobin (.get mode draw) = false) :
    m.call (.get mode draw) = m := by
  unfold call MultiServerRegistry.get
  dsimp only
  split
  · rfl
  · cases mode with
    | RandomSelect => rfl
    | RoundRobinSelect => cases h
    | unsupported k => rfl

/-- From the index on, the round-robin `Get`s read one position after the other. -/
lemma roundRobinPositions_eq (hm : m.servers ≠ []) {calls : List MultiServerRegistry.Call}
    (hget : ∀ c ∈ calls, ∃ mode draw, c = .get mode draw) :
    m.roundRobinPositions calls =
      (List.range (calls.countP isRoundRobin)).map (fun j => (m.idx + j) % m.servers.length) := by
  induction calls generalizing m with
  | nil => rfl
  | cons c calls ih =>
    obtain ⟨mode, draw, rfl⟩ := hget c List.mem_cons_self
    have hrest := fun c hc => hget c (List.mem_cons_of_mem _ hc)
    rw [List.countP_cons]
    cases mode with
    | RoundRobinSelect =>
      have hnext := ih { m with idx := (m.idx + 1) % m.servers.length } hm hrest
      rw [roundRobinPositions, position_roundRobin m hm, call_roundRobin m hm, hnext]
      simp only [isRoundRobin, if_true, List.range_succ_eq_map, List.map_cons, List.map_map,
        Option.toList_some, List.singleton_append, Nat.add_zero, List.cons.injEq, true_and]
      apply List.map_congr_left
      intro j _
      rw [Function.comp_apply, Nat.mod_add_mod, Nat.add_assoc, Nat.add_comm 1 j]
    | RandomSelect =>
      rw [roundRobinPositions, call_other m draw rfl, ih m hm hrest]
      · rfl
      · simp
    | unsupported k =>
      rw [roundRobinPositions, call_other m draw rfl, ih m hm hrest]
      · rfl
      · simp

lemma roundRobinPositions_none {calls : List MultiServerRegistry.Call}
    (hcount : calls.countP isRoundRobin = 0) : m.roundRobinPositions calls = [] := by
  induction calls generalizing m with
  | nil => rfl
  | cons c calls ih =>
    rw [List.countP_cons] at hcount
    have hrest : calls.countP isRoundRobin = 0 := by omega
    cases c with
    | update servers =>
      rw [roundRobinPositions, ih _ hrest]
      simp
    | get mode draw =>
      cases mode with
      | RoundRobinSelect => simp [isRoundRobin] at hcount
      | RandomSelect =>
        rw [roundRobinPositions, ih _ hrest]
        simp
      | unsupported k =>
        rw [roundRobinPositions, ih _ hrest]
        simp

/-- As many round-robin `Get`s as there are servers read each position once. -/
lemma roundRobinPositions_perm {calls : List MultiServerRegistry.Call}
    (hget : ∀ c ∈ calls, ∃ mode draw, c = .get mode draw)
    (hcount : calls.countP isRoundRobin = m.servers.length) :
    (m.roundRobinPositions calls).Perm (List.range m.servers.length) := by
  by_cases hm : m.servers = []
  · rw [hm, List.length_nil] at hcount
    rw [roundRobinPositions_none m hcount, hm]
    exact .refl _
  · rw [roundRobinPositions_eq m hm hget, hcount, ← rotate_range]
    exact List.rotate_perm _ _

end Window

/-- After any calls on a registry, a `Get` reads a position of the list of the last `Update` and
returns what stands there, or it fails and changes nothing, which is so exactly if the list is empty
or the mode unknown. From there on, as many round-robin `Get`s as there are servers read each
position once. -/
theorem round_robin_fair (servers : List GoString) (idx : Nat)
    (calls : List MultiServerRegistry.Call) :
    ∃ m, calls.foldl call ⟨servers, idx⟩ = m ∧ m.servers = currentServers servers calls ∧
      (∀ mode draw target, (m.get mode draw).1 = .ok target →
        ∃ p < m.servers.length, m.position mode draw = some p ∧ m.servers[p]? = some target) ∧
      (∀ mode draw, (∃ err, (m.get mode draw).1 = .error err) ↔
        m.servers = [] ∨ ∃ k, mode = .unsupported k) ∧
      (∀ mode draw err, (m.get mode draw).1 = .error err → (m.get mode draw).2 = m) ∧
      ∀ window, (∀ c ∈ window, ∃ mode draw, c = .get mode draw) →
        window.countP isRoundRobin = m.servers.length →
        (m.roundRobinPositions window).Perm (List.range m.servers.length) := by
  refine ⟨_, rfl, servers_calls ⟨servers, idx⟩ calls, ?_⟩
  generalize calls.foldl call ⟨servers, idx⟩ = m
  refine ⟨fun mode draw target hok => ?_, fun mode draw => ?_, fun mode draw err herr => ?_,
    fun window => roundRobinPositions_perm m⟩
  · rcases get_cases m mode draw with ⟨-, ⟨err, herr⟩, -⟩ | ⟨p, target', hlt, hp, hok', htarget⟩
    · cases herr.symm.trans hok
    · cases hok.symm.trans hok'
      exact ⟨p, hlt, hp, htarget⟩
  · rw [← position_none_iff m mode draw]
    rcases get_cases m mode draw with ⟨hp, herr, -⟩ | ⟨p, target, -, hp, hok, -⟩
    · exact iff_of_true herr hp
    · rw [hok, hp]
      simp
  · rcases get_cases m mode draw with ⟨-, -, hsame⟩ | ⟨p, target, -, -, hok, -⟩
    · exact hsame
    · cases herr.symm.trans hok

end Zrpc.Proofs
