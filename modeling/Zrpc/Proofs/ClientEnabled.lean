import Zrpc.Proofs.ClientRelease

/-!
# Who can take a step

The pools and connections that a goroutine names exist, and an attempt that uses a connection has the
deferred function for it. So while nobody holds `c.mu` or the `p.mu` of a pool, every goroutine that
has not returned can take a step, for some outcome of what it asks of the network. Whoever holds `c.mu`
can as soon as the pools are free, and whoever holds `p.mu` always can.
-/

namespace Zrpc

variable {V T : Type}

/-- The pool of the `get` or `put` that an Invoke is in. -/
def InvokePc.poolOf : InvokePc → Option Nat
  | .get p _ | .put p _ _ | .unwindPut p _ _ => some p
  | _ => none

/-- The attempt has a connection. -/
def InvokePc.connected : InvokePc → Bool
  | .newCall | .closingCheck | .prepare | .number | .write _ | .unregister _ _ | .closeConn _
  | .recv | .settle _ | .finish _ => true
  | _ => false

def HeartbeatPc.poolOf : HeartbeatPc → Option Nat
  | .get p _ | .health p _ | .send p _ | .number p _ | .write p _ _ | .unregister p _ _
  | .closeConn p _ | .put p _ => some p
  | .discover | .lookup _ | .insert _ | .done => none

namespace Proofs

open Zrpc.Lib

/-- The pools that an Invoke names are among the first `n`. -/
structure InvokeNames (n : Nat) (t : InvokeThread T) : Prop where
  pool : ∀ p ∈ t.pc.poolOf, p < n
  cells : ∀ cell ∈ t.cells, cell.pool < n
  connected : t.pc.connected = true → t.cells ≠ []

def ThreadNames (n : Nat) : Thread T → Prop
  | .invoke t => InvokeNames n t
  | .heartbeat pc => ∀ p ∈ pc.poolOf, p < n
  | .prewarm p _ => p < n
  | .closer _ _ => True

def MapNames (s : ClientShared) : Prop :=
  ∀ target p, s.pools.lookup target = some p → p < s.connPools.length

/-- Every pool that the map or a goroutine names exists. -/
structure Named (s : ClientState T) : Prop where
  map : MapNames s.shared
  threads : ∀ th ∈ s.threads, ThreadNames s.shared.connPools.length th

/-! ### Names -/

section Names

variable {cfg : ClientConfig V T} {s : ClientShared} {p id n m : Nat} {inp : Input} {op : ClientOp}
  {t t' : InvokeThread T}

lemma length_connPools_apply (s : ClientShared) (op : ClientOp) :
    s.connPools.length ≤ (s.apply op).connPools.length := by
  cases op <;> simp [ClientShared.apply, ClientShared.onPool, ClientShared.onConn,
    ClientShared.addConn]

lemma mapNames_apply (h : MapNames s) (op : ClientOp) : MapNames (s.apply op) := by
  intro target p hl
  have hle := length_connPools_apply s op
  cases op with
  | newPool target' size =>
    have hlen : (s.apply (.newPool target' size)).connPools.length = s.connPools.length + 1 := by
      simp [ClientShared.apply]
    by_cases he : target = target'
    · subst he
      simp only [ClientShared.apply, AList.lookup_insert, Option.some.injEq] at hl
      omega
    · simp only [ClientShared.apply, AList.lookup_insert_ne he] at hl
      have hp := h target p hl
      omega
  | removePool target' =>
    by_cases he : target = target'
    · subst he
      simp [ClientShared.apply] at hl
    · simp only [ClientShared.apply, AList.lookup_erase_ne he] at hl
      exact h target p hl
  | _ => exact (h target p hl).trans_le hle

namespace InvokeNames

lemma mono (h : InvokeNames n t) (hle : n ≤ m) : InvokeNames m t :=
  ⟨fun p hp => (h.pool p hp).trans_le hle, fun c hc => (h.cells c hc).trans_le hle, h.connected⟩

lemma goto {pc : InvokePc} (h : InvokeNames n t) (hpool : ∀ p ∈ pc.poolOf, p < n)
    (hconn : pc.connected = true → t.cells ≠ []) : InvokeNames n (t.goto pc) :=
  ⟨hpool, h.cells, hconn⟩

lemma continueWith (h : InvokeNames n t) (err : GoString) : InvokeNames n (t.continueWith err) :=
  ⟨fun _ hp => (by cases hp), h.cells, fun hc => (by cases hc)⟩

lemma released (h : InvokeNames n t) : InvokeNames n t.released := by
  unfold InvokeThread.released
  split
  · exact h
  · next cell rest hcells =>
    refine ⟨h.pool, fun c hc => ?_, fun _ => List.cons_ne_nil _ _⟩
    rcases List.mem_cons.mp hc with rfl | hrest
    · exact h.cells cell (hcells ▸ List.mem_cons_self)
    · exact h.cells c (hcells ▸ List.mem_cons_of_mem _ hrest)

lemma startPut {result : Except GoString Message} (h : InvokeNames n t)
    (hput : t.startPut result = some t') : InvokeNames n t' := by
  unfold InvokeThread.startPut at hput
  split at hput
  · cases hput
  · next cell rest hcells =>
    cases hput
    refine h.released.goto (fun p hp => ?_) (fun hc => (by cases hc))
    cases hp
    exact h.cells cell (hcells ▸ List.mem_cons_self)

end InvokeNames

lemma lookupPool_names (hmap : MapNames s) {target : GoString}
    (h : lookupPool s target = some (some p)) : p < s.connPools.length := by
  unfold lookupPool at h
  split at h
  · cases h
  · exact hmap target p (Option.some.inj h)

lemma insertPool_names (hmap : MapNames s) {target : GoString}
    (h : insertPool cfg s target = some (op, p)) : p < (s.apply op).connPools.length := by
  unfold insertPool at h
  split at h
  · cases h
  · split at h
    · next hl =>
      cases h
      exact hmap target p hl
    · cases h
      simp [ClientShared.apply]

lemma invokeStep_names (hmap : MapNames s) (ht : InvokeNames s.connPools.length t)
    (h : invokeStep cfg s id t inp = some (op, t')) :
    InvokeNames (s.apply op).connPools.length t' := by
  have ht' := ht.mono (length_connPools_apply s op)
  obtain ⟨valid, replyType, retry, lastErr, cells, pc⟩ := t
  cases invokeStep_turn h with
  | attempt | cancelled | exhausted | discovered | missing | unwound =>
    exact ht'.goto (fun _ hp => (by cases hp)) (fun hc => (by cases hc))
  | undiscovered => exact ht'.continueWith _
  | closeConn => exact ht'.released.continueWith _
  | found hl =>
    refine ht'.goto (fun p hp => ?_) (fun hc => (by cases hc))
    cases hp
    exact lookupPool_names hmap hl
  | insert hins =>
    refine ht'.goto (fun p hp => ?_) (fun hc => (by cases hc))
    cases hp
    exact insertPool_names hmap hins
  | @get p _ _ out =>
    have hp := ht'.pool p rfl
    cases out with
    | next g => exact ht'.goto (fun _ hp' => (by cases hp'; exact hp)) (fun hc => (by cases hc))
    | got conn =>
      refine ⟨fun _ hp' => (by cases hp'), fun c hc => ?_, fun _ => List.cons_ne_nil _ _⟩
      rcases List.mem_cons.mp hc with rfl | hrest
      · exact hp
      · exact ht'.cells c hrest
    | failed err => exact ht'.continueWith err
  | named | misnamed | refused | admitted | prepared | unprepared | unnumbered | number | write
  | unwritten | unregister | recv | settled =>
    exact ht'.goto (fun _ hp => (by cases hp)) (fun _ => ht.connected rfl)
  | unreceived _ _ _ _ _ hput | unsettled _ _ hput | finish hput => exact ht'.startPut hput
  | @put p _ result _ out =>
    have hp := ht'.pool p rfl
    cases out with
    | some g => exact ht'.goto (fun _ hp' => (by cases hp'; exact hp)) (fun hc => (by cases hc))
    | none =>
      cases result with
      | ok m => exact ht'.goto (fun _ hp => (by cases hp)) (fun hc => (by cases hc))
      | error err => exact ht'.continueWith err
  | @unwind _ cell rest hcells =>
    obtain rfl : cells = _ := hcells
    have hpool := ht'.cells cell List.mem_cons_self
    refine ⟨fun p hp => ?_, fun c hc => ht'.cells c (List.mem_cons_of_mem _ hc), fun hc => ?_⟩
    · cases hrel : cell.connReleased <;> rw [hrel] at hp <;> cases hp
      exact hpool
    · cases hrel : cell.connReleased <;> rw [hrel] at hc <;> cases hc
  | @unwindPut p _ _ _ out =>
    have hp := ht'.pool p rfl
    cases out with
    | some g => exact ht'.goto (fun _ hp' => (by cases hp'; exact hp)) (fun hc => (by cases hc))
    | none => exact ht'.goto (fun _ hp => (by cases hp)) (fun hc => (by cases hc))

lemma heartbeatStep_names {pc pc' : HeartbeatPc} (hmap : MapNames s)
    (hpc : ∀ p ∈ pc.poolOf, p < s.connPools.length)
    (h : heartbeatStep cfg s id pc inp = some (op, pc')) :
    ∀ p ∈ pc'.poolOf, p < (s.apply op).connPools.length := by
  have hle := length_connPools_apply s op
  -- apart from `lookup` and `insert`, a heartbeat stays with its pool
  have hkeep : (∀ p ∈ pc'.poolOf, p ∈ pc.poolOf) →
      ∀ p ∈ pc'.poolOf, p < (s.apply op).connPools.length :=
    fun hsame p hp => (hpc p (hsame p hp)).trans_le hle
  cases heartbeatStep_turn h with
  | discovered | undiscovered | missing => exact hkeep fun _ hp => (by cases hp)
  | found hl =>
    intro p hp
    cases hp
    exact lookupPool_names hmap hl
  | insert hins =>
    intro p hp
    cases hp
    exact insertPool_names hmap hins
  | @get _ _ _ out =>
    cases out with
    | next g => exact hkeep fun _ hp => hp
    | got c => exact hkeep fun _ hp => hp
    | failed err => exact hkeep fun _ hp => (by cases hp)
  | @health _ _ _ _ _ healthy =>
    refine hkeep fun _ hp => ?_
    cases healthy <;> exact hp
  | send | unnumbered | number | write | unwritten | unregister | closeConn =>
    exact hkeep fun _ hp => hp
  | @put _ _ _ out =>
    cases out with
    | some g => exact hkeep fun _ hp => hp
    | none => exact hkeep fun _ hp => (by cases hp)

lemma ThreadNames.mono {th : Thread T} (h : ThreadNames n th) (hle : n ≤ m) : ThreadNames m th := by
  cases th with
  | invoke t => exact InvokeNames.mono h hle
  | heartbeat pc => exact fun p hp => (h p hp).trans_le hle
  | prewarm p pc => exact lt_of_lt_of_le h hle
  | closer kind pc => trivial

lemma threadStep_names {th th' : Thread T} (hmap : MapNames s)
    (hth : ThreadNames s.connPools.length th) (h : threadStep cfg s id th inp = some (op, th')) :
    ThreadNames (s.apply op).connPools.length th' := by
  cases threadStep_move h with
  | invoke hr => exact invokeStep_names hmap hth hr
  | heartbeat hr => exact heartbeatStep_names hmap hth hr
  | prewarm _ => exact hth.mono (length_connPools_apply s op)
  | closer _ => trivial

end Names

section Run

variable {cfg : ClientConfig V T} {s t : ClientState T} {a : ClientAction T}

lemma named_step (hs : Named s) (h : clientStep cfg s a = some t) : Named t := by
  cases clientStep_move h with
  | @run i inp th op th' hi hstep =>
    have hle := length_connPools_apply s.shared op
    refine ⟨mapNames_apply hs.map op, fun x hx => ?_⟩
    rcases List.mem_append.mp hx with hset | hnew
    · rcases List.mem_or_eq_of_mem_set hset with hold | rfl
      · exact (hs.threads x hold).mono hle
      · exact threadStep_names hs.map (hs.threads th (List.mem_of_getElem? hi)) hstep
    · cases op <;> simp only [spawned, List.not_mem_nil, List.mem_singleton] at hnew
      subst hnew
      simp [ThreadNames, ClientShared.apply]
  | answer _ _ => exact ⟨hs.map, hs.threads⟩
  | start a =>
    refine ⟨hs.map, fun x hx => ?_⟩
    rcases List.mem_append.mp hx with hold | hnew
    · exact hs.threads x hold
    · cases a <;> simp only [newThread, List.not_mem_nil, List.mem_singleton] at hnew <;>
        subst hnew
      · exact ⟨fun _ hp => (by cases hp), fun _ hc => (by cases hc), fun hc => (by cases hc)⟩
      · exact fun _ hp => (by cases hp)
      · trivial
      · trivial

lemma named_init : Named (.init : ClientState T) :=
  ⟨fun _ _ hl => (by cases hl), fun _ hth => (by cases hth)⟩

end Run

/-! ### Enabled steps -/

/-- Nobody holds the `p.mu` of a pool. -/
def PoolsFree (s : ClientShared) : Prop := ∀ q ∈ s.connPools, q.locked = false

section Enabled

variable {s : ClientShared} {p : Nat}

lemma isHealthy_fresh (k : ClientConn) (c : Nat) : ∃ r, isHealthy k c .fresh = some r := by
  unfold isHealthy
  split
  · exact ⟨_, rfl⟩
  · exact ⟨_, rfl⟩

lemma getStep_enabled (g : GetPc) (hfree : PoolsFree s) (hp : p < s.connPools.length)
    (hc : ∀ c, (p, c) ∈ g.hands p → ∃ k, s.conns[c]? = some k) :
    ∃ inp op out, getStep s p g inp = some (op, out) := by
  have hq := List.getElem?_eq_getElem hp
  have hlocked := hfree _ (List.getElem_mem hp)
  cases g with
  | check stage c =>
    obtain ⟨k, hk⟩ := hc c (by simp [GetPc.hands])
    exact ⟨.go, _, _, by simp only [getStep, hq, hk]; rfl⟩
  | health stage c =>
    obtain ⟨k, hk⟩ := hc c (by simp [GetPc.hands])
    obtain ⟨r, hr⟩ := isHealthy_fresh k c
    exact ⟨.health .fresh, _, _, by simp only [getStep, hq, hk, hr]; rfl⟩
  | create again =>
    by_cases hmay : s.connPools[p].mayCreate = true
    · exact ⟨.fail [], _, _, by simp only [getStep, hq, hlocked, hmay, if_true]; rfl⟩
    · exact ⟨.fail [], _, _, by simp only [getStep, hq, hlocked, hmay]; rfl⟩
  | popCold =>
    cases hcold : s.connPools[p].coldQueue.getLast? with
    | none => exact ⟨.go, _, _, by simp only [getStep, hq, hlocked, hcold]; rfl⟩
    | some c => exact ⟨.go, _, _, by simp only [getStep, hq, hlocked, hcold]; rfl⟩
  | reload => exact ⟨.go, _, _, by simp only [getStep, hq, hlocked]; rfl⟩
  | wait i =>
    by_cases hi : 5 ≤ i
    · exact ⟨.go, _, _, by simp only [getStep, hq, hi, if_true]; rfl⟩
    · exact ⟨.fail [], _, _, by simp only [getStep, hq, hi, if_false]; rfl⟩
  | _ => exact ⟨.go, _, _, by simp only [getStep, hq]; rfl⟩

lemma putStep_enabled (g : PutPc) (hfree : PoolsFree s) (hp : p < s.connPools.length)
    (hc : ∀ c, (p, c) ∈ g.hands p → ∃ k, s.conns[c]? = some k) :
    ∃ op out, putStep s p g = some (op, out) := by
  have hq := List.getElem?_eq_getElem hp
  have hlocked := hfree _ (List.getElem_mem hp)
  unfold putStep
  rw [hq]
  cases g with
  | check c =>
    obtain ⟨k, hk⟩ := hc c (by simp [PutPc.hands])
    dsimp only
    rw [hk]
    exact ⟨_, _, rfl⟩
  | markIdle c => exact ⟨_, _, rfl⟩
  | sendHot c =>
    dsimp only
    split
    · exact ⟨_, _, rfl⟩
    · split <;> exact ⟨_, _, rfl⟩
  | pushCold c =>
    dsimp only
    rw [hlocked]
    cases s.connPools[p].closed with
    | true => exact ⟨_, _, rfl⟩
    | false => exact ⟨_, _, rfl⟩

lemma startPut_enabled {t : InvokeThread T} (result : Except GoString Message)
    (h : t.cells ≠ []) : ∃ t', t.startPut result = some t' := by
  unfold InvokeThread.startPut
  split
  · next hnil => exact absurd hnil h
  · exact ⟨_, rfl⟩

lemma insertPool_enabled (cfg : ClientConfig V T) (hmu : s.muHeld = false) (target : GoString) :
    ∃ op p, insertPool cfg s target = some (op, p) := by
  unfold insertPool
  rw [hmu]
  cases s.pools.lookup target with
  | none => exact ⟨_, _, rfl⟩
  | some p => exact ⟨_, _, rfl⟩

/-- While nobody holds `c.mu` or a `p.mu`, an Invoke that has not returned can take a step. -/
lemma invokeStep_enabled (cfg : ClientConfig V T) (id : Nat) {t : InvokeThread T}
    (hmu : s.muHeld = false) (hfree : PoolsFree s) (ht : InvokeNames s.connPools.length t)
    (hc : ∀ p c, (p, c) ∈ t.hands → ∃ k, s.conns[c]? = some k)
    (hpc : ∀ result, t.pc ≠ .done result) :
    ∃ inp op t', invokeStep cfg s id t inp = some (op, t') := by
  obtain ⟨valid, replyType, retry, lastErr, cells, pc⟩ := t
  cases pc with
  | top =>
    by_cases hle : (retry : Int) ≤ cfg.maxRetries
    · exact ⟨.go, _, _, by simp only [invokeStep, hle, if_true]; rfl⟩
    · exact ⟨.go, _, _, by simp only [invokeStep, hle, if_false]; rfl⟩
  | discover => exact ⟨.fail [], _, _, rfl⟩
  | lookup target =>
    cases hl : s.pools.lookup target with
    | none => exact ⟨.go, _, _, by simp only [invokeStep, lookupPool, hmu, hl]; rfl⟩
    | some p => exact ⟨.go, _, _, by simp only [invokeStep, lookupPool, hmu, hl]; rfl⟩
  | insert target =>
    obtain ⟨op, p, hp⟩ := insertPool_enabled cfg hmu target
    exact ⟨.go, _, _, by simp only [invokeStep, hp]; rfl⟩
  | get p g =>
    have hhands : ∀ c, (p, c) ∈ g.hands p → ∃ k, s.conns[c]? = some k :=
      fun c hmem => hc p c (List.mem_append_left _ hmem)
    obtain ⟨inp, op, out, hg⟩ := getStep_enabled g hfree (ht.pool p rfl) hhands
    cases out with
    | next g' => exact ⟨inp, _, _, by simp only [invokeStep, hg]; rfl⟩
    | got c => exact ⟨inp, _, _, by simp only [invokeStep, hg]; rfl⟩
    | failed err => exact ⟨inp, _, _, by simp only [invokeStep, hg]; rfl⟩
  | newCall =>
    cases valid with
    | true => exact ⟨.go, _, _, rfl⟩
    | false => exact ⟨.go, _, _, rfl⟩
  | closingCheck =>
    cases hcl : s.closing with
    | true => exact ⟨.go, _, _, by simp only [invokeStep, hmu, hcl]; rfl⟩
    | false => exact ⟨.go, _, _, by simp only [invokeStep, hmu, hcl]; rfl⟩
  | prepare => exact ⟨.go, _, _, rfl⟩
  | number =>
    cases hcl : s.closing with
    | true => exact ⟨.go, _, _, by simp only [invokeStep, hmu, hcl]; rfl⟩
    | false => exact ⟨.go, _, _, by simp only [invokeStep, hmu, hcl]; rfl⟩
  | write seq =>
    cases cells with
    | nil => exact absurd rfl (ht.connected rfl)
    | cons cell rest => exact ⟨.fail [], _, _, rfl⟩
  | unregister seq err => exact ⟨.go, _, _, by simp only [invokeStep, hmu]; rfl⟩
  | closeConn err =>
    cases cells with
    | nil => exact absurd rfl (ht.connected rfl)
    | cons cell rest => exact ⟨.go, _, _, rfl⟩
  | recv =>
    cases cells with
    | nil => exact absurd rfl (ht.connected rfl)
    | cons cell rest =>
      obtain ⟨k, hk⟩ := hc cell.pool cell.conn List.mem_cons_self
      -- the read fails before it has delivered a byte
      cases hr : (recvFrame cfg k 0 []).1 with
      | ok res =>
        exact ⟨.read 0 [], _, _, by
          simp only [invokeStep, hk, hr, ne_eq, not_true_eq_false, and_false, if_false]; rfl⟩
      | error fault =>
        exact ⟨.read 0 [], _, _, by
          simp only [invokeStep, hk, hr, ne_eq, not_true_eq_false, and_false, if_false]; rfl⟩
  | settle res =>
    cases hp : takePending s.calls.pending res.header.seq with
    | error err =>
      obtain ⟨u, hu⟩ := startPut_enabled (.error err) (ht.connected rfl)
      exact ⟨.go, _, _, by simp only [invokeStep, hmu, hp, hu]; rfl⟩
    | ok seq => exact ⟨.go, _, _, by simp only [invokeStep, hmu, hp]; rfl⟩
  | finish res =>
    cases cells with
    | nil => exact absurd rfl (ht.connected rfl)
    | cons cell rest => exact ⟨.go, _, _, rfl⟩
  | put p g result =>
    have hhands : ∀ c, (p, c) ∈ g.hands p → ∃ k, s.conns[c]? = some k :=
      fun c hmem => hc p c (List.mem_append_left _ hmem)
    obtain ⟨op, out, hg⟩ := putStep_enabled g hfree (ht.pool p rfl) hhands
    cases out with
    | none => exact ⟨.go, _, _, by simp only [invokeStep, hg]; rfl⟩
    | some g' => exact ⟨.go, _, _, by simp only [invokeStep, hg]; rfl⟩
  | unwind result =>
    cases cells with
    | nil => exact ⟨.go, _, _, rfl⟩
    | cons cell rest => exact ⟨.go, _, _, rfl⟩
  | unwindPut p g result =>
    have hhands : ∀ c, (p, c) ∈ g.hands p → ∃ k, s.conns[c]? = some k :=
      fun c hmem => hc p c (List.mem_append_left _ hmem)
    obtain ⟨op, out, hg⟩ := putStep_enabled g hfree (ht.pool p rfl) hhands
    cases out with
    | none => exact ⟨.go, _, _, by simp only [invokeStep, hg]; rfl⟩
    | some g' => exact ⟨.go, _, _, by simp only [invokeStep, hg]; rfl⟩
  | done result => exact absurd rfl (hpc result)

lemma heartbeatStep_enabled (cfg : ClientConfig V T) (id : Nat) {pc : HeartbeatPc}
    (hmu : s.muHeld = false) (hfree : PoolsFree s) (hp : ∀ p ∈ pc.poolOf, p < s.connPools.length)
    (hc : ∀ p c, (p, c) ∈ pc.hands → ∃ k, s.conns[c]? = some k) (hpc : pc ≠ .done) :
    ∃ inp op pc', heartbeatStep cfg s id pc inp = some (op, pc') := by
  cases pc with
  | discover => exact ⟨.fail [], _, _, rfl⟩
  | lookup target =>
    cases hl : s.pools.lookup target with
    | none => exact ⟨.go, _, _, by simp only [heartbeatStep, lookupPool, hmu, hl]; rfl⟩
    | some p => exact ⟨.go, _, _, by simp only [heartbeatStep, lookupPool, hmu, hl]; rfl⟩
  | insert target =>
    obtain ⟨op, p, hp⟩ := insertPool_enabled cfg hmu target
    exact ⟨.go, _, _, by simp only [heartbeatStep, hp]; rfl⟩
  | get p g =>
    obtain ⟨inp, op, out, hg⟩ := getStep_enabled g hfree (hp p rfl) (hc p)
    cases out with
    | next g' => exact ⟨inp, _, _, by simp only [heartbeatStep, hg]; rfl⟩
    | got c => exact ⟨inp, _, _, by simp only [heartbeatStep, hg]; rfl⟩
    | failed err => exact ⟨inp, _, _, by simp only [heartbeatStep, hg]; rfl⟩
  | health p c =>
    obtain ⟨k, hk⟩ := hc p c List.mem_cons_self
    obtain ⟨r, hr⟩ := isHealthy_fresh k c
    exact ⟨.health .fresh, _, _, by simp only [heartbeatStep, hk, hr]; rfl⟩
  | send p c =>
    cases hm : heartbeatMessage cfg 0 with
    | ok m => exact ⟨.deadline 0, _, _, by simp only [heartbeatStep, hm]; rfl⟩
    | error fault => exact ⟨.deadline 0, _, _, by simp only [heartbeatStep, hm]; rfl⟩
  | number p c =>
    cases hcl : s.closing with
    | true => exact ⟨.go, _, _, by simp only [heartbeatStep, hmu, hcl]; rfl⟩
    | false => exact ⟨.go, _, _, by simp only [heartbeatStep, hmu, hcl]; rfl⟩
  | write p c seq =>
    obtain ⟨k, hk⟩ := hc p c List.mem_cons_self
    exact ⟨.fail [], _, _, by simp only [heartbeatStep, hk]; rfl⟩
  | unregister p c seq => exact ⟨.go, _, _, by simp only [heartbeatStep, hmu]; rfl⟩
  | closeConn p c => exact ⟨.go, _, _, rfl⟩
  | put p g =>
    obtain ⟨op, out, hg⟩ := putStep_enabled g hfree (hp p rfl) (hc p)
    cases out with
    | none => exact ⟨.go, _, _, by simp only [heartbeatStep, hg]; rfl⟩
    | some g' => exact ⟨.go, _, _, by simp only [heartbeatStep, hg]; rfl⟩
  | done => exact absurd rfl hpc

lemma prewarmStep_enabled {pc : PrewarmPc} (hfree : PoolsFree s) (hp : p < s.connPools.length)
    (hpc : pc ≠ .done) : ∃ inp op pc', prewarmStep s p pc inp = some (op, pc') := by
  have hq := List.getElem?_eq_getElem hp
  have hlocked := hfree _ (List.getElem_mem hp)
  cases pc with
  | check left =>
    cases left with
    | zero => exact ⟨.go, _, _, by simp only [prewarmStep, hq]; rfl⟩
    | succ left => exact ⟨.go, _, _, by simp only [prewarmStep, hq]; rfl⟩
  | dial left => exact ⟨.go, _, _, by simp only [prewarmStep, hq]; rfl⟩
  | add left c => exact ⟨.go, _, _, by simp only [prewarmStep, hq, hlocked]; rfl⟩
  | done => exact absurd rfl hpc

lemma closeStep_enabled (g : ClosePc) (hfree : PoolsFree s) (hp : p < s.connPools.length) :
    ∃ op out, closeStep s p g = some (op, out) := by
  have hq := List.getElem?_eq_getElem hp
  have hlocked := hfree _ (List.getElem_mem hp)
  unfold closeStep
  rw [hq]
  cases g with
  | start =>
    dsimp only
    rw [hlocked]
    cases s.connPools[p].closed with
    | true => exact ⟨_, _, rfl⟩
    | false => exact ⟨_, _, rfl⟩
  | closing conns =>
    cases conns with
    | nil => exact ⟨_, _, rfl⟩
    | cons c rest => exact ⟨_, _, rfl⟩
  | drain =>
    dsimp only
    split <;> exact ⟨_, _, rfl⟩
  | closeHot => exact ⟨_, _, rfl⟩
  | drained c => exact ⟨_, _, rfl⟩
  | reset => exact ⟨_, _, rfl⟩

/-- Whoever holds a `p.mu` needs nobody to go on. -/
lemma count_enabled (cfg : ClientConfig V T) (id : Nat) {th : Thread T} {c : Nat}
    (hin : th.inGet = some (p, .count c)) (hp : p < s.connPools.length) :
    ∃ th', threadStep cfg s id th .go = some (.count p c, th') ∧ th'.inGet = some (p, .mark c) := by
  have hget : getStep s p (.count c) .go = some (.count p c, .next (.mark c)) := by
    simp only [getStep, List.getElem?_eq_getElem hp]
  rcases inGet_cases hin with ⟨t, rfl, hpc⟩ | rfl
  · obtain ⟨valid, replyType, retry, lastErr, cells, pc⟩ := t
    cases hpc
    exact ⟨_, by simp only [threadStep, invokeStep, hget]; rfl, rfl⟩
  · exact ⟨_, by simp only [threadStep, heartbeatStep, hget]; rfl, rfl⟩

/-- Whoever holds `c.mu` needs no outcome of the network to go on, but may wait for a `p.mu`. -/
lemma closerStep_enabled {kind : CloserKind} {pc : CloserPc} (hmap : MapNames s) (hfree : PoolsFree s)
    (hok : CloserOk s kind pc) (hmu : pc.holdsMu = true) :
    ∃ op pc', closerStep s kind pc .go = some (op, pc') := by
  cases pc with
  | start => cases hmu
  | pools todo =>
    cases todo with
    | nil => cases kind <;> exact ⟨_, _, rfl⟩
    | cons target todo =>
      cases hl : s.pools.lookup target with
      | none => exact ⟨_, _, by simp only [closerStep, hl]; rfl⟩
      | some p => exact ⟨_, _, by simp only [closerStep, hl]; rfl⟩
  | pool target p g todo =>
    obtain ⟨op, out, hg⟩ :=
      closeStep_enabled g hfree (hmap target p (hok.current target p g todo rfl))
    cases out with
    | some g' => exact ⟨_, _, by simp only [closerStep, hg]; rfl⟩
    | none => cases kind <;> exact ⟨_, _, by simp only [closerStep, hg]; rfl⟩
  | remove target todo => exact ⟨_, _, rfl⟩
  | done => cases hmu

/-- `Client.Close` and `UpdateServers` can start while nobody holds `c.mu`. -/
lemma closerStep_start_enabled (kind : CloserKind) (hmu : s.muHeld = false) :
    ∃ inp op pc', closerStep s kind .start inp = some (op, pc') := by
  cases kind with
  | close =>
    cases hcl : s.closing with
    | true => exact ⟨.targets [], _, _, by simp only [closerStep, hmu, hcl]; rfl⟩
    | false =>
      refine ⟨.targets (CloserKind.close.targets s), .lock true,
        .pools (CloserKind.close.targets s), ?_⟩
      simp [closerStep, hmu, hcl]
  | update servers =>
    refine ⟨.targets ((CloserKind.update servers).targets s), .lock false,
      .pools ((CloserKind.update servers).targets s), ?_⟩
    simp [closerStep, hmu]

end Enabled

end Proofs

end Zrpc
