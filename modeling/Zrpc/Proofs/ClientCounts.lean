import Zrpc.Proofs.ClientOwnership

/-!
# What a step means for `created`

`created` counts the connections of a pool that are not closed, but for two kinds of goroutines: a
`get` between `Close` and the decrement, and one that prewarms or is in `createNewConn` between the
dial and the increment.
Two places close a connection without counting: `Invoke` after a failed send, and `sendHeartbeat`.
-/

namespace Zrpc

variable {V T : Type}

/-- Counts a place in `get` of pool `p` that `f` marks. -/
def getShare (f : GetPc → Bool) (p : Nat) : Option (Nat × GetPc) → Nat
  | some (p', g) => if p' = p ∧ f g = true then 1 else 0
  | none => 0

/-- `get` has closed a connection of pool `p` that is still counted. -/
def Thread.uncounted (p : Nat) (th : Thread T) : Nat := getShare GetPc.uncounted p th.inGet

/-- `prewarmConnections` has dialled a connection of pool `p` that is not counted yet. -/
def PrewarmPc.adding (p p' : Nat) : PrewarmPc → Nat
  | .add _ _ => if p' = p then 1 else 0
  | _ => 0

/-- `prewarmConnections` or `createNewConn` has dialled a connection of pool `p` that is not counted
yet. -/
def Thread.adding (p : Nat) : Thread T → Nat
  | .prewarm p' pc => pc.adding p p'
  | th => getShare GetPc.adding p th.inGet

/-- The goroutine is about to close a connection of pool `p` without decrementing `created`. -/
def Thread.closesUncounted (p : Nat) : Thread T → Bool
  | .invoke t => match t.pc, t.cells with
    | .closeConn _, cell :: _ => cell.pool == p
    | _, _ => false
  | .heartbeat (.closeConn p' _) => p' == p
  | _ => false

/-- The goroutine is about to close pool `p`. -/
def Thread.closesPool (p : Nat) : Thread T → Bool
  | .closer _ (.pool _ p' .start _) => p' == p
  | _ => false

/-- The goroutine is not inside `get`, `put` or `prewarmConnections` of pool `p`. -/
def Thread.quiet (p : Nat) : Thread T → Bool
  | .invoke t => match t.pc with
    | .get p' _ | .put p' _ _ | .unwindPut p' _ _ => p' != p
    | _ => true
  | .heartbeat pc => match pc with
    | .get p' _ | .put p' _ => p' != p
    | _ => true
  | .prewarm p' pc => match pc with
    | .done => true
    | _ => p' != p
  | .closer _ _ => true

def openConns (p : Nat) (s : ClientShared) : Nat :=
  s.conns.countP (fun k => k.pool == p && !k.sockClosed)

/-- Operations that leave pool `p` and the open connections alone. -/
def ClientOp.spares (p : Nat) : ClientOp → Bool
  | .dial p' | .create p' | .count p' _ | .addPrewarmed p' _ | .decrement p' | .closePool p'
  | .resetCreated p' => p' != p
  | .close _ | .closeCounted _ _ => false
  | .mark _ status => status != .closed
  | _ => true

/-- Operations after which connection `c` counts as closed. -/
def ClientOp.closes (c : Nat) : ClientOp → Bool
  | .close c' | .closeCounted _ c' => c' == c
  | .mark c' status => c' == c && status == .closed
  | _ => false

namespace Proofs

open Zrpc.Lib

/-- What a step means for the counter of pool `p`, where the connections a goroutine can name are
those in `K`. -/
inductive CountMove (K : Nat × Nat → Prop) (p : Nat) (s : ClientShared) (th : Thread T) :
    ClientOp → Thread T → Prop
  | neutral {op th'} (hop : op.spares p = true) (hu : th'.uncounted p = th.uncounted p)
    (ha : th'.adding p = th.adding p) : CountMove K p s th op th'
  | foreign {op th' p' c} (hop : op = .close c ∨ op = .closeCounted p' c) (hp : p' ≠ p)
    (hK : K (p', c)) (hu : th'.uncounted p = th.uncounted p) (ha : th'.adding p = th.adding p) :
    CountMove K p s th op th'
  | dial {op th'} (hop : op = .dial p ∨ op = .create p) (hu : th'.uncounted p = th.uncounted p)
    (ha : th'.adding p = th.adding p + 1) : CountMove K p s th op th'
  | add {q op th' c} (hq : s.connPools[p]? = some q) (hop : op = .addPrewarmed p c ∨ op = .count p c)
    (hu : th'.uncounted p = th.uncounted p) (ha : th'.adding p + 1 = th.adding p) :
    CountMove K p s th op th'
  | release {th' c} (hc : (p, c) ∈ th.hands)
    (hands : ∀ w, weigh w th'.hands + w (p, c) = weigh w th.hands)
    (hu : th'.uncounted p = th.uncounted p + 1) (ha : th'.adding p = th.adding p) :
    CountMove K p s th (.close c) th'
  | decrement {q th'} (hq : s.connPools[p]? = some q) (hu : th'.uncounted p + 1 = th.uncounted p)
    (ha : th'.adding p = th.adding p) : CountMove K p s th (.decrement p) th'
  | discard {th' c} (hth : th.closesUncounted p = true) (hc : (p, c) ∈ th.hands)
    (hands : (∀ w, weigh w th'.hands + w (p, c) = weigh w th.hands) ∨
      th' = .heartbeat (.put p (.check c)))
    (hu : th'.uncounted p = th.uncounted p) (ha : th'.adding p = th.adding p) :
    CountMove K p s th (.close c) th'

section Programs

variable {K : Nat × Nat → Prop} {p : Nat} {s : ClientShared} {th th' : Thread T} {op : ClientOp}
  {inp : Input}

lemma spares_of_isLocal (h : op.isLocal = true) : op.spares p = true := by
  cases op <;> first | rfl | cases h

lemma spares_of_isLocking (h : op.isLocking = true) : op.spares p = true := by
  cases op <;> first | rfl | cases h

lemma spares_of_isHealthy {k : ClientConn} {c : Nat} {h : Health} {healthy : Bool}
    (ho : isHealthy k c h = some (op, healthy)) : op.spares p = true := by
  rcases isHealthy_op ho with rfl | ⟨rfl, -⟩ <;> rfl

lemma getShare_of_closedCheck {f : GetPc → Bool} {x : Option (Nat × GetPc)}
    (hf : f .closedCheck = false) (hx : ∀ y ∈ x, y.2 = .closedCheck) : getShare f p x = 0 := by
  cases x with
  | none => rfl
  | some y =>
    obtain ⟨p', g⟩ := y
    cases hx _ rfl
    simp [getShare, hf]

/-- A step outside `get` changes nothing about it. -/
lemma GetSpan.share {f : GetPc → Bool} (h : GetSpan s inp th op th') (hin : th.inGet = none)
    (hf : f .closedCheck = false) : getShare f p th'.inGet = getShare f p th.inGet := by
  cases h with
  | inside hin' _ _ =>
    rw [hin] at hin'
    cases hin'
  | outside _ hin' _ => rw [getShare_of_closedCheck hf hin', hin, getShare]

/-- A step of `get` on pool `p'`, in a goroutine that holds `rest` besides. -/
lemma getStep_counts {p' : Nat} {g : GetPc} {out : GetOut} (rest : List (Nat × Nat))
    (h : getStep s p' g inp = some (op, out)) (hin : th.inGet = some (p', g))
    (hin' : th'.inGet = out.inGet p') (hadd : th.adding p = getShare GetPc.adding p th.inGet)
    (hadd' : th'.adding p = getShare GetPc.adding p th'.inGet) (hh : th.hands = g.hands p' ++ rest)
    (hh' : th'.hands = out.hands p' ++ rest) (hK : ∀ x ∈ th.hands, K x) :
    CountMove K p s th op th' := by
  have hu : th.uncounted p = getShare GetPc.uncounted p (some (p', g)) := congrArg _ hin
  have hu' : th'.uncounted p = getShare GetPc.uncounted p (out.inGet p') := congrArg _ hin'
  have ha : th.adding p = getShare GetPc.adding p (some (p', g)) := hadd.trans (congrArg _ hin)
  have ha' : th'.adding p = getShare GetPc.adding p (out.inGet p') := hadd'.trans (congrArg _ hin')
  have hbal : g.Balanced → th.uncounted p = 0 ∧ th.adding p = 0 := by
    intro hg
    simp [hu, ha, getShare, hg.1, hg.2]
  have hbal' : out.Balanced → th'.uncounted p = 0 ∧ th'.adding p = 0 := by
    intro hout
    cases out with
    | next g' => simp [hu', ha', GetOut.inGet, getShare, hout.1, hout.2]
    | got c => exact ⟨hu', ha'⟩
    | failed err => exact ⟨hu', ha'⟩
  have hneutral : op.spares p = true → g.Balanced → out.Balanced → CountMove K p s th op th' :=
    fun hop hg hout => .neutral hop ((hbal' hout).1.trans (hbal hg).1.symm)
      ((hbal' hout).2.trans (hbal hg).2.symm)
  cases getStep_move h with
  | look hg _ hout => exact hneutral rfl hg hout
  | recvHot _ _ hg => exact hneutral rfl hg ⟨rfl, rfl⟩
  | popCold _ _ hg => exact hneutral rfl hg ⟨rfl, rfl⟩
  | @health stage c k h op healthy hg _ _ hcheck =>
    subst hg
    exact hneutral (spares_of_isHealthy hcheck) ⟨rfl, rfl⟩ (by cases healthy <;> exact ⟨rfl, rfl⟩)
  | mark hg =>
    subst hg
    exact hneutral rfl ⟨rfl, rfl⟩ trivial
  | @release stage c hg =>
    subst hg
    have hmem : (p', c) ∈ th.hands := by simp [hh, GetPc.hands]
    have hadd0 : th'.adding p = th.adding p := by
      simp [ha, ha', GetOut.inGet, getShare, GetPc.adding]
    by_cases hp : p' = p
    · subst hp
      refine .release hmem ?_ ?_ hadd0
      · intro w
        simp only [hh, hh', weigh_append, GetOut.hands, GetPc.hands, weigh_cons, weigh_nil]
        omega
      · simp [hu, hu', GetOut.inGet, getShare, GetPc.uncounted]
    · exact .foreign (.inl rfl) hp (hK _ hmem) (by simp [hu, hu', GetOut.inGet, getShare, hp]) hadd0
  | @decrement q stage hq hg =>
    subst hg
    have hadd0 : th'.adding p = th.adding p := by
      cases stage <;> simp [ha, ha', GetOut.inGet, getShare, GetPc.adding, GetStage.next]
    by_cases hp : p' = p
    · subst hp
      refine .decrement hq ?_ hadd0
      cases stage <;> simp [hu, hu', GetOut.inGet, getShare, GetPc.uncounted, GetStage.next]
    · exact .neutral (by simp [ClientOp.spares, hp]) (by simp [hu, hu', GetOut.inGet, getShare, hp])
        hadd0
  | @create q again hq _ hg =>
    subst hg
    have hunc0 : th'.uncounted p = th.uncounted p := by
      simp [hu, hu', GetOut.inGet, getShare, GetPc.uncounted]
    by_cases hp : p' = p
    · subst hp
      exact .dial (.inr rfl) hunc0 (by simp [ha, ha', GetOut.inGet, getShare, GetPc.adding])
    · exact .neutral (by simp [ClientOp.spares, hp]) hunc0
        (by simp [ha, ha', GetOut.inGet, getShare, hp])
  | @count q c hq hg =>
    subst hg
    have hunc0 : th'.uncounted p = th.uncounted p := by
      simp [hu, hu', GetOut.inGet, getShare, GetPc.uncounted]
    by_cases hp : p' = p
    · subst hp
      exact .add hq (.inr rfl) hunc0 (by simp [ha, ha', GetOut.inGet, getShare, GetPc.adding])
    · exact .neutral (by simp [ClientOp.spares, hp]) hunc0
        (by simp [ha, ha', GetOut.inGet, getShare, hp])

lemma putStep_counts {p' : Nat} {g : PutPc} {out : Option PutPc} (rest : List (Nat × Nat))
    (h : putStep s p' g = some (op, out)) (hu : th'.uncounted p = th.uncounted p)
    (ha : th'.adding p = th.adding p) (hh : th.hands = g.hands p' ++ rest)
    (hK : ∀ x ∈ th.hands, K x) (hopen : ∀ q, s.connPools[p]? = some q → q.closed = false) :
    CountMove K p s th op th' := by
  cases putStep_move h with
  | drop hop => exact .neutral (by rcases hop with rfl | rfl <;> rfl) hu ha
  | keep _ => exact .neutral rfl hu ha
  | mark _ => exact .neutral rfl hu ha
  | give hop _ => exact .neutral (by rcases hop with rfl | rfl <;> rfl) hu ha
  | @discard q c hq hclosed hands =>
    have hp : p' ≠ p := by
      rintro rfl
      rw [hopen q hq] at hclosed
      cases hclosed
    exact .foreign (.inr rfl) hp (hK _ (by simp [hh, hands])) hu ha

variable {cfg : ClientConfig V T} {id : Nat}

lemma invokeStep_counts {t t' : InvokeThread T} (h : invokeStep cfg s id t inp = some (op, t'))
    (hK : ∀ x ∈ t.hands, K x) (hopen : ∀ q, s.connPools[p]? = some q → q.closed = false) :
    CountMove K p s (.invoke t) op (.invoke t') := by
  have hstep : threadStep cfg s id (.invoke t) inp = some (op, .invoke t') := by
    rw [threadStep, h]
    rfl
  have hspan := threadStep_getSpan hstep
  have hu : (Thread.invoke t).inGet = none →
      (Thread.invoke t').uncounted p = (Thread.invoke t).uncounted p := (hspan.share · rfl)
  have ha : (Thread.invoke t).inGet = none →
      (Thread.invoke t').adding p = (Thread.invoke t).adding p := (hspan.share · rfl)
  cases invokeStep_move h with
  | other hl =>
    have hin : (Thread.invoke t).inGet = none := by
      simp only [Thread.inGet]
      split
      · next hpc => exact absurd hpc (hl.outside _ _)
      · rfl
    exact .neutral (spares_of_isLocal hl.op) (hu hin) (ha hin)
  | @get p' g _ out hpc hget =>
    refine getStep_counts _ hget (by simp [Thread.inGet, hpc]) ?_ rfl rfl (hands_get hpc) ?_ hK
    · cases out <;> rfl
    · cases out <;> rfl
  | write hpc _ _ _ =>
    have hin : (Thread.invoke t).inGet = none := by simp [Thread.inGet, hpc]
    exact .neutral rfl (hu hin) (ha hin)
  | @closeConn err cell rest hpc hcells =>
    have hin : (Thread.invoke t).inGet = none := by simp [Thread.inGet, hpc]
    have hbefore : t.hands = (cell.pool, cell.conn) :: deferredPuts rest := by
      simp [InvokeThread.hands, hpc, hcells, usedAndDeferred]
    have hmem : (cell.pool, cell.conn) ∈ t.hands := by simp [hbefore]
    by_cases hp : cell.pool = p
    · subst hp
      refine .discard (by simp [Thread.closesUncounted, hpc, hcells]) hmem (.inl fun w => ?_)
        (hu hin) (ha hin)
      have hafter : (t.released.continueWith err).hands = deferredPuts rest :=
        deferredPuts_released hcells
      simp only [Thread.hands, hbefore, hafter, weigh_cons]
      omega
    · exact .foreign (.inl rfl) hp (hK _ hmem) (hu hin) (ha hin)
  | recv hpc _ _ _ _ _ _ =>
    have hin : (Thread.invoke t).inGet = none := by simp [Thread.inGet, hpc]
    exact .neutral rfl (hu hin) (ha hin)
  | put hpc hput =>
    have hin : (Thread.invoke t).inGet = none := by simp [Thread.inGet, hpc]
    exact putStep_counts _ hput (hu hin) (ha hin) (hands_put hpc) hK hopen
  | unwindPut hpc hput =>
    have hin : (Thread.invoke t).inGet = none := by simp [Thread.inGet, hpc]
    exact putStep_counts _ hput (hu hin) (ha hin) (hands_unwindPut hpc) hK hopen

lemma heartbeatStep_counts {pc pc' : HeartbeatPc}
    (h : heartbeatStep cfg s id pc inp = some (op, pc')) (hK : ∀ x ∈ pc.hands, K x)
    (hopen : ∀ q, s.connPools[p]? = some q → q.closed = false) :
    CountMove K p s (.heartbeat (T := T) pc) op (.heartbeat pc') := by
  have hstep : threadStep cfg s id (.heartbeat pc) inp = some (op, .heartbeat pc') := by
    rw [threadStep, h]
    rfl
  have hspan := threadStep_getSpan hstep
  have hu : (Thread.heartbeat (T := T) pc).inGet = none →
      (Thread.heartbeat (T := T) pc').uncounted p = (Thread.heartbeat (T := T) pc).uncounted p :=
    (hspan.share · rfl)
  have ha : (Thread.heartbeat (T := T) pc).inGet = none →
      (Thread.heartbeat (T := T) pc').adding p = (Thread.heartbeat (T := T) pc).adding p :=
    (hspan.share · rfl)
  cases heartbeatStep_move h with
  | other hop hout _ _ _ _ _ =>
    have hin : (Thread.heartbeat (T := T) pc).inGet = none := by
      cases pc with
      | get p g => exact absurd rfl (hout p g)
      | _ => rfl
    exact .neutral (spares_of_isLocal hop) (hu hin) (ha hin)
  | @get p' g _ out hpc hget =>
    subst hpc
    refine getStep_counts [] hget rfl ?_ rfl rfl (List.append_nil _).symm ?_ hK
    · cases out <;> rfl
    · cases out <;> simp [Thread.hands, HeartbeatPc.hands, HeartbeatPc.afterGet, GetOut.hands]
  | health hpc _ _ hh =>
    subst hpc
    exact .neutral (spares_of_isHealthy hh) (hu rfl) (ha rfl)
  | write hpc _ =>
    subst hpc
    exact .neutral rfl rfl rfl
  | @closeConn p' c hpc =>
    subst hpc
    by_cases hp : p' = p
    · subst hp
      exact .discard (by simp [Thread.closesUncounted]) (List.mem_singleton_self _) (.inr rfl) rfl rfl
    · exact .foreign (.inl rfl) hp (hK _ (List.mem_singleton_self _)) rfl rfl
  | put hpc hput =>
    subst hpc
    exact putStep_counts [] hput (hu rfl) (ha rfl) (List.append_nil _).symm hK hopen

lemma adding_of_hands {p' : Nat} {pc : PrewarmPc} (h : pc.hands p' = []) :
    (Thread.prewarm (T := T) p' pc).adding p = 0 := by
  cases pc with
  | add left c => cases h
  | check left | dial left | done => rfl

lemma prewarmStep_counts {p' : Nat} {pc pc' : PrewarmPc}
    (h : prewarmStep s p' pc inp = some (op, pc')) :
    CountMove K p s (.prewarm (T := T) p' pc) op (.prewarm p' pc') := by
  cases prewarmStep_move h with
  | look hpc hpc' _ =>
    refine .neutral rfl rfl ?_
    rw [adding_of_hands hpc, adding_of_hands hpc']
  | dial _ hpc =>
    subst hpc
    by_cases hp : p' = p
    · subst hp
      exact .dial (.inl rfl) rfl (by simp [Thread.adding, PrewarmPc.adding])
    · exact .neutral (by simp [ClientOp.spares, hp]) rfl (by simp [Thread.adding, PrewarmPc.adding, hp])
  | add hq _ hpc =>
    subst hpc
    by_cases hp : p' = p
    · subst hp
      exact .add hq (.inl rfl) rfl (by simp [Thread.adding, PrewarmPc.adding])
    · exact .neutral (by simp [ClientOp.spares, hp]) rfl (by simp [Thread.adding, PrewarmPc.adding, hp])

lemma closeStep_spares {p' : Nat} {g : ClosePc} {out : Option ClosePc}
    (h : closeStep s p' g = some (op, out)) (hp : p' ≠ p)
    (hlist : ∀ l, g = .closing l → ∀ c ∈ l, K (p', c)) (hdrained : ∀ c, g = .drained c → K (p', c)) :
    op.spares p = true ∨ ∃ c, op = .close c ∧ K (p', c) := by
  cases closeStep_move h with
  | already _ _ _ | listEnd _ | closeHot _ | drain _ _ _ | drainEnd _ _ _ => exact .inl rfl
  | closePool _ _ _ _ => exact .inl (by simp [ClientOp.spares, hp])
  | @listed c _ hg => exact .inr ⟨c, rfl, hlist _ hg c List.mem_cons_self⟩
  | @drained c hg => exact .inr ⟨c, rfl, hdrained c hg⟩
  | reset _ => exact .inl (by simp [ClientOp.spares, hp])

lemma closerStep_counts {kind : CloserKind} {pc pc' : CloserPc}
    (h : closerStep s kind pc inp = some (op, pc')) (hK : ∀ x ∈ pc.hands, K x)
    (hlist : ∀ target p' l todo, pc = .pool target p' (.closing l) todo → ∀ c ∈ l, K (p', c))
    (hout : ∀ target g todo, pc = .pool target p g todo → g = .start) (hop : op ≠ .closePool p) :
    CountMove K p s (.closer (T := T) kind pc) op (.closer kind pc') := by
  have hclose : ∀ {target p' g todo out}, pc = .pool target p' g todo →
      closeStep s p' g = some (op, out) →
      CountMove K p s (.closer (T := T) kind pc) op (.closer kind pc') := by
    intro target p' g todo out hpc hc
    subst hpc
    by_cases hp : p' = p
    · subst hp
      cases hout target g todo rfl
      cases closeStep_move hc with
      | already _ _ _ => exact .neutral rfl rfl rfl
      | closePool _ _ _ _ => exact absurd rfl hop
      | listEnd hg | listed hg | closeHot hg | drain _ _ hg | drainEnd _ _ hg | drained hg
      | reset hg => cases hg
    · have hcases := closeStep_spares (K := K) hc hp
        (fun l hl => hlist target p' l todo (by rw [hl]))
        (fun c hc => hK _ (by rw [hc]; exact List.mem_singleton_self _))
      rcases hcases with hs | ⟨c, hop, hc⟩
      · exact .neutral hs rfl rfl
      · exact .foreign (.inl hop) hp hc rfl rfl
  cases closerStep_move h with
  | other hl => exact .neutral (spares_of_isLocking hl.isLocking) rfl rfl
  | inside hpc hc => exact hclose hpc hc
  | leave hpc hc _ => exact hclose hpc hc

end Programs

/-! ### The shared state -/

section Shared

variable {p : Nat} {s : ClientShared} {op : ClientOp}

def createdOf (p : Nat) (s : ClientShared) : Int := (s.connPools[p]?.map ConnPool.created).getD 0

/-- The share of a connection in `openConns`. -/
def openShare (p : Nat) (k : ClientConn) : Nat := if (k.pool == p && !k.sockClosed) = true then 1 else 0

lemma openConns_eq (p : Nat) (s : ClientShared) :
    openConns p s = tally (fun _ => openShare p) s.conns :=
  (tally_countP _ _).symm

lemma openConns_onConn {c : Nat} {k : ClientConn} (hk : s.conns[c]? = some k)
    (f : ClientConn → ClientConn) :
    openConns p (s.onConn c f) + openShare p k = openConns p s + openShare p (f k) := by
  rw [openConns_eq, openConns_eq]
  exact tally_modify (f := fun _ => openShare p) hk f

lemma openConns_onConn_same {c : Nat} {f : ClientConn → ClientConn}
    (hf : ∀ k, s.conns[c]? = some k → openShare p (f k) = openShare p k) :
    openConns p (s.onConn c f) = openConns p s := by
  cases hk : s.conns[c]? with
  | none =>
    unfold openConns ClientShared.onConn
    rw [modify_of_none hk]
  | some k =>
    have hm := openConns_onConn (p := p) hk f
    rw [hf k hk] at hm
    omega

lemma openConns_addConn (p' : Nat) :
    openConns p (s.addConn p') = openConns p s + if p' = p then 1 else 0 := by
  simp [openConns, ClientShared.addConn, ClientConn.new, List.countP_append, List.countP_cons]

lemma openShare_close {k : ClientConn} (h : k.pool ≠ p) : openShare p k.close = openShare p k := by
  unfold ClientConn.close
  split <;> simp [openShare, h]

lemma openShare_close_le (p : Nat) (k : ClientConn) : openShare p k.close ≤ openShare p k := by
  unfold ClientConn.close
  split
  · exact Nat.le_refl _
  · simp [openShare]

lemma createdOf_onPool {q : ConnPool} (hq : s.connPools[p]? = some q) (f : ConnPool → ConnPool) :
    createdOf p (s.onPool p f) = (f q).created := by
  simp [createdOf, ClientShared.onPool, hq]

lemma createdOf_onPool_same {p' : Nat} {f : ConnPool → ConnPool}
    (hf : p' = p → ∀ q, (f q).created = q.created) :
    createdOf p (s.onPool p' f) = createdOf p s := by
  unfold createdOf ClientShared.onPool
  rw [List.getElem?_modify]
  by_cases hp : p' = p
  · cases hq : s.connPools[p]? with
    | none => rfl
    | some q => simp [hp, hf hp q]
  · simp [hp]

lemma createdOf_of_spares (h : op.spares p = true) : createdOf p (s.apply op) = createdOf p s := by
  cases op with
  | create p' | count p' c | addPrewarmed p' c | decrement p' | resetCreated p' =>
    have hp : p' ≠ p := by simpa [ClientOp.spares] using h
    exact createdOf_onPool_same (fun he => absurd he hp)
  | recvHot p' | sendHot p' c | popCold p' | pushCold p' c | closePool p' | closeHot p' =>
    exact createdOf_onPool_same (fun _ _ => rfl)
  | newPool target size =>
    unfold createdOf ClientShared.apply
    rw [List.getElem?_append]
    split
    · rfl
    · next hlt =>
      rw [List.getElem?_eq_none (not_lt.mp hlt)]
      cases p - s.connPools.length <;> rfl
  | close c | closeCounted p' c => cases h
  | _ => rfl

lemma openConns_of_spares (h : op.spares p = true) : openConns p (s.apply op) = openConns p s := by
  cases op with
  | dial p' | create p' =>
    have hp : p' ≠ p := by simpa [ClientOp.spares] using h
    exact (openConns_addConn p').trans (by simp [hp])
  | mark c status => exact openConns_onConn_same (fun _ _ => rfl)
  | send c r => exact openConns_onConn_same (fun _ _ => rfl)
  | read c n => exact openConns_onConn_same (fun _ _ => rfl)
  | close c | closeCounted p' c => cases h
  | _ => rfl

/-- A pool that is not closed is only closed by `closePool`. -/
lemma closed_apply (hop : op ≠ .closePool p) (h : ∀ q, s.connPools[p]? = some q → q.closed = false) :
    ∀ q, (s.apply op).connPools[p]? = some q → q.closed = false := by
  intro q' hq'
  refine pool_cases (P := fun q => q.closed = false) h (fun _ _ _ _ => rfl) ?_ hq'
  rintro q q' - hq hm
  cases hm with
  | same he | queues he | counter he | create _ he | count _ he | add _ he | closeHot _ he =>
    rw [he]
    exact hq
  | closePool hclose _ => exact absurd hclose hop

end Shared

end Proofs
end Zrpc
