import Mathlib.Data.Set.List
import Zrpc.Lib.Ensures
import Zrpc.ServerOptions

/-!
# Servers of one process

When `NewServer` calls leave each other's servers alone: the calls share one option record, so
what a call appends or sets is seen by every other server.
-/

namespace Zrpc
open Zrpc.Lib

variable {C Q I R TLS H : Type}

/-- What an option appends to `chainMiddlewares` and to `statsHandlers`, and the middleware it
sets. -/
def ServerOpt.chained : ServerOpt C Q I R TLS H → List (Option (ServerMiddleware C Q I R))
  | .withChainMiddleware mws => mws
  | _ => []

def ServerOpt.handlers : ServerOpt C Q I R TLS H → List H
  | .withStatsHandler handler => [handler]
  | _ => []

def ServerOpt.middleware : ServerOpt C Q I R TLS H → Option (ServerMiddleware C Q I R)
  | .withMiddleware mw => mw
  | _ => none

/-- An option that adds neither a middleware nor a stats handler. -/
def ServerOpt.quiet (o : ServerOpt C Q I R TLS H) : Prop :=
  o.middleware = none ∧ o.chained = [] ∧ o.handlers = []

namespace Proofs

/-! ### The middleware chain -/

section Chain
variable {mws : List (Option (ServerMiddleware C Q I R))}

/-- The middlewares of a list around a handler, the first one outermost. -/
def nest (mws : List (Option (ServerMiddleware C Q I R))) (info : I) (handler : Handler C Q R) :
    Handler C Q R :=
  mws.foldr (fun mw inner ctx req => callMiddleware mw ctx req info inner) handler

lemma getChainHandler_eq (mws : List (Option (ServerMiddleware C Q I R))) (pos : Nat) (info : I)
    (handler : Handler C Q R) :
    getChainHandler mws pos info handler = nest (mws.drop (pos + 1)) info handler := by
  fun_induction getChainHandler mws pos info handler with
  | case1 pos h ih =>
    rw [List.drop_eq_getElem_cons h, ih]
    rfl
  | case2 pos h =>
    rw [List.drop_eq_nil_of_le (by omega)]
    rfl

lemma chainMiddlewares_eq (h : mws ≠ []) (ctx : C) (req : Q) (info : I) (handler : Handler C Q R) :
    chainMiddlewares mws ctx req info handler = nest mws info handler ctx req := by
  obtain ⟨mw, rest, rfl⟩ := List.exists_cons_of_ne_nil h
  unfold chainMiddlewares
  rw [getChainHandler_eq]
  rfl

end Chain

/-! ### What one call does to the record -/

section Record
variable {o : ServerOpt C Q I R TLS H} {opts : List (ServerOpt C Q I R TLS H)}
  {x y : FullServerOption C Q I R TLS H} {p q : Process C Q I R TLS H}

/-- The lists of the record grow; its middleware is set at most once. -/
structure Grows (opts : List (ServerOpt C Q I R TLS H)) (x y : FullServerOption C Q I R TLS H) :
    Prop where
  chain : y.chainMiddlewares = x.chainMiddlewares ++ opts.flatMap ServerOpt.chained
  stats : y.statsHandlers = x.statsHandlers ++ opts.flatMap ServerOpt.handlers
  unset : y.srvMiddleware = none ↔ x.srvMiddleware = none ∧ ∀ o ∈ opts, o.middleware = none
  once : x.srvMiddleware ≠ none → ∀ o ∈ opts, o.middleware = none

lemma grows_nil (x : FullServerOption C Q I R TLS H) : Grows [] x x where
  chain := by simp
  stats := by simp
  unset := by simp
  once := by simp

lemma grows_apply (h : o.apply x = .ok y) : Grows [o] x y := by
  cases o with
  | withMiddleware mw =>
    simp only [ServerOpt.apply] at h
    split at h
    · cases h
    · next hsrv =>
      cases h
      constructor <;> simp_all [ServerOpt.chained, ServerOpt.handlers, ServerOpt.middleware]
  | withWorkerPool size | withTaskQueueSize size | withWorkerPoolAdjustInterval size
  | withWorkerPoolSize min max =>
    simp only [ServerOpt.apply, Except.ok.injEq] at h
    split at h <;> subst h <;> constructor <;>
      simp [ServerOpt.chained, ServerOpt.handlers, ServerOpt.middleware]
  | _ =>
    cases h
    constructor <;> simp [ServerOpt.chained, ServerOpt.handlers, ServerOpt.middleware]

lemma Grows.trans {opts' : List (ServerOpt C Q I R TLS H)} {z : FullServerOption C Q I R TLS H}
    (h : Grows opts x y) (h' : Grows opts' y z) : Grows (opts ++ opts') x z where
  chain := by rw [h'.chain, h.chain, List.flatMap_append, List.append_assoc]
  stats := by rw [h'.stats, h.stats, List.flatMap_append, List.append_assoc]
  unset := by
    rw [h'.unset, h.unset, and_assoc, ← List.forall_mem_append]
  once := by
    intro hx
    rw [List.forall_mem_append]
    refine ⟨h.once hx, h'.once fun hy => hx (h.unset.mp hy).1⟩

lemma grows_applyAll (h : applyAll opts x = .ok y) : Grows opts x y := by
  induction opts generalizing x with
  | nil =>
    cases h
    exact grows_nil _
  | cons o opts ih =>
    obtain ⟨z, hz, hrest⟩ := bind_eq_ok h
    exact (grows_apply hz).trans (ih hrest)

lemma chainServerMiddlewares_of_nil (h : x.chainMiddlewares = []) :
    chainServerMiddlewares x = x := by
  unfold chainServerMiddlewares
  rw [h]
  cases x with
  | mk base srv =>
    cases srv <;> cases h <;> rfl

lemma newServer_ok (h : newServer opts p = .ok q) : ∃ x,
    applyAll opts (p.heap defaultServerOption) = .ok x ∧ 0 ≤ x.maxWorkerPoolSize ∧
      q.heap defaultServerOption = chainServerMiddlewares x ∧
      q.servers = p.servers ++ [defaultServerOption] := by
  obtain ⟨x, hx, hrest⟩ := bind_eq_ok h
  obtain ⟨u, hmake, hret⟩ := bind_eq_ok hrest
  cases hret
  refine ⟨x, hx, ?_, by simp, rfl⟩
  unfold makeInt32s at hmake
  split at hmake
  · cases hmake
  · omega

lemma newServer_eq (hx : applyAll opts (p.heap defaultServerOption) = .ok x)
    (hmax : 0 ≤ x.maxWorkerPoolSize) : newServer opts p = .ok
      ⟨Function.update p.heap defaultServerOption (chainServerMiddlewares x),
        p.servers ++ [defaultServerOption]⟩ := by
  have hmake : makeInt32s x.maxWorkerPoolSize = .ok () := if_neg (by omega)
  change (applyAll opts (p.heap defaultServerOption) >>= _) = _
  rw [hx]
  change (makeInt32s x.maxWorkerPoolSize >>= _) = _
  rw [hmake]
  rfl

/-- Configuration of the server that `NewServer(opts...)` makes as the only call. -/
def soleServer (opts : List (ServerOpt C Q I R TLS H)) : Go (FullServerOption C Q I R TLS H) := do
  let p ← newServer opts .init
  return p.heap defaultServerOption

lemma soleServer_ok (h : soleServer opts = .ok x) : ∃ y,
    applyAll opts .initial = .ok y ∧ 0 ≤ y.maxWorkerPoolSize ∧ x = chainServerMiddlewares y := by
  obtain ⟨p, hp, hret⟩ := bind_eq_ok h
  obtain ⟨y, hy, hmax, hheap, -⟩ := newServer_ok hp
  cases hret
  exact ⟨y, hy, hmax, hheap⟩

lemma soleServer_eq (h : newServer opts .init = .ok p) :
    soleServer opts = .ok (p.heap defaultServerOption) := by
  unfold soleServer
  rw [h]
  rfl

/-- The lists of a server's record are what its own options appended. -/
lemma soleServer_lists (h : soleServer opts = .ok x) :
    x.chainMiddlewares = opts.flatMap ServerOpt.chained ∧
    x.statsHandlers = opts.flatMap ServerOpt.handlers ∧
    (x.chainMiddlewares = [] → (x.srvMiddleware = none ↔ ∀ o ∈ opts, o.middleware = none)) := by
  obtain ⟨y, hy, -, rfl⟩ := soleServer_ok h
  have hgrows := grows_applyAll hy
  refine ⟨hgrows.chain, hgrows.stats, fun hnil => ?_⟩
  rw [chainServerMiddlewares_of_nil (x := y) hnil, hgrows.unset]
  exact and_iff_right rfl

/-! ### Options that only assign -/

/-- The fields of the record. -/
inductive Field
  | authFunc | serverErrorFunc | maxReceiveMessageSize | enableWorkerPool | taskQueueSize
  | srvMiddleware | chainMiddlewares | tlsConfig | readTimeout | writeTimeout | maxSendMessageSize
  | workerPoolSize | minWorkerPoolSize | maxWorkerPoolSize | adjustInterval | enableDebug
  | statsHandlers

/-- Two records have the same value in a field. -/
def Field.same (x y : FullServerOption C Q I R TLS H) : Field → Prop
  | .authFunc => x.authFunc = y.authFunc
  | .serverErrorFunc => x.serverErrorFunc = y.serverErrorFunc
  | .maxReceiveMessageSize => x.maxReceiveMessageSize = y.maxReceiveMessageSize
  | .enableWorkerPool => x.enableWorkerPool = y.enableWorkerPool
  | .taskQueueSize => x.taskQueueSize = y.taskQueueSize
  | .srvMiddleware => x.srvMiddleware = y.srvMiddleware
  | .chainMiddlewares => x.chainMiddlewares = y.chainMiddlewares
  | .tlsConfig => x.tlsConfig = y.tlsConfig
  | .readTimeout => x.readTimeout = y.readTimeout
  | .writeTimeout => x.writeTimeout = y.writeTimeout
  | .maxSendMessageSize => x.maxSendMessageSize = y.maxSendMessageSize
  | .workerPoolSize => x.workerPoolSize = y.workerPoolSize
  | .minWorkerPoolSize => x.minWorkerPoolSize = y.minWorkerPoolSize
  | .maxWorkerPoolSize => x.maxWorkerPoolSize = y.maxWorkerPoolSize
  | .adjustInterval => x.adjustInterval = y.adjustInterval
  | .enableDebug => x.enableDebug = y.enableDebug
  | .statsHandlers => x.statsHandlers = y.statsHandlers

lemma eq_of_same (h : ∀ f : Field, f.same x y) : x = y := by
  cases x with
  | mk base =>
    cases y with
    | mk base' =>
      cases base
      cases base'
      simp only [FullServerOption.mk.injEq, ServerOption.mk.injEq]
      exact ⟨⟨h .authFunc, h .serverErrorFunc, h .maxReceiveMessageSize, h .enableWorkerPool,
        h .taskQueueSize⟩, h .srvMiddleware, h .chainMiddlewares, h .tlsConfig, h .readTimeout,
        h .writeTimeout, h .maxSendMessageSize, h .workerPoolSize, h .minWorkerPoolSize,
        h .maxWorkerPoolSize, h .adjustInterval, h .enableDebug, h .statsHandlers⟩

/-- Each field of the record gets the option's own value or stays as it is. -/
def AssignsOrLeaves (o : ServerOpt C Q I R TLS H) (f : Field) : Prop :=
  (∀ x x' y y', o.apply x = .ok x' → o.apply y = .ok y' → f.same x' y') ∨
    ∀ x x', o.apply x = .ok x' → f.same x' x

lemma assignsOrLeaves_of_update {f : Field}
    {set : FullServerOption C Q I R TLS H → FullServerOption C Q I R TLS H}
    (hset : ∀ x, o.apply x = .ok (set x))
    (h : (∀ x y, f.same (set x) (set y)) ∨ ∀ x, f.same (set x) x) : AssignsOrLeaves o f := by
  refine h.imp (fun h x x' y y' hx hy => ?_) fun h x x' hx => ?_
  · cases (hset x).symm.trans hx
    cases (hset y).symm.trans hy
    exact h x y
  · cases (hset x).symm.trans hx
    exact h x

lemma assignsOrLeaves_of_quiet (hq : o.quiet) (f : Field) : AssignsOrLeaves o f := by
  obtain ⟨hmw, hchain, hstats⟩ := hq
  cases o with
  | withMiddleware mw =>
    right
    intro x x' h
    simp only [ServerOpt.apply] at h
    split at h
    · cases h
    · next hsrv =>
      cases h
      cases f with
      | srvMiddleware => exact hmw.trans (Option.not_isSome_iff_eq_none.mp hsrv).symm
      | _ => rfl
  | withChainMiddleware mws =>
    right
    rintro x x' ⟨⟩
    cases f with
    | chainMiddlewares => exact (congrArg _ hchain).trans (List.append_nil _)
    | _ => rfl
  | withStatsHandler handler => cases hstats
  | withWorkerPool size | withTaskQueueSize size | withWorkerPoolAdjustInterval size =>
    by_cases hc : 0 < size
    · refine assignsOrLeaves_of_update (fun x => congrArg Except.ok (if_pos hc)) ?_
      cases f <;> first | exact .inr fun _ => rfl | exact .inl fun _ _ => rfl
    · refine assignsOrLeaves_of_update (fun x => congrArg Except.ok (if_neg hc)) ?_
      cases f <;> first | exact .inr fun _ => rfl | exact .inl fun _ _ => rfl
  | withWorkerPoolSize min max =>
    by_cases hc : 0 < min ∧ min ≤ max
    · refine assignsOrLeaves_of_update (fun x => congrArg Except.ok (if_pos hc)) ?_
      cases f <;> first | exact .inr fun _ => rfl | exact .inl fun _ _ => rfl
    · refine assignsOrLeaves_of_update (fun x => congrArg Except.ok (if_neg hc)) ?_
      cases f <;> first | exact .inr fun _ => rfl | exact .inl fun _ _ => rfl
  | _ =>
    refine assignsOrLeaves_of_update (fun x => rfl) ?_
    cases f <;> first | exact .inr fun _ => rfl | exact .inl fun _ _ => rfl

lemma Field.same.symm {f : Field} (h : f.same x y) : f.same y x := by
  cases f <;> exact Eq.symm h

lemma Field.same.trans {f : Field} {z : FullServerOption C Q I R TLS H} (h : f.same x y)
    (h' : f.same y z) : f.same x z := by
  cases f <;> exact Eq.trans h h'

lemma apply_returns (hx : x.srvMiddleware = none) : ∃ y, o.apply x = .ok y := by
  cases o with
  | withMiddleware mw => exact ⟨_, if_neg (by simp [hx])⟩
  | _ => exact ⟨_, rfl⟩

/-- Quiet options take a record to the same result from every record whose fields each have the
first or the last value. -/
lemma applyAll_between {z : FullServerOption C Q I R TLS H} (hq : ∀ o ∈ opts, o.quiet)
    (hx : applyAll opts x = .ok z) (hsrv : y.srvMiddleware = none)
    (hy : ∀ f : Field, f.same y x ∨ f.same y z) : applyAll opts y = .ok z := by
  induction opts generalizing x y with
  | nil =>
    cases hx
    rw [eq_of_same fun f => or_self_iff.mp (hy f)]
    rfl
  | cons o opts ih =>
    obtain ⟨x', hx', hrest⟩ := bind_eq_ok hx
    obtain ⟨y', hy'⟩ := apply_returns (o := o) hsrv
    have ho := hq o List.mem_cons_self
    have hsrv' : y'.srvMiddleware = none :=
      (grows_apply hy').unset.mpr ⟨hsrv, by simpa using ho.1⟩
    have hnext : ∀ f : Field, f.same y' x' ∨ f.same y' z := by
      intro f
      rcases assignsOrLeaves_of_quiet ho f with hassign | hleave
      · exact .inl (hassign _ _ _ _ hy' hx')
      · refine (hy f).imp (fun h => ?_) fun h => (hleave _ _ hy').trans h
        exact ((hleave _ _ hy').trans h).trans (hleave _ _ hx').symm
    have hstep : applyAll (o :: opts) y = applyAll opts y' := by
      unfold applyAll
      rw [List.foldlM_cons, hy']
      rfl
    rw [hstep]
    exact ih (fun o ho => hq o (List.mem_cons_of_mem _ ho)) hrest hsrv' hnext

lemma chained_of_quiet (hq : ∀ o ∈ opts, o.quiet) : opts.flatMap ServerOpt.chained = [] :=
  List.flatMap_eq_nil_iff.mpr fun o ho => (hq o ho).2.1

lemma soleServer_quiet (hq : ∀ o ∈ opts, o.quiet) (h : soleServer opts = .ok x) :
    applyAll opts .initial = .ok x ∧ 0 ≤ x.maxWorkerPoolSize ∧ x.srvMiddleware = none ∧
      x.chainMiddlewares = [] := by
  obtain ⟨y, hy, hmax, rfl⟩ := soleServer_ok h
  have hgrows := grows_applyAll hy
  have hnil : y.chainMiddlewares = [] := by
    rw [hgrows.chain, chained_of_quiet hq]
    rfl
  rw [chainServerMiddlewares_of_nil hnil]
  exact ⟨hy, hmax, hgrows.unset.mpr ⟨rfl, fun o ho => (hq o ho).1⟩, hnil⟩

/-- A quiet call gives the shared record the call's own configuration, whether or not a call with
that configuration went before. -/
lemma newServer_quiet (hq : ∀ o ∈ opts, o.quiet) (h : soleServer opts = .ok x)
    (hp : p.heap defaultServerOption = .initial ∨ p.heap defaultServerOption = x) :
    ∃ q, newServer opts p = .ok q ∧ q.heap defaultServerOption = x := by
  obtain ⟨hx, hmax, hsrv, hnil⟩ := soleServer_quiet hq h
  have happly : applyAll opts (p.heap defaultServerOption) = .ok x := by
    rcases hp with hp | hp
    · rw [hp, hx]
    · rw [hp]
      exact applyAll_between hq hx hsrv fun f => .inr (by cases f <;> rfl)
  refine ⟨_, newServer_eq happly hmax, ?_⟩
  simp [chainServerMiddlewares_of_nil hnil]

end Record

/-! ### Sequences of calls -/

section Calls
variable {calls : List (List (ServerOpt C Q I R TLS H))} {x : FullServerOption C Q I R TLS H}
  {p q : Process C Q I R TLS H}

lemma newServers_ok (h : newServers calls p = .ok q) :
    q.servers = p.servers ++ List.replicate calls.length defaultServerOption ∧
    (q.heap defaultServerOption).chainMiddlewares =
      (p.heap defaultServerOption).chainMiddlewares ++ calls.flatten.flatMap ServerOpt.chained ∧
    (q.heap defaultServerOption).statsHandlers =
      (p.heap defaultServerOption).statsHandlers ++ calls.flatten.flatMap ServerOpt.handlers := by
  induction calls generalizing p with
  | nil =>
    cases h
    simp
  | cons opts calls ih =>
    obtain ⟨r, hr, hrest⟩ := bind_eq_ok h
    obtain ⟨x, hx, -, hheap, hservers⟩ := newServer_ok hr
    obtain ⟨ihservers, ihchain, ihstats⟩ := ih hrest
    have hgrows := grows_applyAll hx
    refine ⟨?_, ?_, ?_⟩
    · rw [ihservers, hservers, List.length_cons, List.replicate_succ, List.append_assoc]
      rfl
    · rw [ihchain, hheap, List.flatten_cons, List.flatMap_append, ← List.append_assoc, ← hgrows.chain]
      rfl
    · rw [ihstats, hheap, List.flatten_cons, List.flatMap_append, ← List.append_assoc, ← hgrows.stats]
      rfl

lemma configs_newServers (h : newServers calls .init = .ok q) :
    q.configs = List.replicate calls.length (q.heap defaultServerOption) := by
  unfold Process.configs
  rw [(newServers_ok h).1]
  simp [Process.init]

lemma newServers_quiet (hq : ∀ opts ∈ calls, ∀ o ∈ opts, o.quiet)
    (hx : ∀ opts ∈ calls, soleServer opts = .ok x)
    (hp : p.heap defaultServerOption = .initial ∨ p.heap defaultServerOption = x) :
    ∃ q, newServers calls p = .ok q ∧ (calls ≠ [] → q.heap defaultServerOption = x) := by
  induction calls generalizing p with
  | nil => exact ⟨p, rfl, fun h => absurd rfl h⟩
  | cons opts calls ih =>
    rw [List.forall_mem_cons] at hq hx
    obtain ⟨r, hr, hheap⟩ := newServer_quiet hq.1 hx.1 hp
    obtain ⟨q, hrun, hend⟩ := ih hq.2 hx.2 (.inr hheap)
    have hcons : newServers (opts :: calls) p = newServers calls r := by
      unfold newServers
      rw [List.foldlM_cons, hr]
      rfl
    refine ⟨q, hcons.trans hrun, fun _ => ?_⟩
    cases calls with
    | nil =>
      cases hrun
      exact hheap
    | cons opts' calls => exact hend (List.cons_ne_nil _ _)

/-- If every one of two or more lists contributes the whole, there is nothing to contribute. -/
lemma eq_nil_of_shared {α β : Type} {f : α → List β} {calls : List (List α)}
    (hlen : 2 ≤ calls.length)
    (h : ∀ opts ∈ calls, opts.flatMap f = calls.flatten.flatMap f) :
    ∀ opts ∈ calls, ∀ o ∈ opts, f o = [] := by
  match calls, hlen with
  | a :: b :: rest, _ =>
    have hb : b.flatMap f = [] := by
      have heq := congrArg List.length (h a (by simp))
      simp only [List.flatten_cons, List.flatMap_append, List.length_append] at heq
      exact List.length_eq_zero_iff.mp (by omega)
    have hall : (a :: b :: rest).flatten.flatMap f = [] := (h b (by simp)).symm.trans hb
    intro opts hopts
    exact List.flatMap_eq_nil_iff.mp ((h opts hopts).trans hall)

/-- Two or more calls that all have the shared record as their own configuration append nothing to
it and set no middleware. -/
lemma quiet_of_shared (hlen : 2 ≤ calls.length) (hrun : newServers calls .init = .ok q)
    (hx : ∀ opts ∈ calls, soleServer opts = .ok (q.heap defaultServerOption)) :
    ∀ opts ∈ calls, ∀ o ∈ opts, o.quiet := by
  obtain ⟨-, hchain, hstats⟩ := newServers_ok hrun
  have hnochain : ∀ opts ∈ calls, ∀ o ∈ opts, o.chained = [] :=
    eq_nil_of_shared hlen fun opts ho => (soleServer_lists (hx opts ho)).1.symm.trans hchain
  have hnostats : ∀ opts ∈ calls, ∀ o ∈ opts, o.handlers = [] :=
    eq_nil_of_shared hlen fun opts ho => (soleServer_lists (hx opts ho)).2.1.symm.trans hstats
  have hunset : ∀ opts ∈ calls, (q.heap defaultServerOption).srvMiddleware = none ↔
      ∀ o ∈ opts, o.middleware = none := by
    intro opts ho
    obtain ⟨hown, -, hsrv⟩ := soleServer_lists (hx opts ho)
    exact hsrv (hown.trans (List.flatMap_eq_nil_iff.mpr (hnochain opts ho)))
  have hnone : (q.heap defaultServerOption).srvMiddleware = none := by
    match calls, hlen with
    | a :: b :: rest, _ =>
      -- the second call starts from the record the first one left
      obtain ⟨p, hp, hrest⟩ := bind_eq_ok hrun
      obtain ⟨r, hr, -⟩ := bind_eq_ok hrest
      obtain ⟨y, hy, -⟩ := newServer_ok hr
      have hfirst : p.heap defaultServerOption = q.heap defaultServerOption :=
        Except.ok.inj ((soleServer_eq hp).symm.trans (hx a (by simp)))
      by_contra hne
      rw [hfirst] at hy
      exact hne ((hunset b (by simp)).mpr ((grows_applyAll hy).once hne))
  intro opts hopts o ho
  exact ⟨(hunset opts hopts).mp hnone o ho, hnochain opts hopts o ho, hnostats opts hopts o ho⟩

/-- Every server has the configuration it would have as the only one of the process. -/
def Independent (calls : List (List (ServerOpt C Q I R TLS H))) : Prop :=
  ∀ own, calls.map soleServer = own.map .ok →
    ∃ p, newServers calls .init = .ok p ∧ p.configs = own

lemma shared_of_independent (h : Independent calls)
    (hret : ∀ opts ∈ calls, ∃ x, soleServer opts = .ok x) : ∃ q,
    newServers calls .init = .ok q ∧
      ∀ opts ∈ calls, soleServer opts = .ok (q.heap defaultServerOption) := by
  have hmem : calls.map soleServer ∈ Set.range (List.map Except.ok) := by
    rw [Set.range_list_map]
    intro y hy
    obtain ⟨opts, hopts, rfl⟩ := List.mem_map.mp hy
    obtain ⟨x, hx⟩ := hret opts hopts
    exact ⟨x, hx.symm⟩
  obtain ⟨own, hown⟩ := hmem
  obtain ⟨q, hrun, hconf⟩ := h own hown.symm
  refine ⟨q, hrun, ?_⟩
  rw [← hconf, configs_newServers hrun, List.map_replicate] at hown
  exact List.map_eq_replicate_iff.mp hown.symm

lemma independent_of_length_le (h : calls.length ≤ 1) : Independent calls := by
  intro own hown
  match calls, h with
  | [], _ =>
    have hnil : own = [] := List.map_eq_nil_iff.mp hown.symm
    exact ⟨.init, rfl, hnil.symm⟩
  | [opts], _ =>
    obtain ⟨x, rfl, hx⟩ := List.map_eq_singleton_iff.mp hown.symm
    obtain ⟨p, hp, hret⟩ := bind_eq_ok hx.symm
    have hrun : newServers [opts] .init = .ok p := by
      unfold newServers
      rw [List.foldlM_cons, hp]
      rfl
    refine ⟨p, hrun, ?_⟩
    cases hret
    exact configs_newServers hrun

lemma independent_of_quiet (hq : ∀ opts ∈ calls, ∀ o ∈ opts, o.quiet)
    (hsame : ∀ a ∈ calls, ∀ b ∈ calls, soleServer a = soleServer b) : Independent calls := by
  intro own hown
  cases calls with
  | nil =>
    exact independent_of_length_le (by simp) own hown
  | cons a rest =>
    obtain ⟨x, own', rfl, hx, -⟩ := List.map_eq_cons_iff.mp hown.symm
    have hall : ∀ opts ∈ a :: rest, soleServer opts = .ok x :=
      fun opts ho => (hsame opts ho a List.mem_cons_self).trans hx.symm
    obtain ⟨q, hrun, hheap⟩ := newServers_quiet hq hall (p := .init) (.inl rfl)
    refine ⟨q, hrun, ?_⟩
    rw [configs_newServers hrun, hheap (List.cons_ne_nil _ _)]
    have hrep := (List.map_eq_replicate_iff.mpr hall).symm.trans hown
    rw [← List.map_replicate] at hrep
    exact List.map_injective_iff.mpr (fun _ _ => Except.ok.inj) hrep

/-- The calls that leave each other alone: at most one call, or calls that add no middleware and no
stats handler and would each make the same configuration. -/
theorem independent_iff (calls : List (List (ServerOpt C Q I R TLS H))) :
    Independent calls ↔
      (∃ opts ∈ calls, ∀ x, soleServer opts ≠ .ok x) ∨ calls.length ≤ 1 ∨
        (∀ opts ∈ calls, ∀ o ∈ opts, o.quiet) ∧
          ∀ a ∈ calls, ∀ b ∈ calls, soleServer a = soleServer b := by
  constructor
  · intro h
    by_cases hret : ∃ opts ∈ calls, ∀ x, soleServer opts ≠ .ok x
    · exact .inl hret
    by_cases hlen : calls.length ≤ 1
    · exact .inr (.inl hlen)
    push Not at hret hlen
    obtain ⟨q, hrun, hx⟩ := shared_of_independent h hret
    refine .inr (.inr ⟨quiet_of_shared hlen hrun hx, fun a ha b hb => ?_⟩)
    rw [hx a ha, hx b hb]
  · rintro (⟨opts, ho, hpanic⟩ | hlen | ⟨hq, hsame⟩)
    · intro own hown
      obtain ⟨x, -, hx⟩ := List.mem_map.mp (hown ▸ List.mem_map_of_mem ho)
      exact absurd hx.symm (hpanic x)
    · exact independent_of_length_le hlen
    · exact independent_of_quiet hq hsame

/-- A middleware that marks the request. -/
def markMiddleware : ServerMiddleware Unit (List Nat) Unit (List Nat) :=
  fun ctx req _ handler => handler ctx (req ++ [1])

/-- The first server asks for one middleware and the second for none. The second server gets it
too, and runs it twice. -/
def markedThenPlain : List (List (ServerOpt Unit (List Nat) Unit (List Nat) Unit Unit)) :=
  [[.withChainMiddleware [some markMiddleware]], []]

theorem markedThenPlain_not_independent : ¬Independent markedThenPlain ∧
    ∃ p mw, newServers markedThenPlain .init = .ok p ∧
      p.configs.map (·.srvMiddleware) = [some mw, some mw] ∧
      mw () [] () (fun _ req => .ok req) = .ok [1, 1] := by
  have hrun : ∃ p, newServers markedThenPlain .init = .ok p ∧
      p.configs.map (·.srvMiddleware) =
        List.replicate 2 (some (chainMiddlewares [some markMiddleware, some markMiddleware])) :=
    ⟨_, rfl, rfl⟩
  have hsole : ∃ x, markedThenPlain.map soleServer = [x, .initial].map .ok := ⟨_, rfl⟩
  obtain ⟨p, hp, hsrv⟩ := hrun
  obtain ⟨x, hx⟩ := hsole
  refine ⟨fun h => ?_, p, _, hp, hsrv, ?_⟩
  · obtain ⟨q, hq, hconf⟩ := h _ hx
    cases hp.symm.trans hq
    rw [hconf] at hsrv
    have hsecond : none = some _ := (List.cons.inj (List.cons.inj hsrv).2).1
    cases hsecond
  · rw [chainMiddlewares_eq (List.cons_ne_nil _ _)]
    rfl

end Calls

end Proofs
end Zrpc
