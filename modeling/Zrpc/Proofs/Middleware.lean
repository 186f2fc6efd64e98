import Zrpc.Middleware
import Zrpc.Proofs.ServerOptions

/-!
# Middleware chains are right folds

The chained middleware of a list is its first middleware around all others in order around the
final handler, for any effects of the middlewares. No access is out of range: where no middleware
is nil, the panic of the model occurs nowhere.
-/

namespace Zrpc.Proofs

open Zrpc.Lib Zrpc.Effectful

section Chains

variable {C Q P K I A : Type} (panic : A)

/-- The middleware does what the list does, nested in order around the final handler. -/
def ServerActs (chained : Effectful.ServerMiddleware C Q I A)
    (mws : List (Effectful.ServerMiddleware C Q I A)) : Prop :=
  ∀ info handler, (fun ctx req => chained ctx req info handler) =
    mws.foldr (fun mw next ctx req => mw ctx req info next) handler

def ClientActs (chained : ClientMiddleware C Q P K A) (mws : List (ClientMiddleware C Q P K A)) :
    Prop :=
  ∀ invoker, (fun ctx method req reply cc => chained ctx method req reply cc invoker) =
    mws.foldr (fun mw next ctx method req reply cc => mw ctx method req reply cc next) invoker

lemma foldr_callServer (mws : List (Effectful.ServerMiddleware C Q I A)) (info : I)
    (handler : Effectful.Handler C Q A) :
    (mws.map some).foldr (fun mw next ctx req => callServer panic mw ctx req info next) handler =
      mws.foldr (fun mw next ctx req => mw ctx req info next) handler := by
  rw [List.foldr_map]
  rfl

/-- The handler a middleware gets is the composition of all later ones around the last one. -/
lemma effectful_getChainHandler_eq (mws : List (Effectful.ServerMiddleware C Q I A)) {pos : Nat}
    (hpos : pos < mws.length) (info : I) (handler : Effectful.Handler C Q A) :
    Effectful.getChainHandler panic (mws.map some) pos info handler =
      (mws.drop (pos + 1)).foldr (fun mw next ctx req => mw ctx req info next) handler := by
  unfold Effectful.getChainHandler
  rw [chainAt_eq_foldr _ _ _ (by rwa [List.length_map]), ← List.map_drop, foldr_callServer]

lemma serverActs_chainMiddlewares (mw : Effectful.ServerMiddleware C Q I A)
    (mws : List (Effectful.ServerMiddleware C Q I A)) :
    ServerActs (Effectful.chainMiddlewares panic ((mw :: mws).map some)) (mw :: mws) := by
  intro info handler
  funext ctx req
  unfold Effectful.chainMiddlewares
  rw [effectful_getChainHandler_eq panic (mw :: mws) (by simp)]
  rfl

lemma foldr_callClient (mws : List (ClientMiddleware C Q P K A)) (invoker : Invoker C Q P K A) :
    (mws.map some).foldr (fun mw next ctx method req reply cc =>
        callClient panic mw ctx method req reply cc next) invoker =
      mws.foldr (fun mw next ctx method req reply cc => mw ctx method req reply cc next)
        invoker := by
  rw [List.foldr_map]
  rfl

lemma getChainInvoker_eq (mws : List (ClientMiddleware C Q P K A)) {pos : Nat}
    (hpos : pos < mws.length) (invoker : Invoker C Q P K A) :
    getChainInvoker panic (mws.map some) pos invoker =
      (mws.drop (pos + 1)).foldr (fun mw next ctx method req reply cc =>
        mw ctx method req reply cc next) invoker := by
  unfold getChainInvoker
  rw [chainAt_eq_foldr _ _ _ (by rwa [List.length_map]), ← List.map_drop, foldr_callClient]

lemma clientActs_chainedInvocation (mw : ClientMiddleware C Q P K A)
    (mws : List (ClientMiddleware C Q P K A)) :
    ClientActs (chainedInvocation panic ((mw :: mws).map some)) (mw :: mws) := by
  intro invoker
  funext ctx method req reply cc
  unfold chainedInvocation
  rw [getChainInvoker_eq panic (mw :: mws) (by simp)]
  rfl

/-- For every list of middlewares, the optional one first, the chained middleware is the right fold
of the list: each middleware around the composition of all later ones around the final handler. The
handler a middleware gets is that composition itself, so calling it again means the same again. No
`panic` occurs on the right, so no access is out of range. The client's chain is the same. -/
theorem chains_are_right_folds :
    (∀ (srv : Option (Effectful.ServerMiddleware C Q I A))
        (chain : List (Effectful.ServerMiddleware C Q I A)),
      (srv.toList ++ chain = [] →
        Effectful.chainServerMiddlewares panic srv (chain.map some) = none) ∧
      (srv.toList ++ chain ≠ [] → ∃ chained,
        Effectful.chainServerMiddlewares panic srv (chain.map some) = some chained ∧
        ∀ info handler, (fun ctx req => chained ctx req info handler) =
          (srv.toList ++ chain).foldr (fun mw next ctx req => mw ctx req info next) handler) ∧
      (∀ pos < (srv.toList ++ chain).length, ∀ info handler,
        Effectful.getChainHandler panic ((srv.toList ++ chain).map some) pos info handler =
          ((srv.toList ++ chain).drop (pos + 1)).foldr
            (fun mw next ctx req => mw ctx req info next) handler)) ∧
    (∀ (first : Option (ClientMiddleware C Q P K A)) (chain : List (ClientMiddleware C Q P K A)),
      (first.toList ++ chain = [] → chainClientMiddlewares panic first (chain.map some) = none) ∧
      (first.toList ++ chain ≠ [] → ∃ chained,
        chainClientMiddlewares panic first (chain.map some) = some chained ∧
        ∀ invoker, (fun ctx method req reply cc => chained ctx method req reply cc invoker) =
          (first.toList ++ chain).foldr
            (fun mw next ctx method req reply cc => mw ctx method req reply cc next) invoker) ∧
      (∀ pos < (first.toList ++ chain).length, ∀ invoker,
        getChainInvoker panic ((first.toList ++ chain).map some) pos invoker =
          ((first.toList ++ chain).drop (pos + 1)).foldr
            (fun mw next ctx method req reply cc => mw ctx method req reply cc next)
            invoker)) := by
  constructor
  · intro srv chain
    obtain ⟨hnil, hcons⟩ := chainOf_acts ServerActs (fun _ _ _ => rfl)
      (serverActs_chainMiddlewares panic) srv chain
    refine ⟨hnil, hcons, ?_⟩
    intro pos hpos info handler
    exact effectful_getChainHandler_eq panic _ hpos info handler
  · intro first chain
    obtain ⟨hnil, hcons⟩ := chainOf_acts ClientActs (fun _ _ => rfl)
      (clientActs_chainedInvocation panic) first chain
    refine ⟨hnil, hcons, ?_⟩
    intro pos hpos invoker
    exact getChainInvoker_eq panic _ hpos invoker

/-- `Client.Invoke` runs the whole list around `invoke`, also when it is empty. -/
theorem invoke_eq_foldr (first : Option (ClientMiddleware C Q P K A))
    (chain : List (ClientMiddleware C Q P K A)) (final : Invoker C Q P K A) :
    Effectful.invoke (chainClientMiddlewares panic first (chain.map some)) final =
      (first.toList ++ chain).foldr
        (fun mw next ctx method req reply cc => mw ctx method req reply cc next) final := by
  obtain ⟨hnil, hcons⟩ := chainOf_acts ClientActs (fun _ _ => rfl)
    (clientActs_chainedInvocation panic) first chain
  by_cases h : first.toList ++ chain = []
  · rw [chainClientMiddlewares, hnil h, h]
    rfl
  · obtain ⟨chained, hchained, hacts⟩ := hcons h
    rw [chainClientMiddlewares, hchained, ← hacts final]
    rfl

end Chains

/-! ### The server of `Zrpc.ServerOptions` -/

section Server

variable {C Q I R TLS H : Type}

lemma callServer_panic (mw : Option (Zrpc.ServerMiddleware C Q I R)) :
    callServer (.error .panic) mw = callMiddleware mw := by
  cases mw with
  | none => rfl
  | some mw => rfl

lemma getChainHandler_eq_effectful (mws : List (Option (Zrpc.ServerMiddleware C Q I R))) {pos : Nat}
    (hpos : pos < mws.length) (info : I) (handler : Zrpc.Handler C Q R) :
    Zrpc.getChainHandler mws pos info handler =
      Effectful.getChainHandler (.error .panic) mws pos info handler := by
  unfold Effectful.getChainHandler
  rw [getChainHandler_eq, chainAt_eq_foldr _ _ _ hpos]
  simp only [callServer_panic]
  rfl

/-- The chain of `Zrpc.ServerOptions` is the chain for the effects of `Go`. -/
theorem chainServerMiddlewares_eq_effectful (opt : FullServerOption C Q I R TLS H) :
    (Zrpc.chainServerMiddlewares opt).srvMiddleware =
      Effectful.chainServerMiddlewares (.error .panic) opt.srvMiddleware opt.chainMiddlewares := by
  unfold Zrpc.chainServerMiddlewares Effectful.chainServerMiddlewares chainOf
  dsimp only
  generalize (if opt.srvMiddleware.isSome then opt.srvMiddleware :: opt.chainMiddlewares
    else opt.chainMiddlewares) = mws
  match mws with
  | [] => rfl
  | [mw] => rfl
  | mw :: mw' :: mws =>
    apply congrArg some
    funext ctx req info handler
    unfold Zrpc.chainMiddlewares Effectful.chainMiddlewares
    rw [getChainHandler_eq_effectful (mw :: mw' :: mws) (by simp), callServer_panic]

end Server

end Zrpc.Proofs
