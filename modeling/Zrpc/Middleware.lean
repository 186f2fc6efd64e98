import Zrpc.Go
import Zrpc.Lib.Chain

/-!
# Middleware chains (`middleware.go`, `server.go`, `client.go`)

What a call does is an arbitrary type `A` of effects, in which `panic` is the panic of the caller.
A middleware value may be nil.
-/

namespace Zrpc.Effectful

open Zrpc.Lib

variable {C Q P K I A : Type} (panic : A)

/-! ### Server -/

abbrev Handler (C Q A : Type) := C → Q → A

abbrev ServerMiddleware (C Q I A : Type) := C → Q → I → Handler C Q A → A

/-- A call of a middleware value. -/
def callServer : Option (ServerMiddleware C Q I A) → ServerMiddleware C Q I A
  | some mw => mw
  | none => fun _ _ _ _ => panic

def getChainHandler (mws : List (Option (ServerMiddleware C Q I A))) (pos : Nat) (info : I)
    (finalHandler : Handler C Q A) : Handler C Q A :=
  chainAt (fun _ _ => panic) (fun mw next ctx req => callServer panic mw ctx req info next)
    mws pos finalHandler

def chainMiddlewares (mws : List (Option (ServerMiddleware C Q I A))) : ServerMiddleware C Q I A :=
  fun ctx req info handler =>
    callServer panic mws[0]?.join ctx req info (getChainHandler panic mws 0 info handler)

/-- The middleware that takes the place of `opt.srvMiddleware`. -/
def chainServerMiddlewares (srvMiddleware : Option (ServerMiddleware C Q I A))
    (chain : List (Option (ServerMiddleware C Q I A))) : Option (ServerMiddleware C Q I A) :=
  chainOf (chainMiddlewares panic) srvMiddleware chain

/-! ### Client -/

abbrev Invoker (C Q P K A : Type) := C → GoString → Q → P → K → A

abbrev ClientMiddleware (C Q P K A : Type) := C → GoString → Q → P → K → Invoker C Q P K A → A

def callClient : Option (ClientMiddleware C Q P K A) → ClientMiddleware C Q P K A
  | some mw => mw
  | none => fun _ _ _ _ _ _ => panic

def getChainInvoker (mws : List (Option (ClientMiddleware C Q P K A))) (pos : Nat)
    (finalInvoker : Invoker C Q P K A) : Invoker C Q P K A :=
  chainAt (fun _ _ _ _ _ => panic)
    (fun mw next ctx method req reply cc => callClient panic mw ctx method req reply cc next)
    mws pos finalInvoker

/-- The closure that `chainClientMiddlewares` makes for two or more middlewares. -/
def chainedInvocation (mws : List (Option (ClientMiddleware C Q P K A))) :
    ClientMiddleware C Q P K A :=
  fun ctx method req reply cc invoker =>
    callClient panic mws[0]?.join ctx method req reply cc (getChainInvoker panic mws 0 invoker)

/-- The middleware that takes the place of `opt.clientMiddleware`. -/
def chainClientMiddlewares (clientMiddleware : Option (ClientMiddleware C Q P K A))
    (chain : List (Option (ClientMiddleware C Q P K A))) : Option (ClientMiddleware C Q P K A) :=
  chainOf (chainedInvocation panic) clientMiddleware chain

/-- `Client.Invoke`, with the function `invoke` as `final`. -/
def invoke (clientMiddleware : Option (ClientMiddleware C Q P K A)) (final : Invoker C Q P K A) :
    Invoker C Q P K A :=
  match clientMiddleware with
  | some mw => fun ctx method args reply c => mw ctx method args reply c final
  | none => final

end Zrpc.Effectful
