import Zrpc.Call

/-!
# The full name of a method (`call.go`, `server.go`, `contrib/tracing`)

The client names a call to its stats handlers by the string it was given, the server by the names
of the decoded request, and the tracing handlers take the name apart again.
-/

namespace Zrpc

/-- The `fullMethod` of `invoke`. -/
def invokeFullMethod (method : GoString) : GoString :=
  if (str "/").isPrefixOf method then method else str "/" ++ method

/-- The `fullMethod` of `serveRequest`. -/
def serveFullMethod (req : Message) : GoString :=
  str "/" ++ req.serviceName ++ str "/" ++ req.serviceMethod

/-- The keys of the attributes of a span. -/
inductive AttributeKey
  | RPCServiceKey
  | RPCMethodKey
  deriving DecidableEq

def parseFullMethod (fullMethod : GoString) : GoString × List (AttributeKey × GoString) :=
  let name := if fullMethod.head? = some 47 then fullMethod.tail else fullMethod
  match lastSlash name with
  | some pos => (name, [(.RPCServiceKey, name.take pos), (.RPCMethodKey, name.drop (pos + 1))])
  | none => (name, [])

end Zrpc
