import Zrpc.Call

/-!
# Generated code (`cmd/protoc-gen-go-zrpc/zrpc.go`) and its registration (`service.go`)

The generator prints Go declarations. The model has the declarations themselves: the constants of
`genFullMethods`, the identifier a client method passes to `Invoke`, and the service descriptor.
Go names come from `protogen`, so the function that makes them is a parameter.
-/

namespace Zrpc

variable {V T : Type}

def isLetter (c : UInt8) : Bool := (65 ≤ c && c ≤ 90) || (97 ≤ c && c ≤ 122) || c == 95

def isDigit (c : UInt8) : Bool := 48 ≤ c && c ≤ 57

/-- An identifier of a proto file. -/
def isIdent : GoString → Bool
  | [] => false
  | c :: rest => isLetter c && rest.all (fun c => isLetter c || isDigit c)

/-- A service of a proto file: the parts of its package, its name and the names of its methods. -/
structure ProtoService where
  package : List GoString
  name : GoString
  methods : List GoString
  package_ident : ∀ part ∈ package, isIdent part
  name_ident : isIdent name
  methods_ident : ∀ mtd ∈ methods, isIdent mtd
  methods_nodup : methods.Nodup

/-- `Desc.FullName()`. -/
def ProtoService.fullName (svc : ProtoService) : GoString :=
  svc.package.foldr (fun part rest => part ++ str "." ++ rest) svc.name

section Generator
variable (goName : GoString → GoString) (svc : ProtoService)

def formatFullMethodSymbol (mtd : GoString) : GoString :=
  goName svc.name ++ str "_" ++ goName mtd ++ str "_FullMethodName"

/-- The constants of a service, each with its value. -/
def genFullMethods : List (GoString × GoString) :=
  svc.methods.map fun mtd =>
    (formatFullMethodSymbol goName svc mtd, svc.fullName ++ str "/" ++ goName mtd)

/-- The method string in the client method's call of `Invoke`: the value of the constant it
names. -/
def genClientMethod (mtd : GoString) : Option GoString :=
  (genFullMethods goName svc).lookup (formatFullMethodSymbol goName svc mtd)

/-- The name of the handler function that is generated for a method. -/
def genServerMethod (mtd : GoString) : GoString :=
  str "_" ++ goName svc.name ++ str "_" ++ goName mtd ++ str "_Handler"

end Generator

structure ServiceDesc (V T : Type) where
  serviceName : GoString
  methods : List (GoString × MethodDesc V T)

/-- The descriptor. `code` gives the generated handler functions by their names. -/
def genServiceDesc (code : GoString → MethodDesc V T) (svc : ProtoService)
    (handlerNames : List GoString) : ServiceDesc V T where
  serviceName := svc.fullName
  methods := List.zipWith (fun mtd hname => (mtd, code hname)) svc.methods handlerNames

def generateServerFunctions (goName : GoString → GoString) (code : GoString → MethodDesc V T)
    (svc : ProtoService) : ServiceDesc V T :=
  genServiceDesc code svc (svc.methods.map (genServerMethod goName svc))

/-- The assignment `svc.methods[d.MethodName] = d`. -/
def addMethod (methods : GoString → Option (MethodDesc V T)) (d : GoString × MethodDesc V T) :
    GoString → Option (MethodDesc V T) :=
  Function.update methods d.1 (some d.2)

/-- The method map that `register` fills. -/
def ServiceDesc.methodMap (sd : ServiceDesc V T) : GoString → Option (MethodDesc V T) :=
  sd.methods.foldl addMethod fun _ => none

/-- `register` ends the process if the server is serving or has the service already. -/
def Server.register (serve : Bool) (S : Server V T) (sd : ServiceDesc V T) :
    Option (Server V T) :=
  if serve ∨ (S.serviceMap sd.serviceName).isSome then none
  else some
    { S with serviceMap := Function.update S.serviceMap sd.serviceName (some ⟨sd.methodMap⟩) }

/-- The handler `processOneRequest` calls for a request, if it finds one. -/
def Server.dispatch (S : Server V T) (serviceName serviceMethod : GoString) :
    Option (MethodDesc V T) :=
  (S.serviceMap serviceName).bind fun srv => srv.methods serviceMethod

end Zrpc
