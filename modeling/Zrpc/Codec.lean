import Zrpc.Go

/-!
# The codec (`codec/codec.go`)

`V` stands for the Go values handed to the codec and `T` for their dynamic types. The protobuf
library is a parameter; only the type switch of `messageV2Of` is ours.
-/

namespace Zrpc

structure Proto (V T : Type) where
  typeOf : V → T
  isMessage : T → Bool
  marshal : V → Except GoString Bytes
  unmarshal : T → Bytes → Except GoString V

def errInvalidProtoMessage : GoString := str "invalid proto message"

variable {V T : Type}

/-- `Marshal`; a nil interface matches no case of the type switch. -/
def Proto.codecMarshal (P : Proto V T) : Option V → Except GoString Bytes
  | none => .error errInvalidProtoMessage
  | some v => if P.isMessage (P.typeOf v) then P.marshal v else .error errInvalidProtoMessage

/-- `Unmarshal` into a value of type `t`. -/
def Proto.codecUnmarshal (P : Proto V T) (t : T) (data : Bytes) : Except GoString V :=
  if P.isMessage t then P.unmarshal t data else .error errInvalidProtoMessage

end Zrpc
