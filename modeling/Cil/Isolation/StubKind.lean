import Cil.Code.Opcode
import Cil.Token

/-!
# Kinds of stubs

A stub stands in for a call site.  Its kind says which instruction made the call.
-/

namespace Cil

/-- The kind of call that a stub stands in for. -/
inductive StubKind
  | call
  | virtual
  | constrained (constraint : Token)
  | construct
  | functionPointer
  | virtualFunctionPointer
deriving DecidableEq, Repr, Inhabited

namespace StubKind

/-- The name that stubs of the kind begin with. -/
def text : StubKind → String
  | call => "stub_call"
  | virtual | constrained _ => "stub_callvirt"
  | construct => "stub_newobj"
  | functionPointer => "stub_ldftn"
  | virtualFunctionPointer => "stub_ldvirtftn"

/-- The kind for an instruction that names a method. -/
def ofOpcode? (opcode : Opcode) (constraint? : Option Token) : Option StubKind :=
  match opcode, constraint? with
  | .call, _ => some call
  | .callvirt, some constraint => some (constrained constraint)
  | .callvirt, none => some virtual
  | .newobj, _ => some construct
  | .ldftn, _ => some functionPointer
  | .ldvirtftn, _ => some virtualFunctionPointer
  | _, _ => none

/-- Whether the method is chosen by the receiver. -/
def isVirtual : StubKind → Bool
  | virtual | constrained _ | virtualFunctionPointer => true
  | call | construct | functionPointer => false

end StubKind

end Cil
