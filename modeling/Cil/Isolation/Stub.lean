import Cil.Machine.Callable

/-!
# Stubs

A stub is a native method that takes the place of a call site.  It takes the values
that the call would have popped and returns what the call would have pushed.
-/

namespace Cil

namespace StubKind

/-- The failure of making a stub for a method that cannot be called this way. -/
private def needs {α : Type} (kind : StubKind) (module : Module) (method : MethodDef)
    (requirement : String) : Except Error α :=
  .error (.notSupported
    (.stubNeeds kind.text (module.methodName method.token) requirement))

/-- The type of the receiver of a virtual call.  Receivers of interface methods are
objects. -/
def virtualReceiver (module : Module) (owner : Token) : Except Error TypeSig := do
  if (← module.typeDef owner).isInterface then return .object
  module.receiverSig owner

/-- The parameters and the return type of a stub. -/
def signature (module : Module) (kind : StubKind) (method : MethodDef) :
    Except Error (List TypeSig × TypeSig) := do
  let owner := method.declaringType
  match kind with
  | call =>
    if method.isStatic then return (method.params, method.returnType)
    return ((← module.receiverSig owner) :: method.params, method.returnType)
  | virtual =>
    if method.isStatic then needs kind module method "an instance method"
    else return ((← virtualReceiver module owner) :: method.params, method.returnType)
  | constrained constraint =>
    if method.isStatic then needs kind module method "an instance method"
    else return (.byRef (← module.typeSig constraint) :: method.params, method.returnType)
  | construct =>
    if method.isConstructor then return (method.params, ← module.typeSig owner)
    else needs kind module method "a constructor"
  | functionPointer => return ([], .nativeInt)
  | virtualFunctionPointer =>
    if method.isStatic then needs kind module method "an instance method"
    else return ([.object], .nativeInt)

def stubName (module : Module) (kind : StubKind) (method : MethodDef) : String :=
  kind.text ++ "_" ++ module.shortTypeName method.declaringType ++ "_" ++ method.name

end StubKind

/-- The stub of a run for a kind of call of a method. -/
def Stub.native (module : Module) (stub : Stub) : Except Error Native := do
  let (params, returnType) ← stub.kind.signature module stub.target
  return { name := stub.kind.stubName module stub.target, params, returnType
           body := .stub stub }

end Cil
