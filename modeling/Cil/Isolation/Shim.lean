import Cil.Machine.Callable
import Cil.Machine.Heap
import Cil.Metadata.Hierarchy

/-!
# Shims

A shim replaces a method, for every receiver, for one object or for the instances of
one type.  It is accepted only if its replacement takes and returns what the calls of
the replaced method pass and expect.
-/

namespace Cil

/-- The receivers that a shim is meant for. -/
inductive ReceiverMatch
  | any
  | object (reference : HeapRef)
  | type (type : Token)
deriving DecidableEq, Repr, Inhabited

/-- What runs instead of a method. -/
inductive Replacement
  | native (provided : Native)
  /-- A method of the module, on a given receiver if there is one. -/
  | managed (method : Token) (target? : Option Value)
deriving Inhabited

/-- A method with what replaces it. -/
structure Shim where
  method : MethodDef
  receiver : ReceiverMatch
  replacement : Replacement
  isSetter : Bool
  constructionBase? : Option Token
deriving Inhabited

def Shim.identity (shim : Shim) : MethodIdentity := shim.method.identity

/-- The parameters and the return type of a replacement, its receiver being the first
parameter unless it is given. -/
def Replacement.signature (module : Module) :
    Replacement → Except Error (List TypeSig × TypeSig)
  | native provided => .ok (provided.params, provided.returnType)
  | managed method target? => do
    let method ← module.method method
    if method.isStatic || target?.isSome then return (method.params, method.returnType)
    return ((← module.receiverSig method.declaringType) :: method.params, method.returnType)

/-- The calls that a shim is to replace. -/
structure ShimTarget where
  method : MethodDef
  receiver : ReceiverMatch := .any
  /-- The type of the one object that the shim is for. -/
  objectType? : Option Token := none
  isSetter : Bool := false
  constructionBase? : Option Token := none
deriving Inhabited

namespace ShimTarget

def ofMethod (module : Module) (method : Token) : Except Error ShimTarget := do
  return { method := ← module.method method }

/-- All calls of an accessor of a property. -/
def ofProperty (module : Module) (type : Token) (property : String) (isSetter : Bool) :
    Except Error ShimTarget :=
  let accessor := (if isSetter then "set_" else "get_") ++ property
  match module.findMethodNamed? type accessor with
  | none => .error (.methodNotFound (module.typeName type ++ "::" ++ accessor))
  | some method => do return { method := ← module.method method, isSetter }

/-- Only calls on one object. -/
def onObject (module : Module) (heap : Heap) (target : ShimTarget) :
    Value → Except Error ShimTarget
  | .object reference => do
    let type ← heap.typeOf reference
    if module.isValueType type then
      throw (.notSupported (.bindToBoxed (module.typeName type)))
    return { target with receiver := .object reference, objectType? := some type }
  | other => .error (.notSupported (.bindToValue other.text))

def onType (target : ShimTarget) (type : Token) : ShimTarget :=
  { target with receiver := .type type, objectType? := none }

/-- Whether the replaced method has no receiver that exists before the call. -/
def lacksReceiver (target : ShimTarget) : Bool :=
  target.method.isStatic || target.method.isConstructor

/-- The type of the receivers that the replacement has to take. -/
def owningType (target : ShimTarget) : Token :=
  match target.receiver with
  | .type type => type
  | .object _ => target.objectType?.getD target.method.declaringType
  | .any => target.method.declaringType

def checkResult (module : Module) (target : ShimTarget) (returnType : TypeSig) :
    Except Error Unit := do
  let method := target.method
  if method.isConstructor then
    let base ← module.typeSig (target.constructionBase?.getD method.declaringType)
    unless module.isAssignable base returnType do
      throw (.invalidShimSignature .construction)
  else
    let expected := if target.isSetter then .void else method.returnType
    if expected ≠ returnType then throw (.invalidShimSignature .returnType)

/-- Checks the receiver among the parameters of the replacement; the other parameters
are left. -/
def checkReceiver (module : Module) (target : ShimTarget) (params : List TypeSig) :
    Except Error (List TypeSig) := do
  if target.lacksReceiver then return params
  if module.isValueType target.method.declaringType &&
      !params.head?.any TypeSig.isByRef then
    throw (.invalidShimSignature .receiverByReference)
  let expected ← module.receiverSig target.owningType
  match params with
  | [] => throw (.invalidShimSignature .instanceType)
  | receiver :: others =>
    if receiver ≠ expected then throw (.invalidShimSignature .instanceType)
    return others

/-- Checks the parameters of the replacement other than the receiver. -/
def checkParams (target : ShimTarget) (params : List TypeSig) : Except Error Unit := do
  let expected := target.method.params
  if params.length ≠ expected.length then
    throw (.invalidShimSignature .parameterCount)
  match (expected.zip params).findIdx? fun (expected, actual) => expected != actual with
  | some index => throw (.invalidShimSignature (.parameterType index))
  | none => return

/-- The shim that puts a replacement in the place of the calls. -/
def replaceBy (module : Module) (target : ShimTarget) (replacement : Replacement) :
    Except Error Shim := do
  if target.lacksReceiver && target.receiver != .any then
    throw (.notSupported (.noReceiverToMatch (module.methodName target.method.token)))
  let (params, returnType) ← replacement.signature module
  target.checkResult module returnType
  let params ← target.checkReceiver module params
  target.checkParams params
  return { method := target.method, receiver := target.receiver, replacement
           isSetter := target.isSetter, constructionBase? := target.constructionBase? }

end ShimTarget

end Cil
