import Cil.Error
import Cil.Metadata.Flags
import Cil.Signature

/-!
# Types, fields and methods

The rows of a module's tables.  A method's identity is what two descriptions of
the same method agree on, whatever tables they were read from.
-/

namespace Cil

structure TypeDef where
  token : Token
  space : String
  name : String
  flags : TypeFlags
  base? : Option Token
  interfaces : List Token
  isValueType : Bool
deriving DecidableEq, Repr, Inhabited

namespace TypeDef

def fullName (type : TypeDef) : String :=
  if type.space.isEmpty then type.name else type.space ++ "." ++ type.name

def isInterface (type : TypeDef) : Bool :=
  type.flags.contains TypeFlags.isInterface

/-- The signature of a slot that holds an instance. -/
def signature (type : TypeDef) : TypeSig :=
  if type.isValueType then .valueType type.token else .reference type.token

end TypeDef

structure FieldDef where
  token : Token
  declaringType : Token
  name : String
  signature : TypeSig
  flags : FieldFlags
deriving DecidableEq, Repr, Inhabited

/-- Whether the field belongs to the type and not to its instances. -/
def FieldDef.isStatic (field : FieldDef) : Bool :=
  field.flags.contains FieldFlags.isStatic

/-- What identifies a method. -/
structure MethodIdentity where
  method : Token
  declaringType : Token
  name : String
  params : List TypeSig
  returnType : TypeSig
  flags : IdentityFlags
  genericArity : Nat
  genericArguments : List TypeSig
deriving DecidableEq, Repr, Inhabited

namespace MethodIdentity

def text (identity : MethodIdentity) : String :=
  let arguments :=
    if identity.genericArguments.isEmpty then ""
    else "<" ++ Text.commaSeparated (identity.genericArguments.map TypeSig.text) ++ ">"
  s!"{identity.returnType} {identity.declaringType}::{identity.name}" ++ arguments ++
    TypeSig.parameterList identity.params

end MethodIdentity

/-- A method definition, or an instantiation of a generic one.

The body of a definition is attached at most once and is read from the module
when it is needed; an instantiation carries the body that its definition had when
the instantiation was resolved. -/
structure MethodDef where
  token : Token
  declaringType : Token
  name : String
  flags : MethodModifiers
  access : AccessFlags
  codeType : CodeType
  options : ImplOptions
  params : List TypeSig
  returnType : TypeSig
  genericArity : Nat
  genericArguments : List TypeSig
  body? : Option (List UInt8)
deriving DecidableEq, Repr, Inhabited

namespace MethodDef

/-- The name of every instance constructor. -/
def constructorName : String := ".ctor"

def isStatic (method : MethodDef) : Bool :=
  method.flags.contains MethodModifiers.isStatic

def isConstructor (method : MethodDef) : Bool :=
  !method.isStatic && method.name == constructorName

def isAbstract (method : MethodDef) : Bool :=
  method.flags.contains MethodModifiers.isAbstract

def isVirtual (method : MethodDef) : Bool :=
  method.flags.contains MethodModifiers.isVirtual

/-- Whether another method can take over the slot. -/
def isOverridable (method : MethodDef) : Bool :=
  method.isVirtual && !method.flags.contains MethodModifiers.isFinal

/-- Whether the execution engine itself provides the method. -/
def isInternalCall (method : MethodDef) : Bool :=
  method.options.contains ImplOptions.internalCall || method.codeType == CodeType.runtime

def isPlatformInvoke (method : MethodDef) : Bool :=
  method.flags.contains MethodModifiers.platformInvoke

/-- Whether the method is an instantiation of a generic definition. -/
def isInstantiation (method : MethodDef) : Bool :=
  !method.genericArguments.isEmpty

/-- The signature that calls of the method follow. -/
def signature (method : MethodDef) : MethodSignature :=
  { hasThis := !method.isStatic, params := method.params, returnType := method.returnType }

def identity (method : MethodDef) : MethodIdentity :=
  { method := method.token
    declaringType := method.declaringType
    name := method.name
    params := method.params
    returnType := method.returnType
    flags := (((Flags.empty.setIf method.isStatic IdentityFlags.isStatic).setIf
      method.isConstructor IdentityFlags.isConstructor).setIf
      method.isAbstract IdentityFlags.isAbstract).setIf
      method.isVirtual IdentityFlags.isVirtual
    genericArity := method.genericArity
    genericArguments := method.genericArguments }

/-- Whether two methods have the same name and parameters, so that one can fill
the slot of the other. -/
def sameShape (first second : MethodDef) : Bool :=
  first.name == second.name && first.params == second.params

/-- The instantiation of a generic definition with type arguments. -/
def instantiate (method : MethodDef) (token : Token) (arguments : List TypeSig) :
    Except Error MethodDef :=
  if method.isInstantiation || method.genericArity = 0 then
    .error (.malformed (.notGenericDefinition method.name))
  else if arguments.length ≠ method.genericArity then
    .error (.malformed
      (.genericArgumentCount method.name method.genericArity arguments.length))
  else
    .ok { method with
      token := token
      params := method.params.map (TypeSig.substitute arguments)
      returnType := method.returnType.substitute arguments
      genericArguments := arguments }

end MethodDef

end Cil
