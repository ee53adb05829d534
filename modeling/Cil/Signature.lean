import Cil.Token

/-!
# Type and method signatures

A type signature describes what a slot of the evaluation stack, a parameter, a
field or a local holds.  Generic parameters stand for the type arguments of an
instantiation and are replaced by `TypeSig.substitute`.
-/

namespace Cil

/-- The type of a value, as signatures write it. -/
inductive TypeSig
  | void
  | boolean
  | char
  | int32
  | int64
  | float64
  | string
  | object
  | nativeInt
  | reference (type : Token)
  | valueType (type : Token)
  | byRef (target : TypeSig)
  | array (element : TypeSig)
  | parameter (index : Nat)
deriving DecidableEq, Repr, Inhabited

namespace TypeSig

def text : TypeSig → String
  | void => "void"
  | boolean => "bool"
  | char => "char"
  | int32 => "int32"
  | int64 => "int64"
  | float64 => "float64"
  | string => "string"
  | object => "object"
  | nativeInt => "native int"
  | reference type => s!"class {type}"
  | valueType type => s!"valuetype {type}"
  | byRef target => target.text ++ "&"
  | array element => element.text ++ "[]"
  | parameter index => s!"!!{index}"

instance : ToString TypeSig := ⟨text⟩

/-- Whether a slot of this type holds an address. -/
def isByRef : TypeSig → Bool
  | byRef _ => true
  | _ => false

/-- Whether a slot of this type holds the value itself and not a reference. -/
def isValueType : TypeSig → Bool
  | boolean | char | int32 | int64 | float64 | nativeInt | valueType _ => true
  | _ => false

/-- The type that a class or value type signature names. -/
def typeToken? : TypeSig → Option Token
  | reference type | valueType type => some type
  | _ => none

/-- The signature with generic parameters replaced by type arguments.  A
parameter without an argument stays. -/
def substitute (arguments : List TypeSig) : TypeSig → TypeSig
  | parameter index => arguments[index]?.getD (parameter index)
  | byRef target => byRef (target.substitute arguments)
  | array element => array (element.substitute arguments)
  | void => void
  | boolean => boolean
  | char => char
  | int32 => int32
  | int64 => int64
  | float64 => float64
  | string => string
  | object => object
  | nativeInt => nativeInt
  | reference type => reference type
  | valueType type => valueType type

/-- What an address points to or an array consists of; other types are their own
element. -/
def element : TypeSig → TypeSig
  | byRef inner | array inner => inner
  | other => other

def parameterList (params : List TypeSig) : String :=
  "(" ++ Text.commaSeparated (params.map text) ++ ")"

end TypeSig

/-- The type of a method or of a call through a function pointer. -/
structure MethodSignature where
  hasThis : Bool
  params : List TypeSig
  returnType : TypeSig
deriving DecidableEq, Repr, Inhabited

namespace MethodSignature

/-- How many values a call takes from the stack, the receiver included. -/
def stackPops (signature : MethodSignature) : Nat :=
  signature.params.length + signature.hasThis.toNat

def hasResult (signature : MethodSignature) : Bool :=
  signature.returnType != .void

def text (signature : MethodSignature) : String :=
  (if signature.hasThis then "instance " else "") ++ signature.returnType.text ++ " " ++
    TypeSig.parameterList signature.params

end MethodSignature

structure LocalVariable where
  signature : TypeSig
  isPinned : Bool := false
deriving DecidableEq, Repr, Inhabited

/-- A signature that stands in a table of its own. -/
inductive StandAloneSignature
  | locals (slots : List LocalVariable)
  | method (signature : MethodSignature)
deriving DecidableEq, Repr, Inhabited

end Cil
