import Cil.Metadata.Definition

/-!
# The core library

Every module begins with the same types, fields and methods, in the same rows:
the primitive types, strings, the console, exceptions and delegates.  Their
tokens are therefore constants, and the rows are literal tables.  All methods of
the core library are internal calls, and each has a native implementation.
-/

namespace Cil

namespace Core

/-! ## Types -/

def object : Token := .ofRow .typeDef 1
def valueType : Token := .ofRow .typeDef 2
def int32 : Token := .ofRow .typeDef 3
def int64 : Token := .ofRow .typeDef 4
def double : Token := .ofRow .typeDef 5
def boolean : Token := .ofRow .typeDef 6
def char : Token := .ofRow .typeDef 7
def string : Token := .ofRow .typeDef 8
def console : Token := .ofRow .typeDef 9
def exception : Token := .ofRow .typeDef 10
def action : Token := .ofRow .typeDef 11
def nullReferenceException : Token := .ofRow .typeDef 12
def invalidCastException : Token := .ofRow .typeDef 13
def divideByZeroException : Token := .ofRow .typeDef 14
def overflowException : Token := .ofRow .typeDef 15
def indexOutOfRangeException : Token := .ofRow .typeDef 16
def invalidOperationException : Token := .ofRow .typeDef 17

/-! ## Methods -/

def objectConstructor : Token := .ofRow .methodDef 1
def objectToString : Token := .ofRow .methodDef 2
def stringConcat : Token := .ofRow .methodDef 3
def stringToUpper : Token := .ofRow .methodDef 4
def stringLength : Token := .ofRow .methodDef 5
def stringEquality : Token := .ofRow .methodDef 6
def writeLineString : Token := .ofRow .methodDef 7
def writeLineInt : Token := .ofRow .methodDef 8
def exceptionConstructor : Token := .ofRow .methodDef 9
def exceptionConstructorMessage : Token := .ofRow .methodDef 10
def exceptionMessage : Token := .ofRow .methodDef 11
def actionConstructor : Token := .ofRow .methodDef 24
def actionInvoke : Token := .ofRow .methodDef 25

/-! ## Fields -/

/-- The field of an exception that holds its message. -/
def exceptionMessageField : Token := .ofRow .field 1

/-- The exception types with their two constructors: without arguments, and with
a message. -/
def exceptionConstructors : List (Token × Token × Token) :=
  [ (exception, exceptionConstructor, exceptionConstructorMessage),
    (nullReferenceException, .ofRow .methodDef 12, .ofRow .methodDef 13),
    (invalidCastException, .ofRow .methodDef 14, .ofRow .methodDef 15),
    (divideByZeroException, .ofRow .methodDef 16, .ofRow .methodDef 17),
    (overflowException, .ofRow .methodDef 18, .ofRow .methodDef 19),
    (indexOutOfRangeException, .ofRow .methodDef 20, .ofRow .methodDef 21),
    (invalidOperationException, .ofRow .methodDef 22, .ofRow .methodDef 23) ]

/-- The constructors of an exception type of the core library. -/
def constructorsOf? (type : Token) : Option (Token × Token) :=
  (exceptionConstructors.find? (·.1 == type)).map (·.2)

/-- The signature that stands for a primitive type of the core library. -/
def primitiveSig? (type : Token) : Option TypeSig :=
  if type = object then some .object
  else if type = string then some .string
  else if type = int32 then some .int32
  else if type = int64 then some .int64
  else if type = double then some .float64
  else if type = boolean then some .boolean
  else if type = char then some .char
  else none

/-- The type of a box that holds a value of the given signature. -/
def boxedType? : TypeSig → Option Token
  | .object => some object
  | .string => some string
  | .int32 => some int32
  | .int64 | .nativeInt => some int64
  | .float64 => some double
  | .boolean => some boolean
  | .char => some char
  | .reference type | .valueType type => some type
  | .void | .byRef _ | .array _ | .parameter _ => none

/-! ## The rows -/

def space : String := "System"

private def typeRow (token : Token) (name : String) (flags : TypeFlags) (base? : Option Token)
    (isValueType : Bool) : TypeDef :=
  { token, space, name, flags, base?, interfaces := [], isValueType }

private def primitiveRow (token : Token) (name : String) : TypeDef :=
  typeRow token name (TypeFlags.isPublic ||| TypeFlags.isSealed) (some valueType) true

private def exceptionRow (token : Token) (name : String) : TypeDef :=
  typeRow token name TypeFlags.isPublic (some exception) false

def types : List TypeDef :=
  [ typeRow object "Object" TypeFlags.isPublic none false,
    typeRow valueType "ValueType" (TypeFlags.isPublic ||| TypeFlags.isAbstract) (some object)
      false,
    primitiveRow int32 "Int32",
    primitiveRow int64 "Int64",
    primitiveRow double "Double",
    primitiveRow boolean "Boolean",
    primitiveRow char "Char",
    typeRow string "String" (TypeFlags.isPublic ||| TypeFlags.isSealed) (some object) false,
    typeRow console "Console"
      (TypeFlags.isPublic ||| TypeFlags.isSealed ||| TypeFlags.isAbstract) (some object) false,
    typeRow exception "Exception" TypeFlags.isPublic (some object) false,
    typeRow action "Action" (TypeFlags.isPublic ||| TypeFlags.isSealed) (some object) false,
    exceptionRow nullReferenceException "NullReferenceException",
    exceptionRow invalidCastException "InvalidCastException",
    exceptionRow divideByZeroException "DivideByZeroException",
    exceptionRow overflowException "OverflowException",
    exceptionRow indexOutOfRangeException "IndexOutOfRangeException",
    exceptionRow invalidOperationException "InvalidOperationException" ]

def fields : List FieldDef :=
  [ { token := exceptionMessageField, declaringType := exception, name := "_message"
      signature := .string, flags := Flags.empty } ]

private def instanceFlags : MethodModifiers := MethodModifiers.hideBySig

private def staticFlags : MethodModifiers :=
  MethodModifiers.isStatic ||| MethodModifiers.hideBySig

private def virtualFlags : MethodModifiers :=
  MethodModifiers.isVirtual ||| MethodModifiers.hideBySig

private def constructorFlags : MethodModifiers :=
  MethodModifiers.hideBySig ||| MethodModifiers.specialName |||
    MethodModifiers.runtimeSpecialName

private def methodRow (token owner : Token) (name : String) (flags : MethodModifiers)
    (params : List TypeSig) (returnType : TypeSig) : MethodDef :=
  { token, declaringType := owner, name, flags, access := AccessFlags.isPublic
    codeType := CodeType.intermediate, options := ImplOptions.internalCall, params, returnType
    genericArity := 0, genericArguments := [], body? := none }

private def runtimeRow (token owner : Token) (name : String) (flags : MethodModifiers)
    (params : List TypeSig) (returnType : TypeSig) : MethodDef :=
  { methodRow token owner name flags params returnType with
    codeType := CodeType.runtime, options := Flags.empty }

private def constructorRows (row : Token × Token × Token) : List MethodDef :=
  [ methodRow row.2.1 row.1 MethodDef.constructorName constructorFlags [] .void,
    methodRow row.2.2 row.1 MethodDef.constructorName constructorFlags [.string] .void ]

def methods : List MethodDef :=
  [ methodRow objectConstructor object MethodDef.constructorName constructorFlags [] .void,
    methodRow objectToString object "ToString" virtualFlags [] .string,
    methodRow stringConcat string "Concat" staticFlags [.string, .string] .string,
    methodRow stringToUpper string "ToUpper" instanceFlags [] .string,
    methodRow stringLength string "get_Length" (instanceFlags ||| MethodModifiers.specialName)
      [] .int32,
    methodRow stringEquality string "op_Equality" (staticFlags ||| MethodModifiers.specialName)
      [.string, .string] .boolean,
    methodRow writeLineString console "WriteLine" staticFlags [.string] .void,
    methodRow writeLineInt console "WriteLine" staticFlags [.int32] .void ] ++
  (exceptionConstructors.take 1).flatMap constructorRows ++
  [ methodRow exceptionMessage exception "get_Message"
      (virtualFlags ||| MethodModifiers.specialName) [] .string ] ++
  (exceptionConstructors.drop 1).flatMap constructorRows ++
  [ runtimeRow actionConstructor action MethodDef.constructorName constructorFlags
      [.object, .nativeInt] .void,
    runtimeRow actionInvoke action "Invoke" virtualFlags [] .void ]

/-- The type in row `n + 1` has the token of row `n + 1`. -/
theorem types_token : types.map TypeDef.token =
    (List.range 17).map fun index => Token.ofRow .typeDef (index + 1) := by
  decide

/-- The method in row `n + 1` has the token of row `n + 1`. -/
theorem methods_token : methods.map MethodDef.token =
    (List.range 25).map fun index => Token.ofRow .methodDef (index + 1) := by
  decide

end Core

end Cil
