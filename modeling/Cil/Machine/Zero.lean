import Cil.Machine.Value
import Cil.Metadata.Hierarchy

/-!
# Zero values

Every slot starts with the zero of its type: a zero number, null, or an instance of a
value type whose fields are all zero.  A value type that contains itself has no zero.
The fields of a value type that does not are reached in fewer steps than the module
has types.
-/

namespace Cil

/-- The zero of a type that is no named value type. -/
def TypeSig.scalarZero? : TypeSig → Option Value
  | .void => some .void
  | .boolean | .char | .int32 => some (.int32 0)
  | .int64 => some (.int64 0)
  | .float64 => some (.float 0)
  | .nativeInt => some (.nativeInt 0)
  | .string | .object | .reference _ | .byRef _ | .array _ | .parameter _ => some .null
  | .valueType _ => none

namespace Module

/-- The zero of a type, given the zeros of named value types. -/
def zeroFrom (ofType : Token → Option Value) : TypeSig → Option Value
  | .valueType type =>
    match Core.primitiveSig? type with
    | some primitive => primitive.scalarZero?
    | none => ofType type
  | scalar => scalar.scalarZero?

/-- The zero of a value type that is nested no deeper than a number of steps. -/
def recordZeroWithin (module : Module) : (steps : Nat) → (type : Token) → Option Value
  | 0, _ => none
  | steps + 1, type => do
    let fields ← (module.instanceFields type).mapM fun field => do
      return (field.token, ← zeroFrom (module.recordZeroWithin steps) field.signature)
    return .record type fields

/-- The zero of a type, if there is one. -/
def zero? (module : Module) (signature : TypeSig) : Option Value :=
  zeroFrom (module.recordZeroWithin module.walkBound) signature

/-- The zero of a type.  Looking for one that does not exist never ends. -/
def zero (module : Module) (signature : TypeSig) : Except Error Value :=
  match module.zero? signature with
  | some value => .ok value
  | none => .error .outOfFuel

def zeroFields (module : Module) (type : Token) : Except Error (List (Token × Value)) :=
  (module.instanceFields type).mapM fun field => do
    return (field.token, ← module.zero field.signature)

def zeroOfField (module : Module) (field : Token) : Except Error Value := do
  module.zero (← module.field field).signature

def zeroOfType (module : Module) (type : Token) : Except Error Value := do
  module.zero (← module.typeSig type)

end Module

end Cil
