import Cil.Machine.Call
import Cil.Text.UpperCase

/-!
# The core library's methods

What the native methods of the core library do: strings, the console, exceptions and
delegates.
-/

namespace Cil

open MonadExcept (ofExcept)

namespace Exec

def argument (arguments : List Value) (index : Nat) : Exec Value :=
  match arguments[index]? with
  | some value => pure value
  | none => throw (.typeMismatch (.missingNativeArgument index))

def stringArgument? (arguments : List Value) (index : Nat) : Exec (Option String) := do
  stringText? (← argument arguments index)

/-- The text of a receiver, which null has none of. -/
def stringReceiver (arguments : List Value) : Exec String := do
  match ← stringArgument? arguments 0 with
  | some text => return text
  | none => nullReference

/-- The text of a boxed truth value. -/
def booleanText (truth : Bool) : String := if truth then "True" else "False"

/-- The character with a code, or the replacement character if there is none. -/
def charOfCode (code : Int32) : Char :=
  let code := code.toInt
  if 0 ≤ code ∧ code.toNat.isValidChar then Char.ofNat code.toNat else '\uFFFD'

/-- What `ToString` makes of a value, null excepted.  Boxes are looked into; the number
of steps bounds how deep. -/
def displayWithin : (steps : Nat) → Value → Exec (Option String)
  | 0, _ => throw .outOfFuel
  | steps + 1, value => do
    match value with
    | .null => return none
    | .object reference =>
      match ← readHeap (·.get reference) with
      | .string text => return some text
      | .boxed type payload =>
        if type = Core.boolean then return some (booleanText payload.isTrue)
        else if type = Core.char then
          return some (charOfCode (← ofExcept payload.asInt32)).toString
        else displayWithin steps payload
      | .array elementType _ => return some (elementType.text ++ "[]")
      | .object type _ | .delegate type .. => return some ((← module).typeName type)
    | .int32 number => return some (toString number.toInt)
    | .int64 number | .nativeInt number => return some (toString number.toInt)
    | .record type _ => return some ((← module).typeName type)
    | other => return some other.text

/-- What `ToString` makes of a value, null excepted. -/
def display (value : Value) : Exec (Option String) := do
  displayWithin ((← get).heap.count + 2) value

def utf16Length (text : String) : Nat :=
  text.toList.foldl (fun count char => count + if char.toNat < 0x10000 then 1 else 2) 0

variable (run : Runner)

/-- Calls what a delegate stands for, on its target if it has one. -/
def invokeDelegate (reference : HeapRef) : Exec Value := do
  match ← readHeap (·.get reference) with
  | .delegate _ target pointer =>
    let callable ← ofExcept ((← get).function pointer)
    let arguments := if callable.hasThis || !target.isNull then [target] else []
    match callable with
    | .method definition =>
      if definition.isVirtual then callVirtual run definition arguments
      else invoke run callable arguments
    | _ => invoke run callable arguments
  | _ => throw (.typeMismatch (.notDelegate reference))

def runCore (operation : CoreNative) (arguments : List Value) : Exec Value := do
  match operation with
  | .nothing => return .void
  | .toString =>
    let receiver ←
      match ← argument arguments 0 with
      | .pointer location => load location
      | other => pure other
    match ← display receiver with
    | some text => newString text
    | none => nullReference
  | .concat =>
    let left ← stringArgument? arguments 0
    let right ← stringArgument? arguments 1
    newString (left.getD "" ++ right.getD "")
  | .toUpper => newString (Text.toUpper (← stringReceiver arguments))
  | .length =>
    let length := utf16Length (← stringReceiver arguments)
    if length < 0x80000000 then return .int32 (Int32.ofNat length)
    else throw (.notSupported .stringTooLong)
  | .equality =>
    let left ← stringArgument? arguments 0
    let right ← stringArgument? arguments 1
    return .ofBool (left == right)
  | .writeLineString =>
    let line ← stringArgument? arguments 0
    modify (·.writeLine (line.getD ""))
    return .void
  | .writeLineInt =>
    let number ← ofExcept (← argument arguments 0).asInt32
    modify (·.writeLine (toString number.toInt))
    return .void
  | .message =>
    let exception ← objectOf (← argument arguments 0)
    newString (← describeException exception).2
  | .setMessage =>
    let exception ← objectOf (← argument arguments 0)
    let message ← argument arguments 1
    onHeap (Heap.setField exception Core.exceptionMessageField message)
    return .void
  | .createDelegate =>
    let reference ← objectOf (← argument arguments 0)
    let target ← argument arguments 1
    match ← argument arguments 2 with
    | .function pointer =>
      onHeap (Heap.update reference fun _ => .ok (.delegate Core.action target pointer))
      return .void
    | other => throw (.typeMismatch (.delegateNeedsFunction other.text))
  | .invokeDelegate => invokeDelegate run (← objectOf (← argument arguments 0))

end Exec

/-- The methods of the core library with what they do. -/
def Core.natives : List (Token × CoreNative) :=
  [ (objectConstructor, .nothing), (objectToString, .toString), (stringConcat, .concat),
    (stringToUpper, .toUpper), (stringLength, .length), (stringEquality, .equality),
    (writeLineString, .writeLineString), (writeLineInt, .writeLineInt),
    (exceptionMessage, .message), (actionConstructor, .createDelegate),
    (actionInvoke, .invokeDelegate) ] ++
  exceptionConstructors.flatMap fun (_, plain, withMessage) =>
    [(plain, .nothing), (withMessage, .setMessage)]

/-- The native method that implements a method of the core library. -/
def Native.ofCore (module : Module) (method : Token) (operation : CoreNative) :
    Except Error Native := do
  let definition ← module.method method
  let receiver ←
    if definition.isStatic then pure []
    else pure [← module.typeSig definition.declaringType]
  return { name := module.methodName method, params := receiver ++ definition.params
           returnType := definition.returnType, body := .core operation }

/-- A machine that has executed nothing yet. -/
def Machine.ofModule (module : Module) (limits : Limits) : Machine :=
  { heap := .empty limits.heapObjects, statics := [], console := #[]
    natives := Core.natives.filterMap fun (method, operation) =>
      match Native.ofCore module method operation with
      | .ok native => some (method, native)
      | .error _ => none
    bodies := [], functions := #[], runs := #[], limits, frames := #[], depth := 0
    executed := 0 }

end Cil
