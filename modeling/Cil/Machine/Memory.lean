import Cil.Machine.State
import Cil.Machine.Zero

/-!
# Objects and locations

Allocating and describing objects, and reading and writing through managed pointers.
A pointer into a value type writes by reading the whole value, changing one field and
writing the value back.
-/

namespace Cil

open MonadExcept (ofExcept)

namespace Exec

/-! ## Objects -/

def allocate (object : HeapObject) : Exec Value :=
  return .object (← onHeap (Heap.allocate object))

def newString (text : String) : Exec Value :=
  allocate (.string text)

/-- The text of a string; null has none. -/
def stringText? (value : Value) : Exec (Option String) := do
  match ← ofExcept value.asObject with
  | some reference => return some (← readHeap (·.string reference))
  | none => return none

/-- A new instance of a type with zero fields: on the heap, unless it is a value type. -/
def newObject (type : Token) : Exec Value := do
  let module ← module
  if module.isValueType type then ofExcept (module.zeroOfType type)
  else allocate (.object type (← ofExcept (module.zeroFields type)))

/-- A new exception, with a message if one is given. -/
def newException (type : Token) (message? : Option String) : Exec HeapRef := do
  match ← ofExcept (← newObject type).asObject with
  | none => throw (.typeMismatch (.exceptionIsValueType type))
  | some exception =>
    if let some message := message? then
      let message ← newString message
      onHeap (Heap.setField exception Core.exceptionMessageField message)
    return exception

def raise {α : Type} (type : Token) (message? : Option String := none) : Exec α := do
  throw (.thrown (← newException type message?))

def nullReference {α : Type} : Exec α :=
  raise Core.nullReferenceException

def indexOutOfRange {α : Type} : Exec α :=
  raise Core.indexOutOfRangeException

/-- The object that a value refers to; null throws. -/
def objectOf (value : Value) : Exec HeapRef := do
  match ← ofExcept value.asObject with
  | some reference => return reference
  | none => nullReference

/-- The type name and the message of an exception. -/
def describeException (exception : HeapRef) : Exec (String × String) := do
  let type ← readHeap (·.typeOf exception)
  let name := (← module).typeName type
  let message? ←
    match ← readHeap (·.get exception) with
    | .object _ fields =>
      match fields.lookup Core.exceptionMessageField with
      | some message => stringText? message
      | none => pure none
    | _ => pure none
  return (name, message?.getD s!"Exception of type '{name}' was thrown.")

/-- The type of a value at run time, if the value tells it. -/
def runtimeType? (value : Value) : Exec (Option Token) :=
  match value with
  | .object reference => return some (← readHeap (·.typeOf reference))
  | .record type _ => pure (some type)
  | .int32 _ => pure (some Core.int32)
  | .int64 _ | .nativeInt _ => pure (some Core.int64)
  | .float _ => pure (some Core.double)
  | .void | .null | .pointer _ | .function _ => pure none

/-- Puts a value into a box.  Values of other than value types stay as they are. -/
def box (type : Token) (value : Value) : Exec Value := do
  if (← module).isValueType type then allocate (.boxed type value) else return value

def newFunction (callable : Callable) : Exec Value :=
  return .function (← modifyGet fun machine => machine.addFunction callable)

/-! ## Locations -/

def loadStatic (field : Token) : Exec Value := do
  match (← get).static? field with
  | some value => return value
  | none => ofExcept ((← module).zeroOfField field)

def loadField (object : HeapRef) (field : Token) : Exec Value := do
  let zero ← ofExcept ((← module).zeroOfField field)
  readHeap (·.field object field zero)

/-- The failure of using a pointer to a slot that is gone. -/
def dangling {α : Type} (pointer : Pointer) : Exec α :=
  throw (.typeMismatch (.danglingPointer pointer.text))

def load (pointer : Pointer) : Exec Value :=
  match pointer with
  | .localSlot frame index => do
    match (← get).frames[frame]?.bind (·.locals[index]?) with
    | some value => return value
    | none => dangling pointer
  | .argument frame index => do
    match (← get).frames[frame]?.bind (·.arguments[index]?) with
    | some value => return value
    | none => dangling pointer
  | .element array index => do
    match ← readHeap (·.element array index) with
    | some value => return value
    | none => indexOutOfRange
  | .objectField object field => loadField object field
  | .staticField field => loadStatic field
  | .boxed object => return (← readHeap (·.unbox object)).2
  | .valueField parent field => do ofExcept ((← load parent).field field)

/-- Changes a frame that exists. -/
def modifyFrame (index : Nat) (change : Frame → Frame) : Exec Unit :=
  modify fun machine => { machine with frames := machine.frames.modify index change }

def store (pointer : Pointer) (value : Value) : Exec Unit :=
  match pointer with
  | .localSlot frame index => do
    if ((← get).frames[frame]?.bind (·.locals[index]?)).isSome then
      modifyFrame frame fun slots => { slots with locals := slots.locals.set! index value }
    else dangling pointer
  | .argument frame index => do
    if ((← get).frames[frame]?.bind (·.arguments[index]?)).isSome then
      modifyFrame frame fun slots =>
        { slots with arguments := slots.arguments.set! index value }
    else dangling pointer
  | .element array index => do
    unless ← onHeap (Heap.setElement array index value) do indexOutOfRange
  | .objectField object field => onHeap (Heap.setField object field value)
  | .staticField field => modify (·.setStatic field value)
  | .boxed object => onHeap (Heap.setBoxed object value)
  | .valueField parent field => do
    store parent (← ofExcept ((← load parent).setField field value))

end Exec

end Cil
