import Cil.Machine.Value
import Cil.Metadata.Core

/-!
# The heap

Objects are numbered from one in the order of their allocation and are never
freed, so the heap is the array of all objects allocated so far and a reference is
a position in it.  A limit bounds the number of objects.
-/

namespace Cil

/-- An object on the heap. -/
inductive HeapObject
  | string (text : String)
  | array (elementType : TypeSig) (elements : Array Value)
  | object (type : Token) (fields : List (Token × Value))
  | boxed (type : Token) (value : Value)
  | delegate (type : Token) (target : Value) (method : FunctionPointer)
deriving Repr, Inhabited

namespace HeapObject

/-- What kind of object it is, in words. -/
def kind : HeapObject → String
  | string _ => "string"
  | array .. => "array"
  | object .. => "object"
  | boxed .. => "boxed value"
  | delegate .. => "delegate"

/-- The type of an object.  Arrays count as plain objects. -/
def type : HeapObject → Token
  | string _ => Core.string
  | array .. => Core.object
  | object type _ | boxed type _ | delegate type _ _ => type

/-- The failure of using an object as something that it is not. -/
def unexpected {α : Type} (shape : String) (object : HeapObject) : Except Error α :=
  .error (.typeMismatch (.expected shape object.kind))

def asString : HeapObject → Except Error String
  | string text => .ok text
  | other => other.unexpected "string"

def asArray : HeapObject → Except Error (Array Value)
  | array _ elements => .ok elements
  | other => other.unexpected "array"

def asBoxed : HeapObject → Except Error (Token × Value)
  | boxed type value => .ok (type, value)
  | other => other.unexpected "boxed value"

/-- The field of an object or of a boxed instance.  A field that an object does not
hold has the value `default`. -/
def field (key : Token) (default : Value) : HeapObject → Except Error Value
  | object _ fields => .ok ((fields.lookup key).getD default)
  | boxed _ value => value.field key
  | other => .error (.typeMismatch (.noField other.kind key))

def setField (key : Token) (new : Value) : HeapObject → Except Error HeapObject
  | object type fields => .ok (object type (Value.insertField fields key new))
  | boxed type value => do return boxed type (← value.setField key new)
  | other => .error (.typeMismatch (.noField other.kind key))

/-- The array with one element changed, or nothing if the index is out of range. -/
def setElement (index : Nat) (new : Value) : HeapObject → Except Error (Option HeapObject)
  | array elementType elements =>
    if index < elements.size then
      .ok (some (array elementType (elements.set! index new)))
    else .ok none
  | other => other.unexpected "array"

def setBoxed (new : Value) : HeapObject → Except Error HeapObject
  | boxed type _ => .ok (boxed type new)
  | other => other.unexpected "boxed value"

end HeapObject

/-- All objects, in the order of their allocation. -/
structure Heap where
  objects : Array HeapObject
  /-- How many objects there may be; zero stands for any number. -/
  limit : Nat
deriving Repr

/-- An operation on the heap. -/
abbrev HeapM := EStateM Error Heap

namespace Heap

def empty (limit : Nat) : Heap := ⟨#[], limit⟩

instance : Inhabited Heap := ⟨empty 0⟩

def count (heap : Heap) : Nat := heap.objects.size

def object? (heap : Heap) (reference : HeapRef) : Option HeapObject :=
  match reference.id with
  | 0 => none
  | index + 1 => heap.objects[index]?

def contains (heap : Heap) (reference : HeapRef) : Bool :=
  (heap.object? reference).isSome

/-- The object that a reference names. -/
protected def get (heap : Heap) (reference : HeapRef) : Except Error HeapObject :=
  match heap.object? reference with
  | some object => .ok object
  | none => .error (.typeMismatch (.notLive reference))

def typeOf (heap : Heap) (reference : HeapRef) : Except Error Token := do
  return (← heap.get reference).type

def string (heap : Heap) (reference : HeapRef) : Except Error String := do
  (← heap.get reference).asString

def length (heap : Heap) (reference : HeapRef) : Except Error Nat := do
  return (← (← heap.get reference).asArray).size

/-- The element of an array, or nothing if the index is out of range. -/
def element (heap : Heap) (reference : HeapRef) (index : Nat) :
    Except Error (Option Value) := do
  return (← (← heap.get reference).asArray)[index]?

def field (heap : Heap) (reference : HeapRef) (key : Token) (default : Value) :
    Except Error Value := do
  (← heap.get reference).field key default

def unbox (heap : Heap) (reference : HeapRef) : Except Error (Token × Value) := do
  (← heap.get reference).asBoxed

def put (heap : Heap) (reference : HeapRef) (object : HeapObject) : Heap :=
  { heap with objects := heap.objects.set! (reference.id - 1) object }

def allocate (object : HeapObject) : HeapM HeapRef := do
  let heap ← get
  if heap.limit ≠ 0 ∧ heap.limit ≤ heap.count then
    throw (.notSupported (.heapFull heap.limit))
  modifyGet fun heap => (⟨heap.count + 1⟩, { heap with objects := heap.objects.push object })

/-- Replaces an object by what a function makes of it. -/
def update (reference : HeapRef) (change : HeapObject → Except Error HeapObject) :
    HeapM Unit := do
  let object ← MonadExcept.ofExcept ((← get).get reference)
  let object ← MonadExcept.ofExcept (change object)
  modify (·.put reference object)

def setField (reference : HeapRef) (key : Token) (new : Value) : HeapM Unit :=
  update reference (·.setField key new)

/-- Changes an element of an array; tells whether the index is in range. -/
def setElement (reference : HeapRef) (index : Nat) (new : Value) : HeapM Bool := do
  let object ← MonadExcept.ofExcept ((← get).get reference)
  match ← MonadExcept.ofExcept (object.setElement index new) with
  | some object =>
    modify (·.put reference object)
    return true
  | none => return false

def setBoxed (reference : HeapRef) (new : Value) : HeapM Unit :=
  update reference (·.setBoxed new)

end Heap

end Cil
