import Cil.Error
import Cil.Number.Shortest
import Cil.Signature

/-!
# Values and managed pointers

A value is what a slot of the evaluation stack, an argument, a local, a field or
an array element holds.  Instances of value types carry their fields themselves;
everything on the heap is reached through a reference.

A managed pointer is a path to a location.  Its root is a slot of a frame, an
array element, a field or a box, and it may lead on through fields of value types.
-/

namespace Cil

/-- A managed pointer. -/
inductive Pointer
  | localSlot (frame index : Nat)
  | argument (frame index : Nat)
  | element (array : HeapRef) (index : Nat)
  | objectField (object : HeapRef) (field : Token)
  | staticField (field : Token)
  | boxed (object : HeapRef)
  | valueField (parent : Pointer) (field : Token)
deriving DecidableEq, Repr, Inhabited

namespace Pointer

def text : Pointer → String
  | localSlot frame index => s!"&loc{index}@{frame}"
  | argument frame index => s!"&arg{index}@{frame}"
  | element array index => s!"&{array}[{index}]"
  | objectField object field => s!"&{object}.{field}"
  | staticField field => s!"&static {field}"
  | boxed object => s!"&unbox {object}"
  | valueField parent field => parent.text ++ "." ++ field.text

instance : ToString Pointer := ⟨text⟩

/-- The location at which the path of a pointer starts. -/
def root : Pointer → Pointer
  | valueField parent _ => parent.root
  | pointer => pointer

end Pointer

inductive Value
  | void
  | int32 (value : Int32)
  | int64 (value : Int64)
  | float (value : Float)
  | nativeInt (value : Int64)
  | null
  | object (reference : HeapRef)
  | pointer (target : Pointer)
  | function (reference : FunctionPointer)
  /-- An instance of a value type: its type and its fields, in order. -/
  | record (type : Token) (fields : List (Token × Value))
deriving Repr

namespace Value

instance : Inhabited Value := ⟨void⟩

/-- The truth values are the integers zero and one. -/
def ofBool (truth : Bool) : Value :=
  int32 (if truth then 1 else 0)

def floatText (value : Float) : String :=
  Number.decimalText Number.binary64 value.toBits.toNat

mutual

def text : Value → String
  | void => "void"
  | int32 value => toString value.toInt
  | int64 value => toString value.toInt ++ "L"
  | float value => floatText value
  | nativeInt value => toString value.toInt ++ "n"
  | null => "null"
  | object reference => reference.text
  | .pointer target => target.text
  | function reference => reference.text
  | record type fields =>
    s!"valuetype {type} \x7b" ++ String.intercalate "," (fieldTexts fields) ++ " \x7d"

def fieldTexts : List (Token × Value) → List String
  | [] => []
  | (field, value) :: rest => (s!" {field}: " ++ text value) :: fieldTexts rest

end

instance : ToString Value := ⟨text⟩

def isNull : Value → Bool
  | null => true
  | _ => false

/-- Whether a conditional branch takes the value for true. -/
def isTrue : Value → Bool
  | int32 value => value != 0
  | int64 value | nativeInt value => value != 0
  | float value => value != 0.0
  | null | void => false
  | object _ | pointer _ | function _ | record .. => true

/-! ## Reading a value as something more definite -/

/-- The failure of reading a value as something that it is not. -/
def unexpected {α : Type} (shape : String) (value : Value) : Except Error α :=
  .error (.typeMismatch (.expected shape value.text))

/-- Integers of any width, reduced to 32 bits. -/
def asInt32 : Value → Except Error Int32
  | int32 value => .ok value
  | int64 value | nativeInt value => .ok value.toInt32
  | other => other.unexpected "int32"

/-- Integers of any width, extended to 64 bits. -/
def asInt64 : Value → Except Error Int64
  | int32 value => .ok value.toInt64
  | int64 value | nativeInt value => .ok value
  | other => other.unexpected "int64"

/-- The nearest floating point number, if the value is a number. -/
def float? : Value → Option Float
  | float value => some value
  | int32 value => some value.toFloat
  | int64 value | nativeInt value => some value.toFloat
  | _ => none

/-- Numbers as floating point numbers. -/
def asFloat (value : Value) : Except Error Float :=
  match value.float? with
  | some number => .ok number
  | none => value.unexpected "float64"

/-- Object references; null is no object. -/
def asObject : Value → Except Error (Option HeapRef)
  | object reference => .ok (some reference)
  | null => .ok none
  | other => other.unexpected "object reference"

/-- Managed pointers. -/
def asPointer : Value → Except Error Pointer
  | pointer target => .ok target
  | other => other.unexpected "managed pointer"

/-- The type of an instance of a value type. -/
def recordType? : Value → Option Token
  | record type _ => some type
  | _ => none

/-! ## Fields of value types -/

/-- Replaces the value that belongs to a key, if the key is there. -/
def replaceField? (fields : List (Token × Value)) (field : Token) (value : Value) :
    Option (List (Token × Value)) :=
  match fields with
  | [] => none
  | (key, old) :: rest =>
    if key = field then some ((key, value) :: rest)
    else (replaceField? rest field value).map ((key, old) :: ·)

/-- Gives a key a value, whether or not it is there. -/
def insertField (fields : List (Token × Value)) (field : Token) (value : Value) :
    List (Token × Value) :=
  (replaceField? fields field value).getD (fields ++ [(field, value)])

def field (value : Value) (field : Token) : Except Error Value :=
  match value with
  | record _ fields =>
    match fields.lookup field with
    | some found => .ok found
    | none => .error (.fieldNotFound field)
  | other => other.unexpected "value type instance"

def setField (value : Value) (field : Token) (new : Value) : Except Error Value :=
  match value with
  | record type fields =>
    match replaceField? fields field new with
    | some fields => .ok (record type fields)
    | none => .error (.fieldNotFound field)
  | other => other.unexpected "value type instance"

end Value

end Cil
