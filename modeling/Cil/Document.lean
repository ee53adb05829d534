import Cil.Machine.Value
import Cil.Metadata.Core

/-!
# Documents

What the library takes and gives, apart from code itself, is written as documents:
numbers, texts, lists and records.  A field that a record lacks counts as null.

Reading a document can refer to names that were given to tokens and values before.
Null reads as no value, as the empty list or as false where one of these is wanted.
-/

namespace Cil

/-- A document. -/
inductive Document
  | null
  | truth (value : Bool)
  | number (value : Int)
  | text (value : String)
  | list (items : List Document)
  | record (fields : List (String × Document))
deriving Repr, Inhabited

/-- The names that a document can refer to. -/
structure Names where
  tokens : List (String × Token) := []
  values : List (String × Value) := []
deriving Inhabited

/-- A reader of documents; a failure says what was expected. -/
abbrev Reader := ReaderT Names (Except String)

/-- Types whose values can be read from documents. -/
class FromDocument (α : Type) where
  fromDocument : Document → Reader α

/-- Types whose values can be written as documents. -/
class ToDocument (α : Type) where
  toDocument : α → Document

export FromDocument (fromDocument)
export ToDocument (toDocument)

/-- Whatever can be written stands for its document. -/
instance {α : Type} [ToDocument α] : CoeOut α Document := ⟨toDocument⟩

namespace Document

mutual

/-- How deep a document is nested. -/
def depth : Document → Nat
  | list items => depthOfItems items + 1
  | record fields => depthOfFields fields + 1
  | _ => 1

def depthOfItems : List Document → Nat
  | [] => 0
  | item :: rest => max item.depth (depthOfItems rest)

def depthOfFields : List (String × Document) → Nat
  | [] => 0
  | (_, value) :: rest => max value.depth (depthOfFields rest)

end

/-! ## Fields -/

/-- Whether a record has a field, which may be null. -/
def has (document : Document) (name : String) : Bool :=
  match document with
  | record fields => (fields.lookup name).isSome
  | _ => false

/-- The field of a record, or null. -/
def field (document : Document) (name : String) : Document :=
  match document with
  | record fields => (fields.lookup name).getD null
  | _ => null

def field? (document : Document) (name : String) : Option Document :=
  match document.field name with
  | null => none
  | value => some value

/-- Reads a field of a record. -/
def get {α : Type} [FromDocument α] (document : Document) (name : String) : Reader α :=
  fromDocument (document.field name)

/-- Reads a field of a record that has a value if it is missing. -/
def getD {α : Type} [FromDocument α] (document : Document) (name : String) (default : α) :
    Reader α :=
  match document.field? name with
  | some value => fromDocument value
  | none => return default

/-- The items of a list; null has none. -/
def items : Document → Reader (List Document)
  | list items => return items
  | null => return []
  | _ => throw "list expected"

/-! ## Numbers in texts -/

def decimal (value : Int) : Document := text (toString value)

def floatBits (width bits : Nat) : Document := text (Text.hexLower (2 * width) bits)

/-- Reads the bits of a floating point number. -/
def readBits : Document → Reader Nat
  | text digits =>
    match Text.numberOfHex? digits.toList with
    | some bits => return bits
    | none => throw "bits expected"
  | _ => throw "bits expected"

end Document

/-! ## Plain values -/

instance : FromDocument Document := ⟨pure⟩

instance : FromDocument Int where
  fromDocument
    | .number value => return value
    | .text digits =>
      match digits.toInt? with
      | some value => return value
      | none => throw "integer expected"
    | _ => throw "integer expected"

instance : FromDocument Nat where
  fromDocument document := do
    match ← fromDocument (α := Int) document with
    | .ofNat value => return value
    | .negSucc _ => throw "natural number expected"

instance : FromDocument UInt16 where
  fromDocument document := return UInt16.ofNat (← fromDocument document)

instance : FromDocument Int32 where
  fromDocument document := return Int32.ofInt (← fromDocument document)

instance : FromDocument String where
  fromDocument
    | .text value => return value
    | _ => throw "text expected"

instance : FromDocument Bool where
  fromDocument
    | .truth value => return value
    | _ => return false

instance {α : Type} [FromDocument α] : FromDocument (Option α) where
  fromDocument
    | .null => return none
    | document => some <$> fromDocument document

instance {α : Type} [FromDocument α] : FromDocument (List α) where
  fromDocument document := do (← document.items).mapM fromDocument

instance {α β : Type} [FromDocument α] [FromDocument β] : FromDocument (α × β) where
  fromDocument
    | .list [first, second] => return (← fromDocument first, ← fromDocument second)
    | _ => throw "pair expected"

/-- Bytes are read from pairs of digits. -/
instance : FromDocument (List UInt8) where
  fromDocument
    | .text digits =>
      match Text.bytesOfHex? digits.toList with
      | some bytes => return bytes
      | none => throw "bytes expected"
    | _ => throw "bytes expected"

instance : ToDocument Document := ⟨id⟩
instance : ToDocument Unit := ⟨fun _ => .null⟩
instance : ToDocument Bool := ⟨.truth⟩
instance : ToDocument Nat := ⟨fun value => .number value⟩
instance : ToDocument Int := ⟨.number⟩
instance : ToDocument String := ⟨.text⟩

instance {α : Type} [ToDocument α] : ToDocument (Option α) where
  toDocument
    | some value => toDocument value
    | none => .null

instance {α : Type} [ToDocument α] : ToDocument (List α) where
  toDocument values := .list (values.map toDocument)

instance {α β : Type} [ToDocument α] [ToDocument β] : ToDocument (α × β) where
  toDocument pair := .list [toDocument pair.1, toDocument pair.2]

instance : ToDocument (List UInt8) := ⟨fun bytes => .text (Text.hexBytes bytes)⟩

instance : ToDocument Error where
  toDocument error := .record [("error", error.kind), ("message", error.message)]

/-- What succeeds is wrapped, so that it is told apart from what fails. -/
instance {α : Type} [ToDocument α] : ToDocument (Except Error α) where
  toDocument
    | .ok value => .record [("ok", value)]
    | .error error => error

/-! ## Tokens -/

/-- The names of the core library. -/
def Core.names : List (String × Token) :=
  [ ("object", object), ("object_ctor", objectConstructor),
    ("object_to_string", objectToString), ("value_type", valueType), ("int32", int32),
    ("int64", int64), ("double", double), ("boolean", boolean), ("char", char),
    ("string", string), ("string_concat", stringConcat),
    ("string_to_upper", stringToUpper), ("string_length", stringLength),
    ("string_equality", stringEquality), ("console", console),
    ("console_write_line_string", writeLineString),
    ("console_write_line_int", writeLineInt), ("exception", exception),
    ("exception_ctor", exceptionConstructor),
    ("exception_ctor_message", exceptionConstructorMessage),
    ("exception_message", exceptionMessage),
    ("exception_message_field", exceptionMessageField),
    ("null_reference_exception", nullReferenceException),
    ("invalid_cast_exception", invalidCastException),
    ("divide_by_zero_exception", divideByZeroException),
    ("overflow_exception", overflowException),
    ("index_out_of_range_exception", indexOutOfRangeException),
    ("invalid_operation_exception", invalidOperationException), ("action", action),
    ("action_ctor", actionConstructor), ("action_invoke", actionInvoke) ]

/-- Looks up a name that follows a mark. -/
def namedIn {α : Type} (known : List (String × α)) (name : List Char) : Reader α :=
  match known.lookup (String.ofList name) with
  | some found => return found
  | none => throw ("unknown name " ++ String.ofList name)

/-- Tokens are numbers, names given before, or names of the core library. -/
instance : FromDocument Token where
  fromDocument document := do
    match document with
    | .text mark =>
      match mark.toList with
      | '$' :: name => namedIn (← read).tokens name
      | '@' :: name => namedIn Core.names name
      | _ => return ⟨UInt32.ofNat (← fromDocument document)⟩
    | _ => return ⟨UInt32.ofNat (← fromDocument document)⟩

instance : ToDocument Token := ⟨fun token => .text token.text⟩

end Cil
