import Cil.Document.Signature
import Cil.Machine.Callable
import Cil.Machine.Heap
import Cil.Text.UpperCase

/-!
# Documents of values, programs and heap objects

A value is read as the program that makes it, since making it may allocate.  Parts are
made from left to right.  An expression of the host is read as a program that depends on
the arguments of a native method.

Nested documents are read with a number of steps that bounds how deep they may be.
-/

namespace Cil

namespace Program

/-- Goes on with an outcome. -/
def ofOutcome {α : Type} (outcome : Except Error α) (next : α → Program) : Program :=
  match outcome with
  | .ok value => next value
  | .error error => fail error

/-- Runs programs one after the other and goes on with all their values. -/
def collect : List Program → (List Value → Program) → Program
  | [], next => next []
  | first :: rest, next =>
    first.andThen fun value => collect rest fun values => next (value :: values)

/-- A program that points into the object that another program's value refers to. -/
def pointInto (owner : Program) (pointer : HeapRef → Pointer) : Program :=
  owner.andThen fun owner => ofOutcome owner.asObject fun
    | some reference => done (.pointer (pointer reference))
    | none => ofOutcome (owner.unexpected "object reference") done

/-- The texts of values, where strings are put between single quotes. -/
def textsOf : List Value → (List String → Program) → Program
  | [], next => next []
  | value :: rest, next =>
    readString value fun string =>
      let text := match string with
        | .ok (some string) => "'" ++ string ++ "'"
        | _ => value.text
      textsOf rest fun texts => next (text :: texts)

/-- The sum of integers, reduced to 32 bits. -/
def sumOf (values : List Value) : Except Error Int32 :=
  values.foldlM (fun sum value => return sum + (← value.asInt32)) 0

end Program

/-! ## Values -/

mutual

/-- The program that makes the value that a document describes. -/
def Value.programWithin : (steps : Nat) → (document : Document) → Reader Program
  | 0, _ => throw "value nested too deep"
  | steps + 1, document => do
    let part (name : String) : Reader Program :=
      Value.programWithin steps (document.field name)
    match document with
    | .null => return .done .null
    | .text mark => return .done (← namedIn (← read).values (mark.toList.drop 1))
    | .record [("void", _)] => return .done .void
    | .record [("i4", number)] => return .done (.int32 (← fromDocument number))
    | .record [("i8", number)] =>
      return .done (.int64 (Int64.ofInt (← fromDocument number)))
    | .record [("n", number)] =>
      return .done (.nativeInt (Int64.ofInt (← fromDocument number)))
    | .record [("r8", bits)] =>
      return .done (.float (Float.ofBits (UInt64.ofNat (← bits.readBits))))
    | .record [("bool", truth)] => return .done (.ofBool (← fromDocument truth))
    | .record [("str", text)] => return .ask (.newString (← fromDocument text))
    | .record [("ref", id)] => return .done (.object ⟨← fromDocument id⟩)
    | .record [("default", signature)] => return .ask (.zero (← fromDocument signature))
    | .record [("new", type)] => return .ask (.newObject (← fromDocument type))
    | .record [("fn", method)] => return .ask (.functionPointer (← fromDocument method))
    | .record [("ptr", location)] => Pointer.programWithin steps location
    | document =>
      if document.has "box" then
        let type ← document.get "box"
        return (← part "value").andThen fun payload => .ask (.newBox type payload)
      else if document.has "array" then
        let elementType ← document.get "array"
        let elements ← (← (document.field "elems").items).mapM (Value.programWithin steps)
        return .collect elements fun elements => .ask (.newArray elementType elements)
      else if document.has "vt" then
        let type ← document.get "vt"
        let fields : List (Token × Document) ← document.get "fields"
        let values ← fields.mapM fun field => Value.programWithin steps field.2
        return .collect values fun values =>
          .done (.record type ((fields.map (·.1)).zip values))
      else throw "value expected"

/-- The program that makes the pointer that a document describes. -/
def Pointer.programWithin : (steps : Nat) → (document : Document) → Reader Program
  | 0, _ => throw "pointer nested too deep"
  | steps + 1, document => do
    match document with
    | .record [("static", field)] =>
      return .done (.pointer (.staticField (← fromDocument field)))
    | .record [("local", slot)] =>
      let (frame, index) ← fromDocument slot
      return .done (.pointer (.localSlot frame index))
    | .record [("arg", slot)] =>
      let (frame, index) ← fromDocument slot
      return .done (.pointer (.argument frame index))
    | .record [("elem", .list [array, index])] =>
      let index ← fromDocument index
      return (← Value.programWithin steps array).pointInto (.element · index)
    | .record [("field", .list [owner, field])] =>
      let field ← fromDocument field
      return (← Value.programWithin steps owner).pointInto (.objectField · field)
    | .record [("boxed", owner)] =>
      return (← Value.programWithin steps owner).pointInto .boxed
    | .record [("vfield", .list [parent, field])] =>
      let field ← fromDocument field
      return (← Pointer.programWithin steps parent).andThen fun parent =>
        .ofOutcome parent.asPointer fun parent => .done (.pointer (.valueField parent field))
    | document => Value.programWithin steps document

end

/-- A document of a value is the program that makes it. -/
instance : FromDocument Program where
  fromDocument document := Value.programWithin (2 * document.depth) document

/-! ## Expressions -/

/-- A program that depends on arguments. -/
abbrev Expression := List Value → Program

namespace Expression

/-- Evaluates expressions from left to right and goes on with their values. -/
def all (operands : List Expression) (next : List Value → Program) : Expression :=
  fun arguments => .collect (operands.map (· arguments)) next

/-- The expression that a document describes. -/
def ofDocumentWithin : (steps : Nat) → (document : Document) → Reader Expression
  | 0, _ => throw "expression nested too deep"
  | steps + 1, document => do
    let one (operand : Document) (next : Value → Program) : Reader Expression := do
      let operand ← ofDocumentWithin steps operand
      return fun arguments => (operand arguments).andThen next
    let every (operands : List Document) (next : List Value → Program) :
        Reader Expression :=
      return all (← operands.mapM (ofDocumentWithin steps)) next
    let call (request : Token → List Value → Request) (method : Document)
        (operands : List Document) : Reader Expression := do
      let method ← fromDocument method
      let call ← every operands fun values => .ask (request method values)
      return fun arguments => .perform (.resolve method) fun _ => call arguments
    match document with
    | .record [("value", value)] =>
      let value : Program ← fromDocument value
      return fun _ => value
    | .record [("arg", index)] =>
      let index : Nat ← fromDocument index
      return fun arguments =>
        match arguments[index]? with
        | some value => .done value
        | none => .fail (.typeMismatch (.refused "native got too few arguments"))
    | .record [("argc", _)] =>
      return fun arguments => .done (.int32 (Int32.ofNat arguments.length))
    | .record [("depth", _)] => return fun _ => .ask .depth
    | .record [("executed", _)] => return fun _ => .ask .executed
    | .record [("seq", operands)] =>
      every (← operands.items) fun values => .done (values.getLast?.getD .void)
    | .record [("log", .list (line :: operands))] =>
      let line : String ← fromDocument line
      every operands fun values => .textsOf values fun texts =>
        .ask (.writeLine (line ++ "(" ++ Text.commaSeparated texts ++ ")"))
    | .record [("upper", operand)] =>
      one operand fun value => .readString value fun string =>
        .ofOutcome string fun string => .ask (.newString (Text.toUpper (string.getD "")))
    | .record [("add", operands)] =>
      every (← operands.items) fun values =>
        .ofOutcome (Program.sumOf values) fun sum => .done (.int32 sum)
    | .record [("call", .list (method :: operands))] => call .call method operands
    | .record [("callvirt", .list (method :: operands))] =>
      call .callVirtual method operands
    | .record [("construct", .list (method :: operands))] =>
      call .construct method operands
    | .record [("load", pointer)] =>
      one pointer fun pointer =>
        .ofOutcome pointer.asPointer fun pointer => .ask (.load pointer)
    | .record [("store", .list [pointer, value])] =>
      every [pointer, value] fun
        | [pointer, value] =>
          .ofOutcome pointer.asPointer fun pointer => .ask (.store pointer value)
        | _ => .done .void
    | .record [("throw", .list (type :: message))] =>
      let type ← fromDocument type
      let message? ← fromDocument (message.headD .null)
      return fun _ => .ask (.throwNew type message?)
    | .record [("fail", reason)] =>
      let reason ← fromDocument reason
      return fun _ => .fail (.notSupported (.refused reason))
    | _ => throw "expression expected"

end Expression

instance : FromDocument Expression where
  fromDocument document := Expression.ofDocumentWithin document.depth document

instance : FromDocument Native where
  fromDocument document :=
    return { name := ← document.get "name", params := ← document.get "params"
             returnType := ← document.getD "ret" .void
             body := .host (← document.get "body") }

/-! ## Writing values -/

namespace Heap

mutual

/-- The document of a value.  Of an object only its kind and a summary are told. -/
def document (heap : Heap) : Value → Document
  | .void => .record [("void", true)]
  | .null => .null
  | .int32 value => .record [("i4", value.toInt)]
  | .int64 value => .record [("i8", Document.decimal value.toInt)]
  | .nativeInt value => .record [("n", Document.decimal value.toInt)]
  | .float value =>
    let bits : Document :=
      if value.isNaN then .text "nan" else .floatBits 8 value.toBits.toNat
    .record [("r8", bits)]
  | .pointer target => .record [("ptr", target.text)]
  | .function reference => .record [("fn", reference.id)]
  | .record type fields =>
    .record [("vt", type), ("fields", .list (fieldDocuments heap fields))]
  | .object reference =>
    let summary : List (String × Document) :=
      match heap.object? reference with
      | none => []
      | some (.string text) => [("is", "string"), ("str", text)]
      | some (.array type elements) =>
        [("is", (HeapObject.array type elements).kind), ("len", elements.size)]
      | some held => [("is", held.kind), ("type", held.type)]
    .record (("ref", toDocument reference.id) :: summary)

def fieldDocuments (heap : Heap) : List (Token × Value) → List Document
  | [] => []
  | (field, value) :: rest => .list [field, heap.document value] :: heap.fieldDocuments rest

end

/-- The document of an object with all that it holds. -/
def objectDocument (heap : Heap) (held : HeapObject) : Document :=
  let contents : List (String × Document) :=
    match held with
    | .string text => [("str", text)]
    | .array elementType elements =>
      [("elem", elementType), ("elems", elements.toList.map heap.document)]
    | .object type fields =>
      let sorted := fields.mergeSort fun first second => first.1.value ≤ second.1.value
      [("type", type), ("fields", .list (heap.fieldDocuments sorted))]
    | .boxed type value => [("type", type), ("value", heap.document value)]
    | .delegate type target method =>
      [("type", type), ("target", heap.document target), ("fn", method.id)]
  .record (("is", toDocument held.kind) :: contents)

end Heap

end Cil
