import Cil.Machine.Action
import Cil.Machine.Call

/-!
# Executing one instruction

An instruction takes values from the evaluation stack, whose top comes first, and
leaves others.  What becomes of the control flow is its effect.
-/

namespace Cil

open MonadExcept (ofExcept)

/-- What an instruction does to the control flow. -/
inductive Effect
  /-- Goes on with the next instruction, on behalf of a type if one was named. -/
  | next (stack : List Value) (constraint? : Option Token := none)
  | jump (target : Nat) (stack : List Value)
  | leave (target : Nat)
  | returned (value : Value)
  | thrown (exception : HeapRef)
  | endFinally
  | endFilter (accepted : Bool)
deriving Inhabited

namespace Exec

/-! ## Operands and the stack -/

/-- The failure of an operand that does not fit its instruction. -/
def badOperand {α : Type} (instruction : Instruction) : Exec α :=
  throw (.malformed (.unexpectedOperand instruction.offset instruction.mnemonic))

def operand {α : Type} (instruction : Instruction) (operand? : Option α) : Exec α :=
  match operand? with
  | some operand => pure operand
  | none => badOperand instruction

def tokenOperand (instruction : Instruction) : Exec Token :=
  operand instruction instruction.token?

def branchTarget (instruction : Instruction) : Exec Nat :=
  operand instruction instruction.targets.head?

def pop (instruction : Instruction) : List Value → Exec (Value × List Value)
  | value :: rest => pure (value, rest)
  | [] => throw (.stackUnderflow instruction.offset)

/-- Takes the two topmost values: the lower one, then the upper one. -/
def popPair (instruction : Instruction) (stack : List Value) :
    Exec (Value × Value × List Value) := do
  let (right, stack) ← pop instruction stack
  let (left, stack) ← pop instruction stack
  return (left, right, stack)

/-- Takes the arguments of a call, the lowest first. -/
def popArguments (instruction : Instruction) (count : Nat) (stack : List Value) :
    Exec (List Value × List Value) :=
  if stack.length < count then throw (.stackUnderflow instruction.offset)
  else pure ((stack.take count).reverse, stack.drop count)

/-- The result of an operation on values.  Division by zero and overflow are managed
exceptions. -/
def orFault {α : Type} (instruction : Instruction) : Except Fault α → Exec α
  | .ok result => pure result
  | .error .divideByZero => raise Core.divideByZeroException
  | .error .overflow => raise Core.overflowException
  | .error (.mismatch complaint) =>
    throw (.typeMismatch (.operands instruction.offset complaint))

def floatOperand? (instruction : Instruction) : Option Float :=
  match instruction.operand with
  | .immediate (.float32 bits) => some (Number.widen bits)
  | .immediate (.float64 bits) => some (Float.ofBits bits)
  | _ => none

def int64Operand? (instruction : Instruction) : Option Int64 :=
  match instruction.operand with
  | .immediate (.int64 value) => some value
  | _ => none

/-! ## Arguments and locals -/

def frameAt (frame : Nat) : Exec Frame := do
  match (← get).frames[frame]? with
  | some slots => return slots
  | none => throw (.malformed (.frameNotActive frame))

def loadArgument (frame : Nat) (instruction : Instruction) : Exec Value := do
  let index ← operand instruction instruction.argumentIndex?
  match (← frameAt frame).arguments[index]? with
  | some value => return value
  | none => throw (.malformed (.noArgument instruction.offset index))

/-- Changes an argument to the top of the stack. -/
def storeArgument (frame : Nat) (instruction : Instruction) (stack : List Value) :
    Exec (List Value) := do
  let index ← operand instruction instruction.argumentIndex?
  let (value, stack) ← pop instruction stack
  if index < (← frameAt frame).arguments.size then
    modifyFrame frame fun slots =>
      { slots with arguments := slots.arguments.set! index value }
    return stack
  else throw (.malformed (.noArgument instruction.offset index))

def loadLocal (frame : Nat) (instruction : Instruction) : Exec Value := do
  let index ← operand instruction instruction.localIndex?
  match (← frameAt frame).locals[index]? with
  | some value => return value
  | none => throw (.malformed (.noLocal instruction.offset index))

/-- Changes a local to the top of the stack. -/
def storeLocal (frame : Nat) (instruction : Instruction) (stack : List Value) :
    Exec (List Value) := do
  let index ← operand instruction instruction.localIndex?
  let (value, stack) ← pop instruction stack
  if index < (← frameAt frame).locals.size then
    modifyFrame frame fun slots => { slots with locals := slots.locals.set! index value }
    return stack
  else throw (.malformed (.noLocal instruction.offset index))

/-! ## Fields -/

/-- The field of an object, of an instance, or of what a pointer leads to. -/
def loadFieldOf (instruction : Instruction) (field : Token) (owner : Value) : Exec Value := do
  match owner with
  | .null => nullReference
  | .object object => loadField object field
  | .pointer location =>
    match ← load location with
    | .object object => loadField object field
    | .null => nullReference
    | inside => ofExcept (inside.field field)
  | .record .. => ofExcept (owner.field field)
  | other =>
    throw (.typeMismatch
      (.notFieldOwner instruction.offset instruction.mnemonic other.text))

def fieldAddress (instruction : Instruction) (field : Token) (owner : Value) :
    Exec Pointer := do
  match owner with
  | .null => nullReference
  | .object object => return .objectField object field
  | .pointer location => return .valueField location field
  | other =>
    throw (.typeMismatch
      (.notFieldOwner instruction.offset instruction.mnemonic other.text))

def storeFieldOf (instruction : Instruction) (field : Token) (owner value : Value) :
    Exec Unit := do
  match owner with
  | .null => nullReference
  | .object object => onHeap (Heap.setField object field value)
  | .pointer location => store (.valueField location field) value
  | other =>
    throw (.typeMismatch
      (.notFieldOwner instruction.offset instruction.mnemonic other.text))

/-! ## Boxes and casts -/

/-- Whether the run-time type of a value is a subtype of a type. -/
def isInstanceOf (value : Value) (type : Token) : Exec Bool := do
  match ← runtimeType? value with
  | some runtimeType => return (← module).isSubtypeOf runtimeType type
  | none => return false

/-- What a failed cast calls the value. -/
def castSource (value : Value) : Exec String := do
  match ← attempt (runtimeType? value) with
  | .ok (some type) => return (← module).typeName type
  | _ => return value.text

def invalidCast {α : Type} (value : Value) (type : Token) : Exec α := do
  let source ← castSource value
  let target := (← module).typeName type
  raise Core.invalidCastException
    (some s!"Unable to cast object of type '{source}' to type '{target}'.")

/-- The box of exactly a type that a value refers to. -/
def boxOf (value : Value) (type : Token) : Exec HeapRef := do
  let reference ← objectOf value
  match ← readHeap (·.get reference) with
  | .boxed boxedType _ =>
    if boxedType = type then return reference else invalidCast value type
  | _ => invalidCast value type

/-- The value in a box, or the reference itself if the type is no value type. -/
def unboxAny (value : Value) (type : Token) : Exec Value := do
  if (← module).isValueType type then
    let reference ← boxOf value type
    return (← readHeap (·.unbox reference)).2
  else if value.isNull then return value
  else
    unless ← isInstanceOf value type do invalidCast value type
    return value

/-- The value if it is null or an instance of a type. -/
def cast (throws : Bool) (value : Value) (type : Token) : Exec Value := do
  if value.isNull then return value
  else if ← isInstanceOf value type then return value
  else if throws then invalidCast value type
  else return .null

/-! ## Arrays -/

def newArray (length : Int64) (elementType : Token) : Exec Value := do
  if length < 0 then raise Core.overflowException
  let module ← module
  let signature ← ofExcept (module.typeSig elementType)
  let zero ← ofExcept (module.zero signature)
  allocate (.array signature (Array.replicate length.toInt.toNat zero))

def arrayLength (array : Value) : Exec Value := do
  let reference ← objectOf array
  return .nativeInt (Int64.ofNat (← readHeap (·.length reference)))

/-- Takes an index and an array; the address of the element. -/
def popElementAddress (instruction : Instruction) (stack : List Value) :
    Exec (Pointer × List Value) := do
  let (index, stack) ← pop instruction stack
  let index ← ofExcept index.asInt64
  let (array, stack) ← pop instruction stack
  let reference ← objectOf array
  let length ← readHeap (·.length reference)
  if 0 ≤ index ∧ index.toInt < length then
    return (.element reference index.toInt.toNat, stack)
  else indexOutOfRange

/-! ## Calls -/

/-- What a call names: a method, or a native method in scope. -/
inductive CallTarget
  | method (definition : MethodDef)
  | native (provided : Native)

/-- What a token names in a call. -/
def callTarget (scope : Scope) (token : Token) : Exec CallTarget := do
  if token.isDynamic then
    match scope.find? token with
    | some (.native provided) => return .native provided
    | some (.member method) => return .method (← ofExcept ((← module).method method))
    | none => throw (.malformed (.dynamicTokenNotInScope token))
  else return .method (← ofExcept ((← module).method token))

/-- The method that a virtual function pointer to a method leads to. -/
def virtualTarget (receiver : Value) (method : MethodDef) : Exec MethodDef := do
  if receiver.isNull then nullReference
  match ← runtimeType? receiver with
  | some type => ofExcept ((← module).resolveVirtual type method)
  | none => return method

variable (run : Runner)

/-- Leaves the result of a call on the stack, if there is one. -/
def pushResult (hasResult : Bool) (result : Value) (stack : List Value) : List Value :=
  if hasResult then result :: stack else stack

/-- Executes an instruction that names a method. -/
def stepCall (scope : Scope) (instruction : Instruction) (constraint? : Option Token)
    (stack : List Value) : Exec (List Value) := do
  match ← callTarget scope (← tokenOperand instruction) with
  | .native provided =>
    let (arguments, stack) ← popArguments instruction provided.params.length stack
    let result ← run (.native provided arguments)
    return pushResult provided.signature.hasResult result stack
  | .method method =>
    match instruction.opcode with
    | .newobj =>
      let (arguments, stack) ← popArguments instruction method.params.length stack
      return (← construct run method arguments) :: stack
    | .ldftn => return (← newFunction (.method method)) :: stack
    | .ldvirtftn =>
      let (receiver, stack) ← pop instruction stack
      return (← newFunction (.method (← virtualTarget receiver method))) :: stack
    | opcode =>
      let (arguments, stack) ← popArguments instruction method.signature.stackPops stack
      let result ←
        match opcode, constraint? with
        | .callvirt, some constraint => callConstrained run constraint method arguments
        | .callvirt, none => callVirtual run method arguments
        | _, _ => callMethod run method arguments
      return pushResult method.signature.hasResult result stack

/-- Executes a call through a function pointer. -/
def stepIndirectCall (instruction : Instruction) (stack : List Value) :
    Exec (List Value) := do
  match ← ofExcept ((← module).standAloneSignature (← tokenOperand instruction)) with
  | .locals _ => throw (.malformed (.indirectCallSignature instruction.offset))
  | .method site =>
    match ← pop instruction stack with
    | (.function pointer, stack) =>
      let (arguments, stack) ← popArguments instruction site.stackPops stack
      let callable ← ofExcept ((← get).function pointer)
      let result ← invoke run callable arguments
      return pushResult site.hasResult result stack
    | _ => throw (.typeMismatch (.notFunctionPointer instruction.offset))

/-! ## Instructions -/

/-- The exception that `rethrow` throws again: the latest one that was delivered to a
handler around the instruction. -/
def rethrown (frame : Nat) (clauses : List Clause) (instruction : Instruction) :
    Exec HeapRef := do
  let position := Clause.positionOf instruction.offset
  let caught := (← frameAt frame).caught
  match caught.find? fun (index, _) => clauses[index]?.any (·.inHandler position) with
  | some (_, exception) => return exception
  | none => throw (.malformed (.rethrowOutsideHandler instruction.offset))

/-- Executes an instruction that goes on with the next one. -/
def stepStraight (scope : Scope) (frame : Nat) (instruction : Instruction)
    (constraint? : Option Token) (stack : List Value) (action : Action) :
    Exec (List Value) := do
  match action with
  | .loadNull => return .null :: stack
  | .loadInt32 => return .int32 (← operand instruction instruction.int32Constant?) :: stack
  | .loadInt64 => return .int64 (← operand instruction (int64Operand? instruction)) :: stack
  | .loadFloat => return .float (← operand instruction (floatOperand? instruction)) :: stack
  | .loadString =>
    let text ← ofExcept ((← module).userString (← tokenOperand instruction))
    return (← newString text) :: stack
  | .duplicate =>
    let (value, stack) ← pop instruction stack
    return value :: value :: stack
  | .discard => return (← pop instruction stack).2
  | .loadArgument => return (← loadArgument frame instruction) :: stack
  | .loadArgumentAddress =>
    let index ← operand instruction instruction.argumentIndex?
    return .pointer (.argument frame index) :: stack
  | .storeArgument => storeArgument frame instruction stack
  | .loadLocal => return (← loadLocal frame instruction) :: stack
  | .loadLocalAddress =>
    let index ← operand instruction instruction.localIndex?
    return .pointer (.localSlot frame index) :: stack
  | .storeLocal => storeLocal frame instruction stack
  | .binary op =>
    let (left, right, stack) ← popPair instruction stack
    return (← orFault instruction (left.binary op right)) :: stack
  | .shift op =>
    let (value, amount, stack) ← popPair instruction stack
    return (← orFault instruction (value.shift op amount)) :: stack
  | .unary op =>
    let (value, stack) ← pop instruction stack
    return (← orFault instruction (value.unary op)) :: stack
  | .compare condition =>
    let (left, right, stack) ← popPair instruction stack
    return .ofBool (← orFault instruction (left.satisfy condition right)) :: stack
  | .convert conversion =>
    let (value, stack) ← pop instruction stack
    return (← orFault instruction (value.convert conversion)) :: stack
  | .call | .callVirtual | .construct | .loadFunction | .loadVirtualFunction =>
    stepCall run scope instruction constraint? stack
  | .callIndirect => stepIndirectCall run instruction stack
  | .loadField =>
    let field ← tokenOperand instruction
    let (owner, stack) ← pop instruction stack
    return (← loadFieldOf instruction field owner) :: stack
  | .loadFieldAddress =>
    let field ← tokenOperand instruction
    let (owner, stack) ← pop instruction stack
    return .pointer (← fieldAddress instruction field owner) :: stack
  | .storeField =>
    let field ← tokenOperand instruction
    let (owner, value, stack) ← popPair instruction stack
    storeFieldOf instruction field owner value
    return stack
  | .loadStatic => return (← loadStatic (← tokenOperand instruction)) :: stack
  | .loadStaticAddress =>
    return .pointer (.staticField (← tokenOperand instruction)) :: stack
  | .storeStatic =>
    let (value, stack) ← pop instruction stack
    let field ← tokenOperand instruction
    modify (·.setStatic field value)
    return stack
  | .box =>
    let (value, stack) ← pop instruction stack
    return (← box (← tokenOperand instruction) value) :: stack
  | .unbox =>
    let type ← tokenOperand instruction
    let (value, stack) ← pop instruction stack
    return .pointer (.boxed (← boxOf value type)) :: stack
  | .unboxAny =>
    let type ← tokenOperand instruction
    let (value, stack) ← pop instruction stack
    return (← unboxAny value type) :: stack
  | .cast throws =>
    let type ← tokenOperand instruction
    let (value, stack) ← pop instruction stack
    return (← cast throws value type) :: stack
  | .setToZero =>
    let (pointer, stack) ← pop instruction stack
    let zero ← ofExcept ((← module).zeroOfType (← tokenOperand instruction))
    store (← ofExcept pointer.asPointer) zero
    return stack
  | .loadIndirect width? =>
    let (pointer, stack) ← pop instruction stack
    let value ← load (← ofExcept pointer.asPointer)
    match width? with
    | some width => return (← orFault instruction (value.convert { target := width })) :: stack
    | none => return value :: stack
  | .storeIndirect width? =>
    let (pointer, value, stack) ← popPair instruction stack
    let value ←
      match width? with
      | some width => orFault instruction (value.convert { target := width })
      | none => pure value
    store (← ofExcept pointer.asPointer) value
    return stack
  | .newArray =>
    let (length, stack) ← pop instruction stack
    let length ← ofExcept length.asInt64
    return (← newArray length (← tokenOperand instruction)) :: stack
  | .arrayLength =>
    let (array, stack) ← pop instruction stack
    return (← arrayLength array) :: stack
  | .loadElementAddress =>
    let (address, stack) ← popElementAddress instruction stack
    return .pointer address :: stack
  | .loadElement =>
    let (address, stack) ← popElementAddress instruction stack
    return (← load address) :: stack
  | .storeElement =>
    let (value, stack) ← pop instruction stack
    let (address, stack) ← popElementAddress instruction stack
    store address value
    return stack
  | _ => return stack

def step (clauses : List Clause) (scope : Scope) (frame : Nat) (instruction : Instruction)
    (constraint? : Option Token) (stack : List Value) : Exec Effect := do
  match instruction.opcode.action? with
  | none =>
    throw (.unsupportedInstruction instruction.offset
      (.noExecutionRule instruction.mnemonic))
  | some .mark => return .next stack constraint?
  | some .constrain => return .next stack (some (← tokenOperand instruction))
  | some .returnValue => return .returned (stack.head?.getD .void)
  | some .jump => return .jump (← branchTarget instruction) stack
  | some (.jumpIf expected) =>
    let (value, stack) ← pop instruction stack
    if value.isTrue = expected then return .jump (← branchTarget instruction) stack
    else return .next stack
  | some (.jumpWhen condition) =>
    let (left, right, stack) ← popPair instruction stack
    if ← orFault instruction (left.satisfy condition right) then
      return .jump (← branchTarget instruction) stack
    else return .next stack
  | some .select =>
    let (selector, stack) ← pop instruction stack
    let selector ← ofExcept selector.asInt32
    if selector < 0 then return .next stack
    else
      match instruction.targets[selector.toInt.toNat]? with
      | some target => return .jump target stack
      | none => return .next stack
  | some .leave => return .leave (← branchTarget instruction)
  | some .endFinally => return .endFinally
  | some .endFilter => return .endFilter (← pop instruction stack).1.isTrue
  | some .throw =>
    match (← pop instruction stack).1 with
    | .object exception => return .thrown exception
    | .null => nullReference
    | other => throw (.typeMismatch (.cannotThrow instruction.offset other.text))
  | some .rethrow => return .thrown (← rethrown frame clauses instruction)
  | some action =>
    return .next (← stepStraight run scope frame instruction constraint? stack action)

end Exec

end Cil
