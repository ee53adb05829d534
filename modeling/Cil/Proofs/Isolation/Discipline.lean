import Cil.Proofs.Isolation.Stubs
import Cil.Proofs.Isolation.VirtualDispatch
import Cil.Proofs.Machine.CarefulRuns

/-!
# What isolation does not keep

An isolated run does what a plain run does, except for calls whose receivers are given in
unusual ways, for delegates that are bound to a method but not to what a virtual call of it would
run, and for what is read or written behind the back of a receiver that came in a box.  A
disciplined run asks at every instruction and at every native method whether it is one of these,
and stops there.
-/

namespace Cil

open MonadExcept (ofExcept)

/-- Whether the body of a method can be decoded, if it has one. -/
def Module.isLegible (module : Module) (method : MethodDef) : Bool :=
  match MethodCode.ofMethod module method with
  | .ok _ | .error (.unreadableMethodBody _) => true
  | .error _ => false

/-- Whether a function pointer to the method, made for a receiver, takes that receiver in a
box. -/
def Module.bindsBox (module : Module) (method : MethodDef) : Bool :=
  module.isValueType method.declaringType && method.isVirtual

/-- Whether an argument holds the address of what is in a box. -/
def Frame.holdsBoxAddress (frame : Frame) (index : Nat) : Bool :=
  match frame.arguments[index]? with
  | some (.pointer (.boxed _)) => true
  | _ => false

/-- Whether a pointer leads into no argument that holds the address of what is in a box. -/
def Machine.spares (machine : Machine) (pointer : Pointer) : Bool :=
  match pointer.root with
  | .argument frame index =>
    match machine.frames[frame]? with
    | some slots => !slots.holdsBoxAddress index
    | none => true
  | _ => true

def Machine.sparesValue (machine : Machine) : Value → Bool
  | .pointer location => machine.spares location
  | _ => true

def Value.isAddress : Value → Bool
  | .pointer _ => true
  | _ => false

namespace Heap

/-- Whether a value refers to a box of a type. -/
def isBoxOf (heap : Heap) (type : Token) : Value → Bool
  | .object reference =>
    match heap.get reference with
    | .ok (.boxed boxedType _) => boxedType == type
    | _ => false
  | _ => false

/-- Whether a reference is to a box of any type. -/
def isBox (heap : Heap) (reference : HeapRef) : Bool :=
  match heap.get reference with
  | .ok (.boxed ..) => true
  | _ => false

end Heap

namespace Exec

/-- Whether a piece of execution would succeed. -/
def succeeds {α : Type} (action : Exec α) (context : Context) (machine : Machine) : Bool :=
  match action context machine with
  | .ok _ _ => true
  | .error _ _ => false

/-- The answer to a question, or another one where asking fails. -/
def answerOr (otherwise : Bool) (question : Exec Bool) (context : Context) (machine : Machine) :
    Bool :=
  match question context machine with
  | .ok answer _ => answer
  | .error _ _ => otherwise

/-- Whether a value is the address of null. -/
def leadsToNull (value : Value) (context : Context) (machine : Machine) : Bool :=
  match value with
  | .pointer location => answerOr false (do return (← load location).isNull) context machine
  | _ => false

/-- Whether a virtual call passes its receiver on as a stub does. -/
def dispatchesPlainly (constraint? : Option Token) (method : MethodDef) (receiver : Value) :
    Exec Bool := do
  match ← planned constraint? method receiver with
  | .own _ =>
    let context ← read
    let machine ← get
    return succeeds (receiverOf? receiver) context machine
  | .virtual given =>
    if constraint?.isSome && given.isAddress then return false
    if leadsToNull given (← read) (← get) then return false
    match ← (Plan.virtual given).target? method with
    | none => return true
    | some target =>
      let module ← module
      if module.isInterface method.declaringType && module.isValueType target.declaringType then
        return (← get).heap.isBoxOf target.declaringType given
      else return true

/-- Whether a virtual function pointer is made as a stub makes it. -/
def pointsPlainly (method : MethodDef) (receiver : Value) : Exec Bool := do
  if receiver.isAddress then return false
  let module ← module
  let target ← virtualTarget receiver method
  return module.isLegible target &&
    (!module.isValueType target.declaringType || target.isVirtual)

/-- Whether a call of a kind does what a stub does. -/
def callsPlainly (kind : StubKind) (method : MethodDef) (arguments : List Value) :
    Exec Bool := do
  match kind, arguments with
  | .construct, _ => return (← module).isLegible method
  | .functionPointer, _ =>
    let module ← module
    return module.isLegible method && !module.bindsBox method
  | .virtualFunctionPointer, receiver :: _ => pointsPlainly method receiver
  | .virtual, receiver :: _ => dispatchesPlainly none method receiver
  | .constrained constraint, receiver :: _ => dispatchesPlainly (some constraint) method receiver
  | .call, receiver :: _ =>
    let context ← read
    let machine ← get
    return method.isStatic || succeeds (receiverOf? receiver) context machine
  | _, [] => return true

/-- Whether an instruction that names a method does what a stub does. -/
def namesPlainly (scope : Scope) (instruction : Instruction) (constraint? : Option Token)
    (stack : List Value) : Exec Bool := do
  match StubKind.ofOpcode? instruction.opcode constraint? with
  | none => return true
  | some kind =>
    match ← callTarget scope (← tokenOperand instruction) with
    | .native _ => return true
    | .method method =>
      let (arguments, _) ← popArguments instruction (kind.effect method).1 stack
      callsPlainly kind method arguments

/-- Whether what a function pointer leads to takes its receiver as any other argument. -/
def bindsNoBox (stack : List Value) : Exec Bool := do
  match stack with
  | .function pointer :: _ =>
    match ← ofExcept ((← get).function pointer) with
    | .method definition => return !(← module).bindsBox definition
    | _ => return true
  | _ => return true

/-- Whether an argument may be changed. -/
def replaceable (frame : Nat) (instruction : Instruction) : Exec Bool := do
  match instruction.argumentIndex?, (← get).frames[frame]? with
  | some index, some slots => return !slots.holdsBoxAddress index
  | _, _ => return true

/-- Whether an instruction does the same in an isolated run. -/
def isDisciplined (scope : Scope) (frame : Nat) (instruction : Instruction)
    (constraint? : Option Token) (stack : List Value) : Exec Bool := do
  match instruction.opcode.action? with
  | some .storeArgument => replaceable frame instruction
  | some .call | some .callVirtual | some .construct | some .loadFunction
  | some .loadVirtualFunction => namesPlainly scope instruction constraint? stack
  | some .callIndirect => bindsNoBox stack
  | _ => return true

/-- Whether a virtual call of a method on a target runs that method, in a box if the method is
one of a value type. -/
def bindsItself (definition : MethodDef) (target : Value) : Exec Bool := do
  if definition.isStatic || target.isNull then return false
  let module ← module
  let isValueType := module.isValueType definition.declaringType
  match ← receiverType? target with
  | none => return !isValueType
  | some type =>
    let resolved ← ofExcept (module.resolveVirtual type definition)
    return resolved == definition &&
      (!isValueType || (← get).heap.isBoxOf definition.declaringType target)

/-- Whether a delegate stands for the method that it is bound to. -/
def standsForItself (reference : HeapRef) : Exec Bool := do
  match ← readHeap (·.get reference) with
  | .delegate _ target pointer =>
    match ← ofExcept ((← get).function pointer) with
    | .method definition =>
      let context ← read
      let machine ← get
      return machine.sparesValue target && (definition.isStatic || !target.isNull) &&
        (!definition.isVirtual || answerOr false (bindsItself definition target) context machine)
    | _ => return true
  | _ => return true

/-- Whether a native method does the same in an isolated run. -/
def isDisciplinedNative (body : NativeBody) (arguments : List Value) : Exec Bool := do
  match body, arguments with
  | .core .createDelegate, .object reference :: _ => return !(← get).heap.isBox reference
  | .core .invokeDelegate, .object reference :: _ => standsForItself reference
  | _, _ => return true

end Exec

open Exec in
/-- The care that stops where an isolated run goes another way. -/
def Care.disciplined (stray : Error) : Care where
  instruction scope frame instruction constraint? stack := check stray fun context machine =>
    stack.all machine.sparesValue &&
      answerOr true (isDisciplined scope frame instruction constraint? stack) context machine
  native body arguments := check stray (answerOr true (isDisciplinedNative body arguments))

theorem Exec.stopsOnly_disciplined (stray : Error) : StopsOnly stray (.disciplined stray) where
  instruction _ _ _ _ _ := .check _
  native _ _ := .check _

end Cil
