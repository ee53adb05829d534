import Cil.Machine.Memory

/-!
# Calls

What has to happen before a call can run: finding the code of a method, choosing the
method that a virtual call runs, and making the object that a constructor works on.
Running the code itself is left to a `Runner`.
-/

namespace Cil

open MonadExcept (ofExcept)

/-- Something to run in a call of its own. -/
inductive Activation
  | native (provided : Native) (arguments : List Value)
  /-- Code, with what its dynamic tokens stand for. -/
  | code (code : MethodCode) (scope : Scope) (arguments : List Value)

/-- A way of running activations. -/
abbrev Runner := Activation → Exec Value

namespace Exec

/-- The decoded body of a method.  A body is decoded once. -/
def decoded (method : MethodDef) : Exec MethodCode := do
  match (← get).bodies.lookup method.token with
  | some code => return code
  | none =>
    let code ← ofExcept (MethodCode.ofMethod (← module) method)
    modify fun machine => { machine with bodies := (method.token, code) :: machine.bodies }
    return code

/-- The decoded body of a method that is about to run. -/
def executable (method : MethodDef) : Exec MethodCode := do
  match ← attempt (decoded method) with
  | .ok code => return code
  | .error (.unreadableMethodBody _) =>
    throw (.notSupported (.nothingToExecute ((← module).methodName method.token)))
  | .error error => throw error

/-- Runs a use of a temporary slot; the value of the slot afterwards. -/
def withTemporary (initial : Value) (use : Pointer → Exec Unit) : Exec Value := do
  let frame := (← get).frames.size
  modify fun machine =>
    { machine with frames := machine.frames.push { arguments := #[], locals := #[initial] } }
  let result ← attempt (use (.localSlot frame 0))
  let slot := ((← get).frames[frame]?.bind (·.locals.back?)).getD .void
  modify fun machine => { machine with frames := machine.frames.shrink frame }
  ofExcept result
  return slot

variable (run : Runner)

/-- Calls exactly a method.  A native implementation comes before a body. -/
def callMethod (method : MethodDef) (arguments : List Value) : Exec Value := do
  match (← get).native? method.token with
  | some native => run (.native native arguments)
  | none =>
    if method.isAbstract then
      throw (.notSupported (.abstractCall ((← module).methodName method.token)))
    run (.code (← executable method) {} arguments)

def invoke (callable : Callable) (arguments : List Value) : Exec Value :=
  match callable with
  | .method definition => callMethod run definition arguments
  | .dynamic assembled => run (.code assembled.code assembled.scope arguments)
  | .native provided => run (.native provided arguments)

/-- The run-time type of a receiver, which may be given by address. -/
def receiverType? (receiver : Value) : Exec (Option Token) := do
  match receiver with
  | .pointer location => runtimeType? (← load location)
  | other => runtimeType? other

/-- A boxed receiver becomes the address of what is in the box. -/
def unboxedReceiver : Value → Value
  | .object reference => .pointer (.boxed reference)
  | other => other

/-- Calls the method that fills the slot of a method on the receiver. -/
def callVirtual (method : MethodDef) (arguments : List Value) : Exec Value :=
  match arguments with
  | [] => throw (.typeMismatch (.noReceiver method.name))
  | receiver :: others => do
    if receiver.isNull then nullReference
    match ← receiverType? receiver with
    | none => callMethod run method arguments
    | some type =>
      let module ← module
      let target ← ofExcept (module.resolveVirtual type method)
      let receiver :=
        if module.isValueType target.declaringType then unboxedReceiver receiver
        else receiver
      callMethod run target (receiver :: others)

/-- Calls a method virtually on behalf of a type.  The receiver is given by address; a
value type's own method takes the address, and any other method takes an object. -/
def callConstrained (constraint : Token) (method : MethodDef) (arguments : List Value) :
    Exec Value := do
  match arguments with
  | .pointer location :: others =>
    let module ← module
    if !module.isValueType constraint then
      callVirtual run method ((← load location) :: others)
    else
      let target ← ofExcept (module.resolveVirtual constraint method)
      if target.declaringType = constraint then callMethod run target arguments
      else callVirtual run method ((← box constraint (← load location)) :: others)
  | _ => callVirtual run method arguments

/-- Makes an object and calls a constructor on it. -/
def construct (constructor : MethodDef) (arguments : List Value) : Exec Value := do
  let module ← module
  let type := constructor.declaringType
  if module.isValueType type then
    withTemporary (← ofExcept (module.zero (.valueType type))) fun location =>
      discard (callMethod run constructor (.pointer location :: arguments))
  else
    let object ← newObject type
    discard (callMethod run constructor (object :: arguments))
    return object

end Exec

end Cil
