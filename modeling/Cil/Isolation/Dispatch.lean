import Cil.Isolation.Instrumentation
import Cil.Machine.Call

/-!
# What stubs do

A stub makes the call that it stands for: it looks for a shim that replaces the call,
and else runs the instrumented body of the method.  Virtual calls choose the method first.
-/

namespace Cil

open MonadExcept (ofExcept)

namespace Exec

/-- What a call knows about a receiver; null is none. -/
def receiverOf? (value : Value) : Exec (Option Receiver) := do
  let value ←
    match value with
    | .pointer location => load location
    | other => pure other
  match value with
  | .null => return none
  | .object reference =>
    return some { object? := some reference, runtimeType? := ← runtimeType? value }
  | other => return some { object? := none, runtimeType? := ← runtimeType? other }

def runOf (site : Stub) : Exec IsolationRun := do
  match (← get).run? site.run with
  | some isolation => return isolation
  | none => throw (.notSupported (.runEnded site.target.name))

def shimFor? (site : Stub) (method : MethodDef) (receiver? : Option Receiver) :
    Exec (Option Shim) := do
  return (← runOf site).shimFor? (← module) method receiver?

def implementation (site : Stub) (method : MethodDef) (forInterface : Bool) :
    Exec Callable := do
  onRun site.run (← runOf site)
    (IsolationRun.implementation (← module) site.run method forInterface)

/-- The method that a virtual call runs on a receiver. -/
def resolve (method : MethodDef) (receiver : Receiver) : Exec MethodDef := do
  match receiver.runtimeType? with
  | some type => ofExcept ((← module).resolveVirtual type method)
  | none => return method

variable (run : Runner)

def runReplacement (replacement : Replacement) (arguments : List Value) : Exec Value := do
  match replacement with
  | .native provided => run (.native provided arguments)
  | .managed token target? =>
    let method ← ofExcept ((← module).method token)
    let arguments := target?.toList ++ arguments
    if !method.isStatic && method.isVirtual then callVirtual run method arguments
    else callMethod run method arguments

/-- A call of exactly a method.  Calls of constructors on existing objects are not
replaced. -/
def stubCall (site : Stub) (method : MethodDef) (arguments : List Value) : Exec Value := do
  let receiver? ←
    match method.isStatic, arguments with
    | false, receiver :: _ => receiverOf? receiver
    | _, _ => pure none
  let shim? ←
    if method.isConstructor then pure none else shimFor? site method receiver?
  match shim? with
  | some shim => runReplacement run shim.replacement arguments
  | none => invoke run (← implementation site method false) arguments

/-- The receiver that a method of a value type takes: a box for a body that was instrumented
for interface calls, and an address for any other. -/
def adjustReceiver (type : Token) (wantsBox : Bool) (receiver : Value) : Exec Value := do
  match receiver, wantsBox with
  | .object reference, false => return .pointer (.boxed reference)
  | .pointer location, true => box type (← load location)
  | other, _ => return other

def isDynamic : Callable → Bool
  | .dynamic _ => true
  | _ => false

def stubVirtual (site : Stub) (method : MethodDef) (arguments : List Value) :
    Exec Value := do
  match arguments with
  | [] => throw (.typeMismatch (.noReceiver method.name))
  | first :: others =>
    match ← receiverOf? first with
    | none => nullReference
    | some receiver =>
      let resolved ← resolve method receiver
      match ← shimFor? site resolved receiver with
      | some shim => runReplacement run shim.replacement arguments
      | none =>
        let module ← module
        let forInterface := (← ofExcept (module.typeDef method.declaringType)).isInterface
        let callable ← implementation site resolved forInterface
        let owner := resolved.declaringType
        let first ←
          if module.isValueType owner then
            adjustReceiver owner (forInterface && isDynamic callable) first
          else pure first
        invoke run callable (first :: others)

/-- A virtual call on behalf of a type. -/
def stubConstrained (site : Stub) (constraint : Token) (method : MethodDef)
    (arguments : List Value) : Exec Value := do
  match arguments with
  | .pointer location :: others =>
    let module ← module
    if !module.isValueType constraint then
      stubVirtual run site method ((← load location) :: others)
    else
      let resolved ← ofExcept (module.resolveVirtual constraint method)
      if resolved.declaringType = constraint then stubCall run site resolved arguments
      else stubVirtual run site method ((← box constraint (← load location)) :: others)
  | _ => stubVirtual run site method arguments

def stubConstruct (site : Stub) (constructor : MethodDef) (arguments : List Value) :
    Exec Value := do
  match ← shimFor? site constructor none with
  | some shim => runReplacement run shim.replacement arguments
  | none =>
    match ← implementation site constructor false with
    | .dynamic body =>
      let module ← module
      let type := constructor.declaringType
      if module.isValueType type then
        withTemporary (← ofExcept (module.zeroOfType type)) fun location =>
          discard (run (.code body.code body.scope (.pointer location :: arguments)))
      else
        let object ← newObject type
        discard (run (.code body.code body.scope (object :: arguments)))
        return object
    | _ => construct run constructor arguments

def stubFunction (site : Stub) (method : MethodDef) : Exec Value := do
  newFunction (← implementation site method false)

/-- The making of a function pointer to the method of a receiver. -/
def stubVirtualFunction (site : Stub) (method : MethodDef) (arguments : List Value) :
    Exec Value := do
  let receiver? ←
    match arguments with
    | first :: _ => receiverOf? first
    | [] => pure none
  match receiver? with
  | none => nullReference
  | some receiver =>
    let resolved ← resolve method receiver
    let takesBox := (← module).isValueType resolved.declaringType
    newFunction (← implementation site resolved takesBox)

def runStub (site : Stub) (arguments : List Value) : Exec Value := do
  discard (runOf site)
  match site.kind with
  | .call => stubCall run site site.target arguments
  | .virtual => stubVirtual run site site.target arguments
  | .constrained constraint => stubConstrained run site constraint site.target arguments
  | .construct => stubConstruct run site site.target arguments
  | .functionPointer => stubFunction site site.target
  | .virtualFunctionPointer => stubVirtualFunction site site.target arguments

end Exec

end Cil
