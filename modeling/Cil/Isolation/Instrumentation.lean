import Cil.Code.Layout
import Cil.Isolation.Regions
import Cil.Isolation.Run

/-!
# Instrumented method bodies

A method body is emitted again instruction by instruction.  Calls that are not
forwarded become calls of stubs, branches are emitted in their long form towards
labels at their targets, and exception clauses are opened and closed where the table
of the method says.  Everything else is emitted as it was.
-/

namespace Cil

open MonadExcept (ofExcept)

/-- The arguments of a method, the receiver included. -/
structure ArgumentLayout where
  count : Nat
deriving DecidableEq, Repr

namespace ArgumentLayout

def ofMethod (method : MethodDef) : Except Error ArgumentLayout :=
  let count := method.params.length + (!method.isStatic).toNat
  if count < 0x10000 then .ok ⟨count⟩ else .error (.malformed (.tooManyParameters method.name))

/-- The index of an argument in the instrumented method. -/
def map (layout : ArgumentLayout) (index : Nat) : Except Error Nat :=
  if index < layout.count then .ok index
  else .error (.malformed (.argumentOutOfRange index layout.count))

end ArgumentLayout

/-- What an instruction does with an argument. -/
inductive ArgumentAccess
  | load
  | address
  | store
deriving DecidableEq, Repr

def Opcode.argumentAccess? : Opcode → Option ArgumentAccess
  | .ldarg0 | .ldarg1 | .ldarg2 | .ldarg3 | .ldargS | .ldarg => some .load
  | .ldargaS | .ldarga => some .address
  | .stargS | .starg => some .store
  | _ => none

namespace Instrumentation

/-- What stays the same while a method is instrumented. -/
structure Subject where
  module : Module
  /-- The run that the stubs belong to. -/
  run : Nat
  method : MethodDef
  layout : ArgumentLayout
  /-- Whether the receiver arrives in a box and is wanted by address. -/
  unboxesReceiver : Bool

/-- The work done so far. -/
structure Draft where
  encoder : Encoder
  scope : Scope
  /-- The dynamic token of each stub, by the kind of call and the called token. -/
  tokens : List ((StubKind × Token) × Token)
  /-- The type of a `constrained.` mark that waits for its call. -/
  constraint? : Option Token
  run : IsolationRun

/-- A step of instrumenting.  Stubs made before a failure stay with the run. -/
abbrev InstrumentM := ReaderT Subject (EStateM Error Draft)

def emitting {α : Type} (action : EncoderM α) : InstrumentM α := fun _ draft =>
  match action draft.encoder with
  | .ok value encoder => .ok value { draft with encoder }
  | .error error encoder => .error error { draft with encoder }

def onRun {α : Type} (action : EStateM Error IsolationRun α) : InstrumentM α := fun _ draft =>
  match action draft.run with
  | .ok value run => .ok value { draft with run }
  | .error error run => .error error { draft with run }

def refuse {α : Type} (instruction : Instruction) (obstacle : Obstacle) : InstrumentM α :=
  throw (.unsupportedInstruction instruction.offset obstacle)

def tokenOf (instruction : Instruction) : InstrumentM Token :=
  match instruction.token? with
  | some token => pure token
  | none => refuse instruction (.noTokenOperand instruction.mnemonic)

/-- A count of popped values, which has to fit into a byte. -/
def popCount (instruction : Instruction) (count : Nat) : InstrumentM Nat :=
  if count < 256 then pure count
  else refuse instruction (.tooManyPops instruction.mnemonic count)

/-- The waiting constraint, which waits no longer. -/
def takeConstraint : InstrumentM (Option Token) :=
  modifyGet fun draft => (draft.constraint?, { draft with constraint? := none })

def labelAt (offset : Nat) : String := Text.codeOffset offset

/-- Emits an access to an argument.  A receiver that arrives in a box is unboxed. -/
def emitArgument (access : ArgumentAccess) (index : Nat) : InstrumentM Unit := do
  let subject ← read
  let index ← ofExcept (subject.layout.map index)
  match access with
  | .load =>
    emitting (Encoder.emitLoadArgument (UInt16.ofNat index))
    if index = 0 && subject.unboxesReceiver then
      emitting (Encoder.emit .unbox (some (.token subject.method.declaringType)))
  | .address => emitting (Encoder.emitLoadArgumentAddress (UInt16.ofNat index))
  | .store => emitting (Encoder.emitStoreArgument (UInt16.ofNat index))

/-- What a forwarded call takes from the stack and whether it leaves a result. -/
def forwardedEffect (opcode : Opcode) (method : MethodDef) : Nat × Bool :=
  match opcode with
  | .newobj => (method.params.length, true)
  | .ldftn => (0, true)
  | .ldvirtftn => (1, true)
  | _ => (method.signature.stackPops, method.signature.hasResult)

/-- The dynamic token of a stub; equal calls share one. -/
def stubToken (kind : StubKind) (token : Token) (stub : Native) : InstrumentM Token := do
  match (← get).tokens.lookup (kind, token) with
  | some dynamic => return dynamic
  | none =>
    modifyGet fun draft =>
      let (dynamic, scope) := draft.scope.add (.native stub)
      (dynamic, { draft with scope, tokens := ((kind, token), dynamic) :: draft.tokens })

/-- Emits a call site: as it was if it is forwarded, and else as the call of a stub. -/
def emitCallSite (instruction : Instruction) : InstrumentM Unit := do
  let subject ← read
  let opcode := instruction.opcode
  let token ← tokenOf instruction
  let constraint? ← takeConstraint
  if constraint?.isSome && opcode != .callvirt then
    refuse instruction (.constraintOnOtherCall instruction.mnemonic)
  let method ← ofExcept (subject.module.method token)
  let isVirtualCall := opcode == .callvirt || opcode == .ldvirtftn
  if (← get).run.forwards subject.module method isVirtualCall then
    if let some constraint := constraint? then
      emitting (Encoder.emit .constrained (some (.token constraint)))
    let (pops, hasResult) := forwardedEffect opcode method
    let pops ← popCount instruction pops
    emitting (Encoder.emitCall opcode (some (.token token)) pops hasResult)
  else
    match StubKind.ofOpcode? opcode constraint? with
    | none => refuse instruction (.noEmissionRule instruction.mnemonic)
    | some kind =>
      let stub ← onRun (IsolationRun.stubOf subject.module subject.run kind method)
      let dynamic ← stubToken kind token stub
      let pops ← popCount instruction stub.params.length
      emitting (Encoder.emitCall .call (some (.token dynamic)) pops
        (stub.returnType != .void))

/-- Emits a call through a function pointer. -/
def emitIndirectCall (instruction : Instruction) : InstrumentM Unit := do
  let token ← tokenOf instruction
  match ← ofExcept ((← read).module.standAloneSignature token) with
  | .locals _ => refuse instruction (.notCallSite token)
  | .method site =>
    let pops ← popCount instruction (site.stackPops + 1)
    emitting (Encoder.emitCall .calli (some (.token token)) pops site.hasResult)

/-- Emits an instruction that calls nothing and touches no argument. -/
def emitPlain (instruction : Instruction) : InstrumentM Unit := do
  if let some constraint ← takeConstraint then
    refuse instruction (.strayConstraint constraint instruction.mnemonic)
  match instruction.opcode.flow with
  | .switch => emitting (Encoder.emitSwitch (instruction.targets.map labelAt))
  | .conditionalBranch | .unconditionalBranch | .leave =>
    match instruction.opcode.longForm?, instruction.targets.head? with
    | none, _ => refuse instruction (.noLongForm instruction.mnemonic)
    | _, none => refuse instruction (.noTarget instruction.mnemonic)
    | some opcode, some target => emitting (Encoder.emitBranch opcode (labelAt target))
  | _ => emitting (Encoder.emitDecoded instruction)

def emitInstruction (instruction : Instruction) : InstrumentM Unit :=
  match instruction.opcode.argumentAccess?, instruction.argumentIndex? with
  | some access, some index => emitArgument access index
  | _, _ =>
    match instruction.opcode with
    | .constrained => do
      let constraint ← tokenOf instruction
      modify fun draft => { draft with constraint? := some constraint }
    | .tail => pure ()
    | .call | .callvirt | .newobj | .ldftn | .ldvirtftn => emitCallSite instruction
    | .calli => emitIndirectCall instruction
    | .jmp | .arglist | .mkrefany | .refanyval | .refanytype =>
      refuse instruction (.noEmissionRule instruction.mnemonic)
    | _ => emitPlain instruction

def emitCode (code : MethodCode) : InstrumentM EmittedCode := do
  let targets := code.instructions.toList.flatMap (·.targets)
  emitting (Encoder.setShortening false)
  code.instructions.toList.forM fun instruction => do
    emitting (Regions.apply code.clauses instruction.offset)
    if targets.contains instruction.offset then
      emitting (Encoder.defineLabel (labelAt instruction.offset))
    emitInstruction instruction
  emitting (Regions.apply code.clauses code.codeSize)
  emitting Encoder.finish

end Instrumentation

/-- The parameters of a instrumented method.  A receiver of an interface call is an
object. -/
def MethodDef.instrumentedParams (module : Module) (method : MethodDef) (forInterface : Bool) :
    Except Error (List TypeSig) := do
  if method.isStatic then return method.params
  let receiver ←
    if forInterface then pure .object else module.receiverSig method.declaringType
  return receiver :: method.params

/-- Instruments the body of a method for a run.  Stubs made on the way stay with the run,
also when it fails. -/
def IsolationRun.instrument (module : Module) (id : Nat) (method : MethodDef)
    (forInterface : Bool) : EStateM Error IsolationRun DynamicMethod := do
  let code ← ofExcept (MethodCode.ofMethod module method)
  let params ← ofExcept (method.instrumentedParams module forInterface)
  let layout ← ofExcept (ArgumentLayout.ofMethod method)
  let owner := method.declaringType
  let subject : Instrumentation.Subject :=
    { module, run := id, method, layout
      unboxesReceiver := forInterface && !method.isStatic && module.isValueType owner }
  let draft : Instrumentation.Draft :=
    { encoder := {}, scope := {}, tokens := [], constraint? := none, run := ← get }
  match Instrumentation.emitCode code subject draft with
  | .error error draft =>
    set draft.run
    throw error
  | .ok emitted draft =>
    set draft.run
    ofExcept <| DynamicMethod.ofCode
      ("dynamic_" ++ module.shortTypeName owner ++ "_" ++ method.name)
      method.identity params method.returnType code.locals draft.scope emitted.code
      (max (min code.maxStack 0xFFFF) emitted.maxStack) emitted.clauses

/-- The remembered body of a method, or a new one that is remembered from now on. -/
def IsolationRun.bodyOf (module : Module) (id : Nat) (method : MethodDef)
    (forInterface : Bool) : EStateM Error IsolationRun DynamicMethod := do
  match (← get).body? method.identity forInterface with
  | some body => return body
  | none =>
    let body ← instrument module id method forInterface
    modify fun run =>
      { run with bodies := ((method.identity, forInterface), body) :: run.bodies }
    return body

/-- What runs for a method in a run.  Intrinsic methods and methods without a readable
body run as they are. -/
def IsolationRun.implementation (module : Module) (id : Nat) (method : MethodDef)
    (forInterface : Bool) : EStateM Error IsolationRun Callable := do
  if (← get).isIntrinsic module method then return .method method
  try
    return .dynamic (← bodyOf module id method forInterface)
  catch
    | .unreadableMethodBody _ => return .method method
    | error => throw error

end Cil
