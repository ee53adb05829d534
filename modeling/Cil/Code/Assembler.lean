import Cil.Code.Layout
import Cil.Metadata.Module

/-!
# Assembling method bodies

An assembly program is a list of statements.  On top of the encoder it knows what a
call takes and leaves, by looking up the method in a module, and it gives exception
blocks names.

The end of a handler does not yet end its block: the block stays pending until the
next statement tells whether another handler of the same block follows.
-/

namespace Cil

open MonadExcept (ofExcept)

inductive Statement
  | plain (opcode : Opcode)
  | withToken (opcode : Opcode) (token : Token)
  | withImmediate (opcode : Opcode) (value : Immediate)
  | branch (opcode : Opcode) (label : String)
  | switch (labels : List String)
  | label (name : String)
  | loadArgument (index : UInt16)
  | loadArgumentAddress (index : UInt16)
  | storeArgument (index : UInt16)
  | loadLocal (index : UInt16)
  | loadLocalAddress (index : UInt16)
  | storeLocal (index : UInt16)
  | constant (value : Int32)
  | call (opcode : Opcode) (method : Token)
  | construct (constructor : Token)
  | callIndirect (signature : Token)
  | tryStart (block : String)
  | tryEnd (block : String)
  | catchStart (block : String) (exceptionClass : Token)
  | filterStart (block : String)
  | filterHandlerStart (block : String)
  | finallyStart (block : String)
  | faultStart (block : String)
  | handlerEnd (block : String)
deriving Repr, Inhabited

/-- A method body under construction. -/
structure Assembler where
  encoder : Encoder := {}
  /-- Where the targets of calls are looked up. -/
  module? : Option Module := none
  /-- The names of the open blocks, innermost first. -/
  blocks : List String := []
  /-- The block whose last handler has ended. -/
  closing? : Option String := none
deriving Inhabited

/-- An assembly step.  A failing step keeps what it did before the failure. -/
abbrev AssemblerM := EStateM Error Assembler

namespace Assembler

def encode {α : Type} (step : EncoderM α) : AssemblerM α := fun assembler =>
  match step assembler.encoder with
  | .ok value encoder => .ok value { assembler with encoder }
  | .error error encoder => .error error { assembler with encoder }

def flushBlock : AssemblerM Unit := do
  if (← get).closing?.isSome then
    modify fun assembler => { assembler with closing? := none }
    encode Encoder.endBlock
    modify fun assembler => { assembler with blocks := assembler.blocks.tail }

/-- Checks that a block is the innermost open one. -/
def expectBlock (name : String) : AssemblerM Unit := do
  match (← get).blocks with
  | [] => throw (.malformed (.blockNotOpen name))
  | innermost :: _ =>
    if innermost ≠ name then throw (.malformed (.blockNotInnermost name innermost))

/-- Prepares for a handler of a block: either the block is the pending one, and goes
on, or it is the innermost one. -/
def prepareHandler (name : String) : AssemblerM Unit := do
  if (← get).closing? = some name then
    modify fun assembler => { assembler with closing? := none }
  else
    flushBlock
    expectBlock name

/-- The module in which the target of a call is looked up. -/
def symbolsFor (token : Token) : AssemblerM Module := do
  match (← get).module? with
  | some module => return module
  | none => throw (.malformed (.callNeedsSymbols token))

/-- Emits a call that takes and leaves a known number of values. -/
def emitCall (opcode : Opcode) (token : Token) (pops : Nat) (hasResult : Bool) :
    AssemblerM Unit := do
  flushBlock
  if 255 < pops then throw (.malformed (.callHasTooManyArguments token))
  encode (Encoder.emitCall opcode (some (.token token)) pops hasResult)

/-- Emits after the pending block is ended. -/
def emitting (step : EncoderM Unit) : AssemblerM Unit := do
  flushBlock
  encode step

def assemble : Statement → AssemblerM Unit
  | .plain opcode => emitting (Encoder.emit opcode)
  | .withToken opcode token => emitting (Encoder.emit opcode (some (.token token)))
  | .withImmediate opcode value => emitting (Encoder.emit opcode (some (.immediate value)))
  | .branch opcode label => emitting (Encoder.emitBranch opcode label)
  | .switch labels => emitting (Encoder.emitSwitch labels)
  | .label name => emitting (Encoder.defineLabel name)
  | .loadArgument index => emitting (Encoder.emitLoadArgument index)
  | .loadArgumentAddress index => emitting (Encoder.emitLoadArgumentAddress index)
  | .storeArgument index => emitting (Encoder.emitStoreArgument index)
  | .loadLocal index => emitting (Encoder.emitLoadLocal index)
  | .loadLocalAddress index => emitting (Encoder.emitLoadLocalAddress index)
  | .storeLocal index => emitting (Encoder.emitStoreLocal index)
  | .constant value => emitting (Encoder.emitConstant value)
  | .call opcode method => do
    let signature := (← ofExcept ((← symbolsFor method).method method)).signature
    emitCall opcode method signature.stackPops signature.hasResult
  | .construct constructor => do
    let definition ← ofExcept ((← symbolsFor constructor).method constructor)
    emitCall .newobj constructor definition.params.length true
  | .callIndirect signature => do
    match ← ofExcept ((← symbolsFor signature).standAloneSignature signature) with
    | .locals _ => throw (.malformed (.notCallSite signature))
    | .method callSite =>
      emitCall .calli signature (callSite.stackPops + 1) callSite.hasResult
  | .tryStart block => do
    flushBlock
    modify fun assembler => { assembler with blocks := block :: assembler.blocks }
    encode Encoder.beginBlock
  | .tryEnd block => do
    flushBlock
    expectBlock block
  | .catchStart block exceptionClass => do
    prepareHandler block
    encode (Encoder.beginCatch exceptionClass)
  | .filterStart block => do
    prepareHandler block
    encode Encoder.beginFilter
  | .filterHandlerStart block => do
    flushBlock
    expectBlock block
    encode Encoder.beginFilteredHandler
  | .finallyStart block => do
    prepareHandler block
    encode Encoder.beginFinally
  | .faultStart block => do
    prepareHandler block
    encode Encoder.beginFault
  | .handlerEnd block => do
    flushBlock
    expectBlock block
    modify fun assembler => { assembler with closing? := some block }

def finish : AssemblerM EmittedCode := do
  flushBlock
  if let block :: _ := (← get).blocks then
    throw (.malformed (.blockNeverClosed block))
  encode Encoder.finish

/-- Assembles a program up to its first failing statement. -/
def assembleAll (module? : Option Module) (program : List Statement) :
    Except Error EmittedCode :=
  match (do program.forM assemble; finish : AssemblerM EmittedCode) { module? } with
  | .ok emitted _ => .ok emitted
  | .error error _ => .error error

end Assembler

end Cil
