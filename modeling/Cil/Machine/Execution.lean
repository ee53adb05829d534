import Cil.Machine.Unwinding

/-!
# Executing code

Code is executed instruction by instruction until it returns or, in a block, until the
block ends.  Every executed instruction counts towards the limit of the thread, so a
limited execution ends within so many rounds.
-/

namespace Cil

open MonadExcept (ofExcept)

/-- The number of rounds that stands for no bound. -/
def Limits.unbounded : Nat := 0x1000000000000000

/-- More rounds than an execution within the limits can take. -/
def Limits.rounds (limits : Limits) : Nat :=
  if limits.instructions = 0 then unbounded else limits.instructions + 2

/-- More calls than an execution within the limits can nest. -/
def Limits.calls (limits : Limits) : Nat :=
  if limits.callDepth = 0 then unbounded else limits.callDepth + 2

namespace Exec

def tick : Exec Unit := do
  let limit := (← read).limits.instructions
  let executed ← modifyGet fun machine =>
    (machine.executed + 1, { machine with executed := machine.executed + 1 })
  if 0 < limit ∧ limit < executed then throw (.instructionLimit limit)

/-- Counts a call. -/
def enter : Exec Unit := do
  let limit := (← read).limits.callDepth
  if 0 < limit ∧ limit ≤ (← get).depth then throw (.callDepthExceeded limit)
  modify fun machine => { machine with depth := machine.depth + 1 }

def position (code : MethodCode) (offset : Nat) : Exec Nat :=
  match code.position? offset with
  | some index => pure index
  | none => throw (.malformed (.noInstructionAt offset))

/-- The effect of an instruction.  A managed exception is an effect, too. -/
def effect (run : Runner) (code : MethodCode) (scope : Scope) (frame : Nat)
    (instruction : Instruction) (constraint? : Option Token) (stack : List Value) :
    Exec Effect := do
  match ← catchThrown
    (step run code.clauses scope frame instruction constraint? stack) with
  | .ok effect => return effect
  | .error exception => return .thrown exception

/-- Where execution goes on, or how it ends. -/
inductive Continuation
  | goOn (index : Nat) (constraint? : Option Token) (stack : List Value)
  | exit (exit : BlockExit)

def goTo (code : MethodCode) (offset : Nat) (stack : List Value) : Exec Continuation :=
  return .goOn (← position code offset) none stack

def handle (runBlock : BlockRunner) (code : MethodCode) (frame : Nat)
    (block? : Option Block) (rounds : Nat) (raised : Raised) : Exec Continuation := do
  let handled ← dispatch runBlock code.clauses frame block? rounds raised
  goTo code handled.offset [.object handled.exception]

/-- Where an effect of the instruction at an index leads. -/
def follow (runBlock : BlockRunner) (code : MethodCode) (frame : Nat)
    (block? : Option Block) (rounds index offset : Nat) :
    Effect → Exec Continuation
  | .next stack constraint? => return .goOn (index + 1) constraint? stack
  | .jump target stack => goTo code target stack
  | .leave target => do
    match ← leave runBlock code.clauses frame block? offset target with
    | none => goTo code target []
    | some raised => handle runBlock code frame block? rounds raised
  | .thrown exception => handle runBlock code frame block? rounds ⟨offset, exception⟩
  | .returned value => return .exit (.returned value)
  | .endFinally => return .exit .endFinally
  | .endFilter accepted => return .exit (.endFilter accepted)

/-- Executes code from an instruction on, restricted to a block if one is given. -/
def execute (run : Runner) (code : MethodCode) (scope : Scope) (frame : Nat) :
    (rounds : Nat) → (block? : Option Block) → (index : Nat) →
    (constraint? : Option Token) → (stack : List Value) → Exec BlockExit
  | 0, _, _, _, _ => throw .outOfFuel
  | rounds + 1, block?, index, constraint?, stack => do
    let some instruction := code.instructions[index]?
      | throw (.malformed (.pastTheEnd code.codeSize))
    tick
    let effect ← effect run code scope frame instruction constraint? stack
    let runBlock : BlockRunner := fun block stack => do
      execute run code scope frame rounds (some block) (← position code block.start) none
        stack
    match ← follow runBlock code frame block? rounds index instruction.offset effect with
    | .goOn index constraint? stack =>
      execute run code scope frame rounds block? index constraint? stack
    | .exit exit => return exit

def executeCode (run : Runner) (code : MethodCode) (scope : Scope) (frame : Nat) :
    Exec Value := do
  let rounds := (← read).limits.rounds
  match ← execute run code scope frame rounds none (← position code 0) none [] with
  | .returned value => return value
  | .endFinally | .endFilter _ => throw (.malformed .endOutsideHandler)

/-- Runs a piece of execution as a call: counts it in, and out afterwards. -/
def asCall {α : Type} (action : Exec α) : Exec α := do
  enter
  andFinally action fun machine => { machine with depth := machine.depth - 1 }

/-- Runs a piece of execution in a frame for code, which is dropped afterwards. -/
def inFrame (code : MethodCode) (arguments : List Value) (body : Nat → Exec Value) :
    Exec Value := do
  let module ← module
  let locals ← ofExcept (code.locals.mapM fun slot => module.zero slot.signature)
  let frame := (← get).frames.size
  modify fun machine =>
    { machine with
      frames := machine.frames.push { arguments := arguments.toArray, locals := locals.toArray } }
  andFinally (body frame) fun machine =>
    { machine with frames := machine.frames.shrink frame }

/-- Runs code in a call and a frame of its own. -/
def runCode (run : Runner) (code : MethodCode) (scope : Scope) (arguments : List Value) :
    Exec Value :=
  asCall (inFrame code arguments (executeCode run code scope))

end Exec

end Cil
