import Cil.Machine.Thread
import Cil.Proofs.Machine.Running

/-!
# Beyond the bounds

The definitions of the machine count down rounds, calls and steps, which makes them total.
Here a run goes on in any way where such a bound is used up, and the bounds may be larger.
With the bounds of the machine, and with failure where they are used up, it is the run of the
machine.
-/

namespace Cil

open MonadExcept (ofExcept)

namespace Exec

/-! ## One round -/

/-- What `ToString` makes of a value, given what it makes of what is in a box. -/
def displayOf (inside : Value → Exec (Option String)) (value : Value) : Exec (Option String) := do
  match value with
  | .null => return none
  | .object reference =>
    match ← readHeap (·.get reference) with
    | .string text => return some text
    | .boxed type payload =>
      if type = Core.boolean then return some (booleanText payload.isTrue)
      else if type = Core.char then
        return some (charOfCode (← ofExcept payload.asInt32)).toString
      else inside payload
    | .array elementType _ => return some (elementType.text ++ "[]")
    | .object type _ | .delegate type .. => return some ((← module).typeName type)
  | .int32 number => return some (toString number.toInt)
  | .int64 number | .nativeInt number => return some (toString number.toInt)
  | .record type _ => return some ((← module).typeName type)
  | other => return some other.text

theorem displayWithin_succ (steps : Nat) :
    displayWithin (steps + 1) = displayOf (displayWithin steps) :=
  rfl

def newText : Option String → Exec Value
  | some text => newString text
  | none => nullReference

/-- The text of the first argument. -/
def textOf (shown : Value → Exec (Option String)) (arguments : List Value) : Exec Value := do
  let receiver ←
    match ← argument arguments 0 with
    | .pointer location => load location
    | other => pure other
  newText (← shown receiver)

theorem runCore_toString (run : Runner) (arguments : List Value) :
    runCore run .toString arguments = textOf display arguments :=
  rfl

/-- One round of a dispatch, given how an exception that escapes is dispatched. -/
def dispatchRound (runBlock : BlockRunner) (clauses : List Clause) (frame : Nat)
    (block? : Option Block) (again : Raised → Exec Raised) (raised : Raised) : Exec Raised := do
  let type ← readHeap (·.typeOf raised.exception)
  let guarding := Clause.guarding clauses block? (Clause.positionOf raised.offset)
  let selected? ← select? runBlock type raised.exception guarding
  match ← runHandlers runBlock (Clause.unwound guarding selected?) with
  | some replacement => again replacement
  | none =>
    match selected? with
    | some (clause, index) =>
      remember frame index raised.exception
      return ⟨clause.handlerOffset, raised.exception⟩
    | none => throw (.thrown raised.exception)

theorem dispatch_eq_round (runBlock : BlockRunner) (clauses : List Clause) (frame : Nat)
    (block? : Option Block) (rounds : Nat) :
    dispatch runBlock clauses frame block? (rounds + 1) =
      dispatchRound runBlock clauses frame block? (dispatch runBlock clauses frame block? rounds) :=
  rfl

/-- Where an effect leads, given how exceptions are dispatched. -/
def followBy (dispatch : Raised → Exec Raised) (runBlock : BlockRunner) (code : MethodCode)
    (frame : Nat) (block? : Option Block) (index offset : Nat) (effect : Effect) :
    Exec Continuation :=
  let handle (raised : Raised) : Exec Continuation := do
    let handled ← dispatch raised
    goTo code handled.offset [.object handled.exception]
  match effect with
  | .next stack constraint? => return .goOn (index + 1) constraint? stack
  | .jump target stack => goTo code target stack
  | .leave target => do
    match ← leave runBlock code.clauses frame block? offset target with
    | none => goTo code target []
    | some raised => handle raised
  | .thrown exception => handle ⟨offset, exception⟩
  | .returned value => return .exit (.returned value)
  | .endFinally => return .exit .endFinally
  | .endFilter accepted => return .exit (.endFilter accepted)

/-- The execution of a block, given how code is executed. -/
def blockBy (code : MethodCode)
    (rest : Option Block → Nat → Option Token → List Value → Exec BlockExit) : BlockRunner :=
  fun block stack => do rest (some block) (← position code block.start) none stack

/-- The execution of an instruction that has been counted, given how exceptions are dispatched
and how execution goes on. -/
def executeCounted (run : Runner) (code : MethodCode) (scope : Scope) (frame : Nat)
    (dispatch : BlockRunner → Option Block → Raised → Exec Raised)
    (rest : Option Block → Nat → Option Token → List Value → Exec BlockExit)
    (block? : Option Block) (index : Nat) (instruction : Instruction) (constraint? : Option Token)
    (stack : List Value) : Exec BlockExit := do
  let effect ← effect run code scope frame instruction constraint? stack
  match ← followBy (dispatch (blockBy code rest) block?) (blockBy code rest) code frame block?
      index instruction.offset effect with
  | .goOn index constraint? stack => rest block? index constraint? stack
  | .exit exit => return exit

/-- One round of an execution. -/
def executeRound (run : Runner) (code : MethodCode) (scope : Scope) (frame : Nat)
    (dispatch : BlockRunner → Option Block → Raised → Exec Raised)
    (rest : Option Block → Nat → Option Token → List Value → Exec BlockExit)
    (block? : Option Block) (index : Nat) (constraint? : Option Token) (stack : List Value) :
    Exec BlockExit := do
  let some instruction := code.instructions[index]?
    | throw (.malformed (.pastTheEnd code.codeSize))
  tick
  executeCounted run code scope frame dispatch rest block? index instruction constraint? stack

theorem execute_eq_round (run : Runner) (code : MethodCode) (scope : Scope) (frame rounds : Nat) :
    execute run code scope frame (rounds + 1) =
      executeRound run code scope frame
        (fun runBlock block? => dispatch runBlock code.clauses frame block? rounds)
        (execute run code scope frame rounds) :=
  rfl

/-- Executes code from its start, given how it is executed from an instruction on. -/
def executeFrom (code : MethodCode)
    (execute : Option Block → Nat → Option Token → List Value → Exec BlockExit) : Exec Value := do
  match ← execute none (← position code 0) none [] with
  | .returned value => return value
  | .endFinally | .endFilter _ => throw (.malformed .endOutsideHandler)

/-- Calls a callable, given how activations are run.  A managed exception that nobody handles
is described. -/
def runToEndIn (run : Exec Runner) (callable : Callable) (arguments : List Value) :
    Exec Value := do
  match ← catchThrown (do invoke (← run) callable arguments) with
  | .ok value => return value
  | .error exception =>
    let (type, message) ← describeException exception
    throw (.managedException type message)

theorem runToEnd_eq (callable : Callable) (arguments : List Value) :
    runToEnd callable arguments =
      runToEndIn (return activate (← read).limits.calls) callable arguments :=
  rfl

end Exec

/-! ## Runs beyond the bounds -/

/-- Bounds for the counts of a run, and how the run goes on where they are used up. -/
structure Beyond where
  rounds : Limits → Nat
  calls : Limits → Nat
  display : Value → Exec (Option String)
  dispatch : Exec.BlockRunner → List Clause → Nat → Option Block → Raised → Exec Raised
  execute : Runner → MethodCode → Scope → Nat → Option Block → Nat → Option Token →
    List Value → Exec BlockExit
  activate : Runner

namespace Beyond

open Exec

variable (beyond : Beyond)

def displayWithin : (steps : Nat) → Value → Exec (Option String)
  | 0 => beyond.display
  | steps + 1 => displayOf (displayWithin steps)

def displayed (value : Value) : Exec (Option String) := do
  beyond.displayWithin ((← get).heap.count + 2) value

def dispatchWithin (runBlock : BlockRunner) (clauses : List Clause) (frame : Nat)
    (block? : Option Block) : (rounds : Nat) → Raised → Exec Raised
  | 0 => beyond.dispatch runBlock clauses frame block?
  | rounds + 1 =>
    dispatchRound runBlock clauses frame block?
      (dispatchWithin runBlock clauses frame block? rounds)

def executeWithin (run : Runner) (code : MethodCode) (scope : Scope) (frame : Nat) :
    (rounds : Nat) → Option Block → Nat → Option Token → List Value → Exec BlockExit
  | 0 => beyond.execute run code scope frame
  | rounds + 1 =>
    executeRound run code scope frame
      (fun runBlock block? => beyond.dispatchWithin runBlock code.clauses frame block? rounds)
      (executeWithin run code scope frame rounds)

def runCore (run : Runner) (operation : CoreNative) (arguments : List Value) : Exec Value :=
  match operation with
  | .toString => textOf beyond.displayed arguments
  | _ => Exec.runCore run operation arguments

def runNative (run : Runner) (body : NativeBody) (arguments : List Value) : Exec Value :=
  match body with
  | .core operation => beyond.runCore run operation arguments
  | .stub site => runStub run site arguments
  | .host program => runProgram run (program arguments)

def activateWithin : (calls : Nat) → Runner
  | 0, activation => beyond.activate activation
  | calls + 1, .native provided arguments =>
    asCall (beyond.runNative (activateWithin calls) provided.body arguments)
  | calls + 1, .code code scope arguments =>
    asCall (inFrame code arguments fun frame => do
      executeFrom code (beyond.executeWithin (activateWithin calls) code scope frame
        (beyond.rounds (← read).limits)))

/-- How activations are run at the start of a thread. -/
def runner : Exec Runner :=
  return beyond.activateWithin (beyond.calls (← read).limits)

/-! ## The run of the machine -/

/-- The bounds of the machine, and failure beyond them. -/
def machine : Beyond where
  rounds := Limits.rounds
  calls := Limits.calls
  display _ := throw .outOfFuel
  dispatch _ _ _ _ _ := throw .outOfFuel
  execute _ _ _ _ _ _ _ _ := throw .outOfFuel
  activate _ := throw .outOfFuel

theorem machine_displayWithin (steps : Nat) :
    machine.displayWithin steps = Exec.displayWithin steps := by
  induction steps with
  | zero => rfl
  | succ steps ih => rw [displayWithin, ih, displayWithin_succ]

theorem machine_dispatchWithin (runBlock : BlockRunner) (clauses : List Clause) (frame : Nat)
    (block? : Option Block) (rounds : Nat) :
    machine.dispatchWithin runBlock clauses frame block? rounds =
      Exec.dispatch runBlock clauses frame block? rounds := by
  induction rounds with
  | zero => rfl
  | succ rounds ih => rw [dispatchWithin, ih, dispatch_eq_round]

theorem machine_executeWithin (run : Runner) (code : MethodCode) (scope : Scope)
    (frame rounds : Nat) :
    machine.executeWithin run code scope frame rounds =
      Exec.execute run code scope frame rounds := by
  induction rounds with
  | zero => rfl
  | succ rounds ih =>
      rw [executeWithin, ih, execute_eq_round]
      simp only [machine_dispatchWithin]

theorem machine_runNative (run : Runner) (body : NativeBody) (arguments : List Value) :
    machine.runNative run body arguments = Exec.runNative run body arguments := by
  cases body with
  | core operation =>
      cases operation with
      | toString =>
          have shown : machine.displayed = Exec.display := by
            funext value
            unfold displayed Exec.display
            simp only [machine_displayWithin]
          change textOf machine.displayed arguments = Exec.runCore run .toString arguments
          rw [runCore_toString, shown]
      | _ => rfl
  | stub site => rfl
  | host program => rfl

theorem machine_activateWithin (calls : Nat) :
    machine.activateWithin calls = Exec.activate calls := by
  induction calls with
  | zero => rfl
  | succ calls ih =>
      funext activation
      cases activation with
      | native provided arguments => rw [activateWithin, ih, machine_runNative]; rfl
      | code code scope arguments =>
          rw [activateWithin, ih]
          simp only [machine_executeWithin]
          rfl

/-- Nothing goes on beyond the bounds of the machine. -/
theorem runToEnd_machine (callable : Callable) (arguments : List Value) :
    runToEndIn machine.runner callable arguments = runToEnd callable arguments := by
  rw [runToEnd_eq, runner]
  simp only [machine_activateWithin]
  rfl

end Beyond

end Cil
