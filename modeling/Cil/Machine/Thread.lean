import Cil.Isolation.Dispatch
import Cil.Machine.CoreLibrary
import Cil.Machine.Execution
import Cil.Machine.Host

/-!
# Threads

A thread runs activations, each in a call of its own.  The calls that may still nest
are counted down, so that running is total; a limited thread never uses them up.
-/

namespace Cil

open MonadExcept (ofExcept)

namespace Exec

def runNative (run : Runner) (body : NativeBody) (arguments : List Value) : Exec Value :=
  match body with
  | .core operation => runCore run operation arguments
  | .stub site => runStub run site arguments
  | .host program => runProgram run (program arguments)

/-- Runs activations that nest no deeper than a number of calls. -/
def activate : (calls : Nat) → Runner
  | 0, _ => throw .outOfFuel
  | calls + 1, .native provided arguments =>
    asCall (runNative (activate calls) provided.body arguments)
  | calls + 1, .code code scope arguments => runCode (activate calls) code scope arguments

/-- A piece of execution that may call. -/
def calling {α : Type} (action : Runner → Exec α) : Exec α := do
  action (activate (← read).limits.calls)

/-- Calls a callable.  A managed exception that nobody handles is described. -/
def runToEnd (callable : Callable) (arguments : List Value) : Exec Value := do
  match ← catchThrown (calling fun run => invoke run callable arguments) with
  | .ok value => return value
  | .error exception =>
    let (type, message) ← describeException exception
    throw (.managedException type message)

end Exec

namespace Machine

/-- Runs a piece of execution on a thread of its own. -/
def onThread {α : Type} (machine : Machine) (module : Module) (limits : Limits)
    (action : Exec α) : Except Error α × Machine :=
  let fresh := { machine with frames := #[], depth := 0, executed := 0 }
  match action ⟨module, limits⟩ fresh with
  | .ok value machine => (.ok value, machine)
  | .error error machine => (.error error, machine)

def invoke (machine : Machine) (module : Module) (method : Token)
    (arguments : List Value) : Except Error Value × Machine :=
  machine.onThread module machine.limits do
    Exec.runToEnd (.method (← Exec.method method)) arguments

end Machine

end Cil
