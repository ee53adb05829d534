import Cil.Machine.Thread

/-!
# Running code in isolation

An isolation run calls its entry method through a stub, so that everything below it is
instrumented and can be replaced.
-/

namespace Cil

open MonadExcept (ofExcept)

namespace Exec

def stubOf (id : Nat) (kind : StubKind) (method : MethodDef) : Exec Native := do
  let isolation ← runOf ⟨id, kind, method⟩
  onRun id isolation (IsolationRun.stubOf (← module) id kind method)

end Exec

namespace Machine

/-- Starts an isolation run.  Every shim has to be for a method of the module. -/
def startRun (machine : Machine) (module : Module) (shims : List Shim)
    (config : IsolationConfig) : Except Error (Nat × Machine) := do
  shims.forM fun shim => do
    let current ← module.method shim.method.token
    if current.identity ≠ shim.identity then
      throw (.notSupported (.foreignShim shim.identity.text))
  return (machine.runs.size,
    { machine with runs := machine.runs.push (some { shims, config }) })

def endRun (machine : Machine) (id : Nat) : Machine :=
  { machine with runs := machine.runs.set! id none }

def runLimits (machine : Machine) (id : Nat) : Limits :=
  ((machine.run? id).bind (·.config.limits?)).getD machine.limits

/-- Runs a method in isolation. -/
def invokeIsolated (machine : Machine) (module : Module) (id : Nat) (entry : Token)
    (arguments : List Value) : Except Error Value × Machine :=
  machine.onThread module (machine.runLimits id) do
    let stub ← Exec.stubOf id .call (← Exec.method entry)
    Exec.runToEnd (.native stub) arguments

/-- Runs an entry method with shims, or plainly if there are none. -/
def isolate (machine : Machine) (module : Module) (entry : Token) (shims : List Shim) :
    Except Error Unit × Machine :=
  let checked : Except Error Unit := do
    let method ← module.method entry
    if !method.isStatic || !method.params.isEmpty then
      throw (.notSupported (.entryPoint (module.methodName entry)))
  match checked with
  | .error error => (.error error, machine)
  | .ok () =>
    if shims.isEmpty then
      let (result, machine) := machine.invoke module entry []
      (discard result, machine)
    else
      match machine.startRun module shims {} with
      | .error error => (.error error, machine)
      | .ok (id, machine) =>
        let (result, machine) := machine.invokeIsolated module id entry []
        (discard result, machine.endRun id)

end Machine

end Cil
