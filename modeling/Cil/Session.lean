import Cil.Document.Declaration
import Cil.Document.Isolation
import Cil.Isolation.Isolate

/-!
# Sessions

A session is a module that grows, a machine that runs it, and the names that were given
to tokens, values, shims and isolation runs.  The machine is made when it is first
needed.

Changes of the module, pieces of execution, plain outcomes and readers of documents are
all operations of a session.  What an operation did before it failed stays.
-/

namespace Cil

/-- A session. -/
structure Session where
  module : Module := .initial
  machine? : Option Machine := none
  names : Names := {}
  shims : List (String × Shim) := []
  runs : List (String × Nat) := []
deriving Inhabited

/-- Why an operation of a session fails. -/
inductive SessionFailure
  | refused (error : Error)
  /-- A document does not describe what it should. -/
  | unreadable (reason : String)

/-- An operation of a session. -/
abbrev SessionM := EStateM SessionFailure Session

namespace SessionM

/-- The outcome of an operation that does not concern the session. -/
def ofOutcome {α : Type} : Except Error α → SessionM α
  | .ok value => pure value
  | .error error => throw (.refused error)

/-- Reads a document with the names of the session. -/
def reading {α : Type} (reader : Reader α) : SessionM α := do
  match reader (← get).names with
  | .ok value => return value
  | .error reason => throw (.unreadable reason)

def onModule {α : Type} (action : ModuleM α) : SessionM α := fun session =>
  match action session.module with
  | .ok value module => .ok value { session with module }
  | .error error module => .error (.refused error) { session with module }

def onMachine {α : Type} (action : Module → Machine → Except Error α × Machine) :
    SessionM α := fun session =>
  let module := session.module
  let machine := session.machine?.getD (Machine.ofModule module .standard)
  let session := { session with machine? := none }
  match action module machine with
  | (.ok value, machine) => .ok value { session with machine? := some machine }
  | (.error error, machine) =>
    .error (.refused error) { session with machine? := some machine }

/-- Runs a piece of execution on a thread, within the limits of the machine if no others
are given. -/
def onThread {α : Type} (action : Exec α) (limits? : Option Limits := none) : SessionM α :=
  onMachine fun module machine =>
    machine.onThread module (limits?.getD machine.limits) action

instance : MonadLift (Except Error) SessionM := ⟨ofOutcome⟩
instance : MonadLift Reader SessionM := ⟨reading⟩
instance : MonadLift ModuleM SessionM := ⟨onModule⟩
instance : MonadLift Exec SessionM := ⟨fun action => onThread action⟩

def module : SessionM Module := return (← get).module

def machine : SessionM Machine := onMachine fun _ machine => (.ok machine, machine)

/-! ## Names -/

/-- Gives a token a name, if there is one. -/
def nameToken (name? : Option String) (token : Token) : SessionM Unit := do
  if let some name := name? then
    modify fun session =>
      { session with names.tokens := (name, token) :: session.names.tokens }

def nameValue (name? : Option String) (value : Value) : SessionM Unit := do
  if let some name := name? then
    modify fun session =>
      { session with names.values := (name, value) :: session.names.values }

def nameShim (name : String) (shim : Shim) : SessionM Unit :=
  modify fun session => { session with shims := (name, shim) :: session.shims }

def shimNamed (name : String) : SessionM Shim := do
  match (← get).shims.lookup name with
  | some shim => return shim
  | none => throw (.unreadable ("unknown shim " ++ name))

/-- The isolation run of a name, with its number. -/
def runNamed (name : String) : SessionM (Nat × IsolationRun) := do
  let some id := (← get).runs.lookup name | throw (.unreadable ("unknown run " ++ name))
  match (← machine).run? id with
  | some run => return (id, run)
  | none => throw (.unreadable ("the run has ended: " ++ name))

/-! ## Machines and runs -/

/-- Puts a new machine in the place of the old one, whose isolation runs are gone. -/
def restart (limits : Limits) : SessionM Unit :=
  modify fun session =>
    { session with machine? := some (Machine.ofModule session.module limits), runs := [] }

/-- Ends the isolation run of a name; tells whether there was one. -/
def endRun (name : String) : SessionM Bool := do
  match (← get).runs.lookup name with
  | none => return false
  | some id =>
    onMachine fun _ machine => (.ok (), machine.endRun id)
    modify fun session => { session with runs := session.runs.filter (·.1 != name) }
    return true

/-- Starts an isolation run under a name, in the place of an earlier one. -/
def startRun (name : String) (shims : List Shim) (config : IsolationConfig) :
    SessionM Unit := do
  let id ← onMachine fun module machine =>
    match machine.startRun module shims config with
    | .ok (id, machine) => (.ok id, machine)
    | .error error => (.error error, machine)
  discard (endRun name)
  modify fun session => { session with runs := (name, id) :: session.runs }

/-! ## Values -/

/-- Runs a program of the host. -/
def evaluate (program : Program) : SessionM Value :=
  onThread (Exec.calling fun run => Exec.runProgram run program)

def valueOf (document : Document) (name : String) : SessionM Value := do
  let program : Program ← document.get name
  evaluate program

def valuesOf (document : Document) (name : String) : SessionM (List Value) := do
  let programs : List Program ← document.get name
  programs.mapM evaluate

def methodOf (document : Document) (name : String) : SessionM MethodDef := do
  let token : Token ← document.get name
  (← module).method token

/-- The value that a field of a document describes as the place of another value.  It is
a pointer unless the document says otherwise, so users of the place check it. -/
def placeOf (document : Document) (name : String) : SessionM Value := do
  let location := document.field name
  let program ← Pointer.programWithin (2 * location.depth) location
  evaluate program

/-- The callable behind the function pointer that a field of a document describes. -/
def callableOf (document : Document) (name : String) : SessionM Callable := do
  match ← valueOf document name with
  | .function pointer => onMachine fun _ machine => (machine.function pointer, machine)
  | other => ofOutcome (other.unexpected "function pointer")

def describe (value : Value) : SessionM Document :=
  return (← machine).heap.document value

end SessionM

end Cil
