import Cil.Isolation.Run
import Cil.Machine.Heap
import Cil.Machine.Limits

/-!
# The machine

A machine holds what outlives a call: the heap, the static fields, the console, the
native methods, the decoded bodies, the function pointers and the isolation runs.
While it executes it also holds the frames of the calls in progress.

Execution reads a module and the limits of the thread, which do not change, and
changes the machine.  An error leaves the machine as it was when the error arose.
-/

namespace Cil

open MonadExcept (ofExcept)

/-- The slots of a call in progress. -/
structure Frame where
  arguments : Array Value
  locals : Array Value
  /-- The exceptions that handlers of the frame have received, the latest first, each
  with the index of its clause. -/
  caught : List (Nat × HeapRef) := []
deriving Repr, Inhabited

/-- A machine. -/
structure Machine where
  heap : Heap
  statics : List (Token × Value)
  console : Array String
  /-- The native methods by the methods that they implement. -/
  natives : List (Token × Native)
  /-- The decoded bodies by method. -/
  bodies : List (Token × MethodCode)
  functions : Array Callable
  /-- The isolation runs; a run that has ended leaves its place empty. -/
  runs : Array (Option IsolationRun)
  limits : Limits
  frames : Array Frame
  /-- The number of calls in progress. -/
  depth : Nat
  /-- The number of instructions executed. -/
  executed : Nat
deriving Inhabited

/-- What an execution reads and never changes. -/
structure Context where
  module : Module
  limits : Limits

/-- A piece of execution. -/
abbrev Exec := ReaderT Context (EStateM Error Machine)

namespace Exec

def module : Exec Module := return (← read).module

def readHeap {α : Type} (query : Heap → Except Error α) : Exec α := do
  ofExcept (query (← get).heap)

def onHeap {α : Type} (action : HeapM α) : Exec α := fun _ machine =>
  let heap := machine.heap
  let machine := { machine with heap := default }
  match action heap with
  | .ok value heap => .ok value { machine with heap }
  | .error error heap => .error error { machine with heap }

/-- Changes an isolation run that has not ended. -/
def onRun {α : Type} (id : Nat) (run : IsolationRun) (action : EStateM Error IsolationRun α) :
    Exec α := fun _ machine =>
  match action run with
  | .ok value run => .ok value { machine with runs := machine.runs.set! id (some run) }
  | .error error run => .error error { machine with runs := machine.runs.set! id (some run) }

/-- The outcome of a piece of execution, whose failure is an outcome too. -/
def attempt {α : Type} (action : Exec α) : Exec (Except Error α) := fun context machine =>
  match action context machine with
  | .ok value machine => .ok (.ok value) machine
  | .error error machine => .ok (.error error) machine

/-- A piece of execution followed by another one, whether or not it fails. -/
def andFinally {α : Type} (action : Exec α) (cleanUp : Machine → Machine) : Exec α :=
  fun context machine =>
    match action context machine with
    | .ok value machine => .ok value (cleanUp machine)
    | .error error machine => .error error (cleanUp machine)

/-- The outcome of an execution that managed exceptions may end: the exception is an
outcome, and other failures are failures. -/
def catchThrown {α : Type} (action : Exec α) : Exec (Except HeapRef α) :=
  fun context machine =>
    match action context machine with
    | .ok value machine => .ok (.ok value) machine
    | .error (.thrown exception) machine => .ok (.error exception) machine
    | .error error machine => .error error machine

end Exec

namespace Machine

def static? (machine : Machine) (field : Token) : Option Value :=
  machine.statics.lookup field

def setStatic (machine : Machine) (field : Token) (value : Value) : Machine :=
  { machine with statics := Value.insertField machine.statics field value }

def native? (machine : Machine) (method : Token) : Option Native :=
  machine.natives.lookup method

def registerNative (machine : Machine) (method : Token) (native : Native) : Machine :=
  { machine with natives := (method, native) :: machine.natives.filter (·.1 != method) }

def writeLine (machine : Machine) (line : String) : Machine :=
  { machine with console := machine.console.push line }

def addFunction (machine : Machine) (callable : Callable) : FunctionPointer × Machine :=
  (⟨machine.functions.size⟩, { machine with functions := machine.functions.push callable })

def function (machine : Machine) (pointer : FunctionPointer) : Except Error Callable :=
  match machine.functions[pointer.id]? with
  | some callable => .ok callable
  | none => .error (.typeMismatch (.unknownFunction pointer))

/-- An isolation run that has not ended. -/
def run? (machine : Machine) (id : Nat) : Option IsolationRun :=
  machine.runs[id]?.join

/-- The machine in a few numbers. -/
def describe (machine : Machine) : String :=
  s!"Runtime \x7b natives: {machine.natives.length}, " ++
    s!"decoded_bodies: {machine.bodies.length}, " ++
    s!"function_pointers: {machine.functions.size}, " ++
    s!"console_lines: {machine.console.size}, limits: {machine.limits.text}, .. \x7d"

end Machine

end Cil
