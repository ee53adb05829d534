import Cil.Machine.Call

/-!
# Running programs of the host

A program of the host runs by answering its requests one after the other.
-/

namespace Cil

open MonadExcept (ofExcept)

namespace Exec

def method (token : Token) : Exec MethodDef := do
  ofExcept ((← module).method token)

variable (run : Runner)

def answer (request : Request) : Exec Value := do
  match request with
  | .resolve token =>
    discard (method token)
    return .void
  | .call token arguments => callMethod run (← method token) arguments
  | .callVirtual token arguments => callVirtual run (← method token) arguments
  | .construct token arguments => construct run (← method token) arguments
  | .load pointer => load pointer
  | .store pointer value =>
    store pointer value
    return .void
  | .newString text => newString text
  | .newObject type => newObject type
  | .newArray elementType elements => allocate (.array elementType elements.toArray)
  | .newBox type payload => box type payload
  | .zero signature => ofExcept ((← module).zero signature)
  | .functionPointer token => newFunction (.method (← method token))
  | .throwNew type message? => raise type message?
  | .writeLine text =>
    modify (·.writeLine text)
    return .void
  | .depth => return .int32 (Int32.ofNat (← get).depth)
  | .executed => return .int64 (Int64.ofNat (← get).executed)

/-- Runs a program of the host. -/
def runProgram : Program → Exec Value
  | .done value => return value
  | .fail error => throw error
  | .perform request next => do
    let value ← answer run request
    runProgram (next value)
  | .readString reference next => do
    let text ← attempt (stringText? reference)
    runProgram (next text)

end Exec

end Cil
