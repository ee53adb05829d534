import Cil.Code.Body
import Cil.Code.Decode
import Cil.Metadata.Module

/-!
# Decoded methods

The code of a method as a list of instructions, together with its locals and its
exception clauses.  Every branch leads to an instruction, and every boundary of a
clause is the start of an instruction or the end of the code.
-/

namespace Cil

/-- A method body that can be executed. -/
structure MethodCode where
  instructions : Array Instruction
  locals : List LocalVariable
  clauses : List Clause
  maxStack : Nat
  initLocals : Bool
  codeSize : Nat
deriving Repr, Inhabited

namespace MethodCode

/-- The index of the instruction that starts at an offset. -/
def position? (code : MethodCode) (offset : Nat) : Option Nat :=
  code.instructions.findIdx? (·.offset == offset)

def instructionAt? (code : MethodCode) (offset : Nat) : Option Instruction :=
  code.instructions.find? (·.offset == offset)

/-- Whether an offset is the start of an instruction or the end of the code. -/
def isBoundary (code : MethodCode) (offset : Nat) : Bool :=
  offset == code.codeSize || (code.position? offset).isSome

/-- The first branch that does not lead to an instruction. -/
def strayBranch? (code : MethodCode) : Option (Nat × Nat) :=
  code.instructions.toList.findSome? fun instruction =>
    (instruction.targets.find? fun target => (code.position? target).isNone).map
      (instruction.offset, ·)

/-- The first boundary of a clause that is none of the code. -/
def strayBoundary? (code : MethodCode) : Option Nat :=
  code.clauses.findSome? fun clause => clause.boundaries.find? (!code.isBoundary ·)

/-- Accepts a method if its branches and clauses stay on instruction boundaries. -/
def validate (code : MethodCode) : Except Error MethodCode :=
  match code.strayBranch? with
  | some (offset, target) => .error (.malformed (.branchTarget offset target))
  | none =>
    match code.strayBoundary? with
    | some offset => .error (.malformed (.clauseBoundary offset))
    | none => .ok code

def ofBytes (bytes : List UInt8) (locals : List LocalVariable) (clauses : List Clause)
    (maxStack : Nat) (initLocals : Bool) : Except Error MethodCode := do
  let instructions ← Instruction.decodeAll bytes
  validate { instructions := instructions.toArray, locals, clauses, maxStack, initLocals
             codeSize := bytes.length }

/-- Decodes the body of a method.  The locals of an instantiation are those of its
definition with the type arguments filled in. -/
def ofMethod (module : Module) (method : MethodDef) : Except Error MethodCode := do
  let some bytes := module.bodyOf? method
    | throw (.unreadableMethodBody method.token)
  if method.isAbstract || method.isInternalCall || method.isPlatformInvoke then
    throw (.unreadableMethodBody method.token)
  let body ← Body.ofBytes bytes
  let code ← body.code bytes
  let locals ← module.locals body.locals?
  let locals :=
    if method.isInstantiation then
      locals.map fun slot =>
        { slot with signature := slot.signature.substitute method.genericArguments }
    else locals
  ofBytes code locals body.clauses body.maxStack body.initLocals

end MethodCode

end Cil
