import Cil.Machine.Step

/-!
# Exceptions and unwinding

An exception is dispatched in two passes over the clauses that guard its position, in
the order of the table.  The first pass looks for a clause that accepts it and runs
filters.  The second pass runs the finally and fault handlers that stand before that
clause.  An exception that escapes from one of them takes the place of the first and
is dispatched from the start of that handler.

Filters and handlers run as blocks: only clauses whose guarded range lies inside the
block are visible to them.  Running a block is left to a parameter.
-/

namespace Cil

open MonadExcept (ofExcept)

/-- A range of code that is executed on its own. -/
structure Block where
  start : Nat
  stop : Nat
deriving DecidableEq, Repr, Inhabited

/-- Whether a guarded range lies inside of the block. -/
def Block.holds (block : Block) (clause : Clause) : Bool :=
  block.start ≤ clause.tryOffset && clause.tryEnd ≤ block.stop

/-- How the execution of a block ends. -/
inductive BlockExit
  | returned (value : Value)
  | endFinally
  | endFilter (accepted : Bool)
deriving Inhabited

/-- An exception and the offset from which it is dispatched. -/
structure Raised where
  offset : Nat
  exception : HeapRef
deriving DecidableEq, Repr, Inhabited

namespace Clause

/-- Whether the clause takes part in an execution that is restricted to a block. -/
def isVisible (block? : Option Block) (clause : Clause) : Bool :=
  match block? with
  | none => true
  | some block => block.holds clause

/-- The clauses that guard a position, in the order of the table and with their
indices. -/
def guarding (clauses : List Clause) (block? : Option Block) (position : Nat) :
    List (Clause × Nat) :=
  clauses.zipIdx.filter fun (clause, _) =>
    clause.covers position && clause.isVisible block?

def filterBlock (clause : Clause) : Block := ⟨clause.filterOffset, clause.handlerOffset⟩

def handlerBlock (clause : Clause) : Block := ⟨clause.handlerOffset, clause.handlerEnd⟩

/-- The finally and fault handlers on the way to the selected clause, or all of them if
none is selected. -/
def unwound (guarding : List (Clause × Nat)) (selected? : Option (Clause × Nat)) :
    List Clause :=
  (guarding.filter fun (clause, index) =>
    clause.isTermination && selected?.all fun (_, selected) => index < selected).map (·.1)

/-- The finally handlers on the way from one position to another. -/
def left (clauses : List Clause) (block? : Option Block) (origin target : Nat) :
    List Clause :=
  clauses.filter fun clause =>
    clause.kind == .finallyClause && clause.covers origin && !clause.covers target &&
      clause.isVisible block?

end Clause

namespace Exec

/-- A way of executing a block from an offset with a stack. -/
abbrev BlockRunner := Block → (stack : List Value) → Exec BlockExit

variable (runBlock : BlockRunner)

/-- Whether a filter accepts an exception.  An exception inside of the filter means that
it does not. -/
def filterAccepts (clause : Clause) (exception : HeapRef) : Exec Bool := do
  match ← catchThrown (runBlock clause.filterBlock [.object exception]) with
  | .ok (.endFilter accepted) => return accepted
  | .ok _ => throw (.malformed (.filterWithoutEnd clause.filterOffset))
  | .error _ => return false

/-- Whether a clause accepts an exception of a type. -/
def accepts (clause : Clause) (type : Token) (exception : HeapRef) : Exec Bool := do
  match clause.kind with
  | .catchClause =>
    return clause.class?.any ((← module).isSubtypeOf type)
  | .filterClause => filterAccepts runBlock clause exception
  | .finallyClause | .faultClause => return false

/-- The first clause that accepts an exception. -/
def select? (type : Token) (exception : HeapRef) :
    List (Clause × Nat) → Exec (Option (Clause × Nat))
  | [] => return none
  | candidate :: rest => do
    if ← accepts runBlock candidate.1 type exception then return some candidate
    else select? type exception rest

def runHandler (clause : Clause) : Exec Unit := do
  match ← runBlock clause.handlerBlock [] with
  | .endFinally => return
  | _ => throw (.malformed (.handlerWithoutEnd clause.kind.name clause.handlerOffset))

/-- Runs finally and fault handlers, up to the first one that an exception escapes
from. -/
def runHandlers : List Clause → Exec (Option Raised)
  | [] => return none
  | clause :: rest => do
    match ← catchThrown (runHandler runBlock clause) with
    | .ok () => runHandlers rest
    | .error exception => return some ⟨clause.handlerOffset, exception⟩

/-- Remembers that a handler received an exception. -/
def remember (frame index : Nat) (exception : HeapRef) : Exec Unit :=
  modifyFrame frame fun slots =>
    { slots with caught := (index, exception) :: slots.caught }

/-- Finds the handler of an exception and unwinds to it.  The result is where to go on,
and with which exception; an exception without a handler is thrown on. -/
def dispatch (clauses : List Clause) (frame : Nat) (block? : Option Block) :
    (rounds : Nat) → Raised → Exec Raised
  | 0, _ => throw .outOfFuel
  | rounds + 1, raised => do
    let type ← readHeap (·.typeOf raised.exception)
    let guarding := Clause.guarding clauses block? (Clause.positionOf raised.offset)
    let selected? ← select? runBlock type raised.exception guarding
    match ← runHandlers runBlock (Clause.unwound guarding selected?) with
    | some replacement => dispatch clauses frame block? rounds replacement
    | none =>
      match selected? with
      | some (clause, index) =>
        remember frame index raised.exception
        return ⟨clause.handlerOffset, raised.exception⟩
      | none => throw (.thrown raised.exception)

/-- Forgets the exceptions of the handlers that control leaves. -/
def forget (clauses : List Clause) (frame origin target : Nat) : Exec Unit :=
  modifyFrame frame fun slots =>
    { slots with
      caught := slots.caught.filter fun (index, _) =>
        clauses[index]?.any fun clause =>
          !clause.inHandler origin || clause.inHandler target }

/-- Leaves guarded ranges: runs their finally handlers, up to the first one that an
exception escapes from. -/
def leave (clauses : List Clause) (frame : Nat) (block? : Option Block)
    (origin target : Nat) : Exec (Option Raised) := do
  let origin := Clause.positionOf origin
  let target := Clause.positionOf target
  match ← runHandlers runBlock (Clause.left clauses block? origin target) with
  | some raised => return some raised
  | none =>
    forget clauses frame origin target
    return none

end Exec

end Cil
