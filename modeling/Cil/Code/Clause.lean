import Cil.Metadata.Flags
import Cil.Token

/-!
# Exception clauses

A clause guards a range of code and names the handler that runs for it: when an
exception of a class is thrown, when a filter accepts the exception, or whenever
the range is left.  Ranges are half open, and an end beyond the last 32-bit offset
is that offset.
-/

namespace Cil

abbrev ClauseFlags := Flags 0x7

namespace ClauseFlags

def exception : ClauseFlags := ⟨0x0⟩
def filter : ClauseFlags := ⟨0x1⟩
def finallyBlock : ClauseFlags := ⟨0x2⟩
def fault : ClauseFlags := ⟨0x4⟩

end ClauseFlags

/-- When the handler of a clause runs. -/
inductive ClauseKind
  | catchClause
  | filterClause
  | finallyClause
  | faultClause
deriving DecidableEq, Repr, Inhabited

def ClauseKind.name : ClauseKind → String
  | catchClause => "catch"
  | filterClause => "filter"
  | finallyClause => "finally"
  | faultClause => "fault"

/-- A guarded range with its handler. -/
structure Clause where
  flags : ClauseFlags
  tryOffset : Nat
  tryLength : Nat
  handlerOffset : Nat
  handlerLength : Nat
  /-- The exception class of a catch clause. -/
  class? : Option Token
  /-- Where the filter of a filter clause starts. -/
  filterOffset : Nat
deriving DecidableEq, Repr, Inhabited

namespace Clause

/-- The last 32-bit offset. -/
def lastOffset : Nat := 0xFFFFFFFF

/-- An offset of the code as clauses count it. -/
def positionOf (offset : Nat) : Nat := min offset lastOffset

/-- The kind of the clause.  Of several flags the lowest decides. -/
def kind (clause : Clause) : ClauseKind :=
  if clause.flags.contains ClauseFlags.filter then .filterClause
  else if clause.flags.contains ClauseFlags.finallyBlock then .finallyClause
  else if clause.flags.contains ClauseFlags.fault then .faultClause
  else .catchClause

def tryEnd (clause : Clause) : Nat :=
  min (clause.tryOffset + clause.tryLength) lastOffset

def handlerEnd (clause : Clause) : Nat :=
  min (clause.handlerOffset + clause.handlerLength) lastOffset

def covers (clause : Clause) (offset : Nat) : Bool :=
  clause.tryOffset ≤ offset && offset < clause.tryEnd

def inHandler (clause : Clause) (offset : Nat) : Bool :=
  clause.handlerOffset ≤ offset && offset < clause.handlerEnd

/-- Whether an offset lies in the filter, which ends where the handler starts. -/
def inFilter (clause : Clause) (offset : Nat) : Bool :=
  clause.kind == .filterClause && clause.filterOffset ≤ offset && offset < clause.handlerOffset

/-- Whether the handler runs on the way out of the guarded range. -/
def isTermination (clause : Clause) : Bool :=
  clause.kind == .finallyClause || clause.kind == .faultClause

def boundaries (clause : Clause) : List Nat :=
  [clause.tryOffset, clause.tryEnd, clause.handlerOffset, clause.handlerEnd] ++
    if clause.kind = .filterClause then [clause.filterOffset] else []

end Clause

end Cil
