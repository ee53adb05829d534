import Cil.Code.Encoder

/-!
# Replaying exception regions

A table of clauses is turned into events at offsets: guarded ranges begin, handlers
begin, blocks end.  Applying the events to an encoder while the code is emitted
again gives clauses for the emitted code.

Clauses that guard the same range belong to one block.  At one offset, blocks that
end come first, then handlers begin, and then new blocks.
-/

namespace Cil

/-- What happens at an offset. -/
inductive RegionEvent
  | beginTry
  | beginCatch (exceptionClass : Token)
  | beginFilter
  | beginFilteredHandler
  | beginFinally
  | beginFault
  | endTry
deriving DecidableEq, Repr, Inhabited

def RegionEvent.text : RegionEvent → String
  | beginTry => "BeginTry"
  | beginCatch exceptionClass => s!"BeginCatch {exceptionClass}"
  | beginFilter => "BeginFilter"
  | beginFilteredHandler => "BeginFilteredHandler"
  | beginFinally => "BeginFinally"
  | beginFault => "BeginFault"
  | endTry => "EndTry"

/-- A guarded range with the end of its last handler. -/
structure RegionGroup where
  tryOffset : Nat
  tryLength : Nat
  lastEnd : Nat
deriving DecidableEq, Repr, Inhabited

namespace Regions

/-- Adds a clause to the group that guards its range, or makes one for it. -/
def addToGroups (groups : List RegionGroup) (clause : Clause) : List RegionGroup :=
  match groups with
  | [] => [⟨clause.tryOffset, clause.tryLength, clause.handlerEnd⟩]
  | group :: rest =>
    if group.tryOffset = clause.tryOffset ∧ group.tryLength = clause.tryLength then
      { group with lastEnd := max group.lastEnd clause.handlerEnd } :: rest
    else group :: addToGroups rest clause

def groupsOf (clauses : List Clause) : List RegionGroup :=
  clauses.foldl addToGroups []

/-- The parts of a clause's handler with the offsets where they begin. -/
def handlerEvents (clause : Clause) : List (Nat × RegionEvent) :=
  match clause.kind with
  | .catchClause =>
    [(clause.handlerOffset, .beginCatch (clause.class?.getD Token.null))]
  | .filterClause =>
    [(clause.filterOffset, .beginFilter), (clause.handlerOffset, .beginFilteredHandler)]
  | .finallyClause => [(clause.handlerOffset, .beginFinally)]
  | .faultClause => [(clause.handlerOffset, .beginFault)]

/-- The events of a table of clauses, in the order of application at each offset. -/
def events (clauses : List Clause) : List (Nat × RegionEvent) :=
  let groups := groupsOf clauses
  groups.map (fun group => (group.lastEnd, RegionEvent.endTry)) ++
    clauses.flatMap handlerEvents ++
    groups.map (fun group => (group.tryOffset, RegionEvent.beginTry))

def eventsAt (clauses : List Clause) (offset : Nat) : List RegionEvent :=
  ((events clauses).filter (·.1 == offset)).map (·.2)

/-- The offsets that have events, in ascending order. -/
def offsets (clauses : List Clause) : List Nat :=
  (((events clauses).map (·.1)).mergeSort (· ≤ ·)).eraseReps

def perform : RegionEvent → EncoderM Unit
  | .beginTry => Encoder.beginBlock
  | .beginCatch exceptionClass => Encoder.beginCatch exceptionClass
  | .beginFilter => Encoder.beginFilter
  | .beginFilteredHandler => Encoder.beginFilteredHandler
  | .beginFinally => Encoder.beginFinally
  | .beginFault => Encoder.beginFault
  | .endTry => Encoder.endBlock

/-- Carries out the events at an offset. -/
def apply (clauses : List Clause) (offset : Nat) : EncoderM Unit :=
  (eventsAt clauses offset).forM perform

end Regions

end Cil
