import Cil.Code.Encoder

/-!
# Laying out code

Finishing the code of an encoder gives every label an offset and every branch a
displacement.  A long branch whose displacement fits into a signed byte takes its
short form; this moves everything behind it three bytes forward and may let other
branches follow.  One branch is shortened at a time, and at most a hundred are.

Marks are places between items, so shortening a branch needs no adjustment of
labels and clauses: their offsets are sums of sizes.
-/

namespace Cil

open MonadExcept (ofExcept)

structure EmittedCode where
  code : List UInt8
  maxStack : Nat
  /-- The labels with their offsets, in order of definition. -/
  labels : List (String × Nat)
  clauses : List Clause
deriving DecidableEq, Repr, Inhabited

namespace Layout

/-- The items of code and the marks of its labels. -/
structure Draft where
  items : List Item
  labels : List (String × Mark)

def Draft.offsetOfLabel (draft : Draft) (label : String) : Except Error Nat :=
  match draft.labels.lookup label with
  | some mark => .ok (offsetOf draft.items mark)
  | none => .error (.undefinedLabel label)

/-- Displacements are only computed between positions that fit into 31 bits. -/
def checkPosition (position : Nat) (failure : Malformation) : Except Error Unit :=
  if position < 0x80000000 then .ok () else .error (.malformed failure)

/-- The items with their offsets, from an offset on. -/
def placedFrom : (offset : Nat) → List Item → List (Nat × Item)
  | _, [] => []
  | offset, item :: items => (offset, item) :: placedFrom (offset + item.size) items

def Draft.placed (draft : Draft) : List (Nat × Item) :=
  placedFrom 0 draft.items

/-! ## Shortening -/

def isShort (displacement : Int) : Bool :=
  -128 ≤ displacement && displacement ≤ 127

/-- The displacement of a long branch after it alone is shortened.  A label behind
the branch moves along by the three bytes that are saved. -/
def shortDisplacement (offset target : Nat) : Int :=
  let displacement := (target : Int) - ((offset + 2 : Nat) : Int)
  if 0 < displacement then displacement - 3 else displacement

/-- The first branch that can be shortened.  Every label of a long branch must be
defined. -/
def firstShortenable (draft : Draft) : (index : Nat) → List (Nat × Item) →
    Except Error (Option (Nat × Item))
  | _, [] => .ok none
  | index, (offset, .branch opcode label) :: rest => do
    match opcode.shortForm? with
    | none => firstShortenable draft (index + 1) rest
    | some short =>
      let target ← draft.offsetOfLabel label
      checkPosition target .labelTooFar
      checkPosition (offset + 2) .instructionTooFar
      let later ← firstShortenable draft (index + 1) rest
      return if isShort (shortDisplacement offset target) then
        some (index, .branch short label)
      else later
  | index, _ :: rest => firstShortenable draft (index + 1) rest

/-- Shortens branches one after the other, at most `rounds` of them. -/
def shorten : (rounds : Nat) → Draft → Except Error Draft
  | 0, draft => .ok draft
  | rounds + 1, draft => do
    match ← firstShortenable draft 0 draft.placed with
    | none => return draft
    | some (index, item) =>
      shorten rounds { draft with items := draft.items.set index item }

def maxRounds : Nat := 100

/-! ## Bytes -/

/-- The bytes of a placed branch; nothing for other items. -/
def branchBytes (draft : Draft) : Nat × Item → Except Error (List UInt8)
  | (offset, item@(.branch opcode label)) => do
    let target ← draft.offsetOfLabel label
    checkPosition target .labelTooFar
    checkPosition (offset + item.size) .instructionTooFar
    let displacement := (target : Int) - ((offset + item.size : Nat) : Int)
    match opcode.operand with
    | .int8 =>
      if isShort displacement then
        return opcode.code.bytes ++ [(Int8.ofInt displacement).toUInt8]
      else throw (.invalidBranch (.outOfShortRange displacement))
    | _ =>
      return opcode.code.bytes ++
        Number.toBytes 4 (Int32.ofInt displacement).toUInt32.toNat
  | _ => .ok []

/-- The bytes of a placed item.  The displacements of a switch count from its end. -/
def itemBytes (draft : Draft) : Nat × Item → Except Error (List UInt8)
  | (_, .bytes content) => .ok content
  | (offset, item@(.branch ..)) => branchBytes draft (offset, item)
  | (offset, item@(.switch labels)) => do
    checkPosition (offset + item.size) .switchTooFar
    let displacements ← labels.mapM fun label => do
      let target ← draft.offsetOfLabel label
      checkPosition target .labelTooFar
      return Number.toBytes 4
        (Int32.ofInt ((target : Int) - ((offset + item.size : Nat) : Int))).toUInt32.toNat
    return Opcode.switch.code.bytes ++ Number.toBytes 4 labels.length ++ displacements.flatten

/-- The bytes of all items.  Of several undefined labels that of the first branch is
reported, and that of a switch only if all branches are resolved. -/
def Draft.bytes (draft : Draft) : Except Error (List UInt8) := do
  let placed := draft.placed
  placed.forM fun item => discard (branchBytes draft item)
  return (← placed.mapM (itemBytes draft)).flatten

/-- A clause with its marks turned into offsets. -/
def clauseOf (items : List Item) (marked : MarkedClause) : Clause :=
  let tryOffset := offsetOf items marked.tryStart
  let handlerOffset := offsetOf items marked.handlerStart
  { flags := marked.flags
    tryOffset
    tryLength := offsetOf items marked.tryEnd - tryOffset
    handlerOffset
    handlerLength := offsetOf items marked.handlerEnd - handlerOffset
    class? := marked.class?
    filterOffset := match marked.filterStart? with
      | some mark => offsetOf items mark
      | none => 0 }

/-- The offsets of a clause must fit into 32 bits. -/
def checkClause (items : List Item) (marked : MarkedClause) : Except Error Unit :=
  let marks := [marked.tryStart, marked.tryEnd, marked.handlerStart, marked.handlerEnd] ++
    marked.filterStart?.toList
  if marks.all fun mark => offsetOf items mark < Encoder.wordBound then .ok ()
  else .error (.malformed .clauseTooFar)

end Layout

namespace Encoder

def branchesToEnd (encoder : Encoder) : Bool :=
  encoder.items.any fun
    | .branch _ label => encoder.labelMark? label == some encoder.here
    | _ => false

/-- Ends code that a branch leaves at its end with a return. -/
def terminate : EncoderM Unit := do
  if (← get).branchesToEnd then emit .ret

def finish : EncoderM EmittedCode := do
  if let block :: _ := (← get).openBlocks then
    throw (.malformed (.blockNeverEnded ((← get).offsetOfMark block.tryStart)))
  terminate
  let encoder ← get
  let draft : Layout.Draft :=
    { items := encoder.items.toList, labels := encoder.labels.toList }
  let draft ← ofExcept
    (if encoder.shortens then Layout.shorten Layout.maxRounds draft else .ok draft)
  let code ← ofExcept draft.bytes
  ofExcept (encoder.clauses.toList.forM (Layout.checkClause draft.items))
  return { code
           maxStack := encoder.maxDepth
           labels := draft.labels.map fun (label, mark) => (label, offsetOf draft.items mark)
           clauses := encoder.clauses.toList.map (Layout.clauseOf draft.items) }

end Encoder

end Cil
