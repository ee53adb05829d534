import Cil.Code.Clause
import Cil.Code.Instruction
import Cil.Error
import Cil.Number.LittleEndian

/-!
# Emitting code

An encoder collects items: finished bytes, branches to labels, and switches over
labels.  Labels and clause boundaries are marks between items, so they keep their
meaning when a branch later takes its short form; `Cil.Code.Layout` turns the items
into bytes.

While it collects, the encoder follows the height of the evaluation stack.  The
height is a 16-bit number.  After an instruction that does not fall through, the
next label takes the height that branches to it have recorded.
-/

namespace Cil

/-- A piece of emitted code. -/
inductive Item
  | bytes (content : List UInt8)
  | branch (opcode : Opcode) (label : String)
  | switch (labels : List String)
deriving DecidableEq, Repr, Inhabited

def Item.size : Item → Nat
  | bytes content => content.length
  | branch opcode _ => opcode.code.bytes.length + (opcode.operand.size?.getD 0)
  | switch labels => 5 + 4 * labels.length

/-- A place between items: how many items stand before it. -/
abbrev Mark := Nat

def sizeOfItems : List Item → Nat
  | [] => 0
  | item :: rest => item.size + sizeOfItems rest

/-- The offset of a mark: the size of the items before it. -/
def offsetOf (items : List Item) (mark : Mark) : Nat :=
  sizeOfItems (items.take mark)

/-- A handler that has begun. -/
structure PendingClause where
  flags : ClauseFlags
  class? : Option Token
  filterStart? : Option Mark
  handlerStart? : Option Mark
deriving DecidableEq, Repr, Inhabited

/-- An exception block that has begun. -/
structure OpenBlock where
  tryStart : Mark
  tryEnd? : Option Mark
  current? : Option PendingClause
deriving DecidableEq, Repr, Inhabited

/-- A finished clause with its boundaries as marks. -/
structure MarkedClause where
  flags : ClauseFlags
  class? : Option Token
  tryStart : Mark
  tryEnd : Mark
  handlerStart : Mark
  handlerEnd : Mark
  filterStart? : Option Mark
deriving DecidableEq, Repr, Inhabited

/-- Code under construction. -/
structure Encoder where
  items : Array Item := #[]
  /-- The size of all items in bytes. -/
  size : Nat := 0
  /-- The marks of the defined labels, in order of definition. -/
  labels : Array (String × Mark) := #[]
  /-- The tracked height of the evaluation stack. -/
  depth : Int16 := 0
  maxDepth : Nat := 0
  /-- The heights that labels were reached with. -/
  labelDepths : List (String × Int16) := []
  /-- Whether the code emitted so far does not fall through. -/
  unreachable : Bool := false
  /-- Whether branches may take their short forms. -/
  shortens : Bool := true
  /-- Innermost first. -/
  openBlocks : List OpenBlock := []
  clauses : Array MarkedClause := #[]
deriving Repr, Inhabited

/-- An emission step.  A failing step keeps what it did before the failure. -/
abbrev EncoderM := EStateM Error Encoder

namespace Encoder

def here (encoder : Encoder) : Mark := encoder.items.size

def labelMark? (encoder : Encoder) (label : String) : Option Mark :=
  (encoder.labels.find? (·.1 == label)).map (·.2)

/-- The offset of a mark before any branch takes its short form. -/
def offsetOfMark (encoder : Encoder) (mark : Mark) : Nat :=
  offsetOf encoder.items.toList mark

def labelOffset? (encoder : Encoder) (label : String) : Option Nat :=
  (encoder.labelMark? label).map encoder.offsetOfMark

def labelDepth? (encoder : Encoder) (label : String) : Option Int16 :=
  encoder.labelDepths.lookup label

def push (item : Item) : EncoderM Unit :=
  modify fun encoder =>
    { encoder with items := encoder.items.push item, size := encoder.size + item.size }

def setShortening (enabled : Bool) : EncoderM Unit :=
  modify fun encoder => { encoder with shortens := enabled }

/-! ## The height of the stack -/

/-- Sets the tracked height; a height below zero does not count for the maximum. -/
def setDepth (depth : Int16) : EncoderM Unit :=
  modify fun encoder =>
    { encoder with depth, maxDepth := max encoder.maxDepth depth.toInt.toNat }

/-- Marks what follows as reached only through labels. -/
def markUnreachable : EncoderM Unit :=
  modify fun encoder => { encoder with unreachable := true }

/-- Takes and leaves values on the tracked stack.  Taking more than there is an
error where the code is reachable, and leaves an empty stack where it is not. -/
def trackStack (pops pushes : Nat) (context : Malformation → Malformation) :
    EncoderM Unit := do
  let encoder ← get
  let depth := encoder.depth + Int16.ofInt ((pushes : Int) - pops)
  if depth < 0 then
    if encoder.unreachable then setDepth 0
    else
      set { encoder with depth }
      throw (.malformed (context (.stackUnderflow depth.toInt pops pushes)))
  else setDepth depth

/-- Remembers the height that a branch reaches a label with; all branches to a
label must agree. -/
def recordBranch (label : String) : EncoderM Unit := do
  let encoder ← get
  if !encoder.unreachable then
    match encoder.labelDepth? label with
    | some expected =>
      if encoder.depth ≠ expected then
        throw (.malformed (.branchDepth label expected.toInt encoder.depth.toInt))
    | none =>
      set { encoder with labelDepths := (label, encoder.depth) :: encoder.labelDepths }

/-! ## Instructions -/

/-- The least number that does not fit into 32 bits. -/
def wordBound : Nat := 0x100000000

/-- The bytes of an operand, if it has the form that the instruction takes. -/
def operandBytes (kind : OperandKind) (operand? : Option Operand) :
    Except Error (List UInt8) :=
  match kind, operand? with
  | .none, none => .ok []
  | .none, some _ => .error .unexpectedOperand
  | .int8, some (.immediate (.int8 value)) => .ok [value.toUInt8]
  | .uint8, some (.immediate (.uint8 value)) => .ok [value]
  | .uint8, some (.localIndex index) | .uint8, some (.argumentIndex index) =>
    if index.toNat < 256 then .ok [index.toUInt8]
    else .error (.wrongOperandType OperandKind.uint8.name)
  | .int16, some (.immediate (.int16 value)) => .ok (Number.toBytes 2 value.toUInt16.toNat)
  | .uint16, some (.immediate (.uint16 value)) | .uint16, some (.localIndex value)
  | .uint16, some (.argumentIndex value) => .ok (Number.toBytes 2 value.toNat)
  | .int32, some (.immediate (.int32 value)) => .ok (Number.toBytes 4 value.toUInt32.toNat)
  | .uint32, some (.immediate (.uint32 value)) => .ok (Number.toBytes 4 value.toNat)
  | .int64, some (.immediate (.int64 value)) => .ok (Number.toBytes 8 value.toUInt64.toNat)
  | .uint64, some (.immediate (.uint64 value)) => .ok (Number.toBytes 8 value.toNat)
  | .float32, some (.immediate (.float32 bits)) => .ok (Number.toBytes 4 bits.toNat)
  | .float64, some (.immediate (.float64 bits)) => .ok (Number.toBytes 8 bits.toNat)
  | .token, some (.token token) => .ok (Number.toBytes 4 token.value.toNat)
  | .switch, some (.switch displacements) =>
    if displacements.length < wordBound then
      .ok (Number.toBytes 4 displacements.length ++
        displacements.flatMap fun displacement =>
          Number.toBytes 4 displacement.toUInt32.toNat)
    else .error (.malformed .tooManySwitchTargets)
  | kind, _ => .error (.wrongOperandType kind.name)

/-- Appends the bytes of an instruction.  A refused operand leaves the bytes of the
opcode behind. -/
def pushInstruction (opcode : Opcode) (operand? : Option Operand) : EncoderM Unit := do
  match operandBytes opcode.operand operand? with
  | .ok operand => push (.bytes (opcode.code.bytes ++ operand))
  | .error error =>
    push (.bytes opcode.code.bytes)
    throw error

/-- Emits an instruction with its operand in place. -/
def emit (opcode : Opcode) (operand? : Option Operand := none) : EncoderM Unit := do
  pushInstruction opcode operand?
  trackStack opcode.pops opcode.pushes (.atInstruction opcode.mnemonic)
  match opcode.flow with
  | .return | .throw | .endFinally => markUnreachable
  | _ => pure ()

/-- Emits an instruction of a decoded stream again. -/
def emitDecoded (instruction : Instruction) : EncoderM Unit :=
  emit instruction.opcode
    (if instruction.operand = .none then none else some instruction.operand)

def emitBranch (opcode : Opcode) (label : String) : EncoderM Unit := do
  if !opcode.flow.isSingleBranch then
    throw (.invalidBranch (.notABranch opcode.mnemonic))
  push (.branch opcode label)
  trackStack opcode.pops opcode.pushes (.atBranch opcode.mnemonic label)
  if opcode.flow = .leave then
    modify fun encoder => { encoder with depth := 0 }
  recordBranch label
  match opcode.flow with
  | .unconditionalBranch | .leave => markUnreachable
  | _ => pure ()

/-- Emits a switch over labels.  A table that is too long leaves the byte of the opcode
behind. -/
def emitSwitch (labels : List String) : EncoderM Unit := do
  if labels.isEmpty then throw (.invalidBranch .emptySwitch)
  if wordBound ≤ labels.length then
    push (.bytes Opcode.switch.code.bytes)
    throw (.malformed .tooManySwitchTargets)
  push (.switch labels)
  trackStack 1 0 .atSwitch
  labels.forM recordBranch

/-- Emits a call, whose effect on the stack depends on its target. -/
def emitCall (opcode : Opcode) (operand? : Option Operand) (arguments : Nat)
    (hasResult : Bool) : EncoderM Unit := do
  pushInstruction opcode operand?
  trackStack arguments hasResult.toNat (.atCall opcode.mnemonic)

def opcodeNamed (mnemonic : String) : EncoderM Opcode :=
  match Opcode.ofMnemonic? mnemonic with
  | some opcode => pure opcode
  | none => throw (.invalidMnemonic mnemonic)

def emitNamed (mnemonic : String) (operand? : Option Operand := none) : EncoderM Unit := do
  emit (← opcodeNamed mnemonic) operand?

def emitBranchNamed (mnemonic label : String) : EncoderM Unit := do
  emitBranch (← opcodeNamed mnemonic) label

def emitCallNamed (mnemonic : String) (operand? : Option Operand) (arguments : Nat)
    (hasResult : Bool) : EncoderM Unit := do
  emitCall (← opcodeNamed mnemonic) operand? arguments hasResult

/-- Emits an instruction with an index in its shortest operand. -/
def emitIndexed (short long : Opcode) (index : UInt16) : EncoderM Unit :=
  if index.toNat < 256 then emit short (some (.immediate (.uint8 index.toUInt8)))
  else emit long (some (.immediate (.uint16 index)))

def emitLoadArgument (index : UInt16) : EncoderM Unit :=
  match index.toNat with
  | 0 => emit .ldarg0
  | 1 => emit .ldarg1
  | 2 => emit .ldarg2
  | 3 => emit .ldarg3
  | _ => emitIndexed .ldargS .ldarg index

def emitLoadLocal (index : UInt16) : EncoderM Unit :=
  match index.toNat with
  | 0 => emit .ldloc0
  | 1 => emit .ldloc1
  | 2 => emit .ldloc2
  | 3 => emit .ldloc3
  | _ => emitIndexed .ldlocS .ldloc index

def emitStoreLocal (index : UInt16) : EncoderM Unit :=
  match index.toNat with
  | 0 => emit .stloc0
  | 1 => emit .stloc1
  | 2 => emit .stloc2
  | 3 => emit .stloc3
  | _ => emitIndexed .stlocS .stloc index

def emitLoadArgumentAddress (index : UInt16) : EncoderM Unit :=
  emitIndexed .ldargaS .ldarga index

def emitStoreArgument (index : UInt16) : EncoderM Unit :=
  emitIndexed .stargS .starg index

def emitLoadLocalAddress (index : UInt16) : EncoderM Unit :=
  emitIndexed .ldlocaS .ldloca index

def emitConstant (value : Int32) : EncoderM Unit :=
  match value.toInt with
  | -1 => emit .ldcI4M1
  | 0 => emit .ldcI40
  | 1 => emit .ldcI41
  | 2 => emit .ldcI42
  | 3 => emit .ldcI43
  | 4 => emit .ldcI44
  | 5 => emit .ldcI45
  | 6 => emit .ldcI46
  | 7 => emit .ldcI47
  | 8 => emit .ldcI48
  | number =>
    if -128 ≤ number ∧ number ≤ 127 then
      emit .ldcI4S (some (.immediate (.int8 value.toInt8)))
    else emit .ldcI4 (some (.immediate (.int32 value)))

/-! ## Labels -/

/-- Defines a label at the end of the code.  Where the code before it does not fall
through, the stack takes the height that branches have recorded, or none. -/
def defineLabel (label : String) : EncoderM Unit := do
  let encoder ← get
  if (encoder.labelMark? label).isSome then throw (.duplicateLabel label)
  match encoder.labelDepth? label with
  | some expected =>
    if encoder.unreachable then
      modify fun encoder => { encoder with depth := expected }
    else if encoder.depth ≠ expected then
      throw (.malformed (.labelDepth label expected.toInt encoder.depth.toInt))
  | none =>
    if encoder.unreachable then
      modify fun encoder => { encoder with depth := 0 }
    else
      modify fun encoder =>
        { encoder with labelDepths := (label, encoder.depth) :: encoder.labelDepths }
  modify fun encoder => { encoder with unreachable := false }
  if wordBound ≤ encoder.size then throw (.malformed .labelDefinedTooFar)
  modify fun encoder => { encoder with labels := encoder.labels.push (label, encoder.here) }

/-! ## Exception blocks -/

def beginBlock : EncoderM Unit :=
  modify fun encoder =>
    { encoder with
      openBlocks :=
        { tryStart := encoder.here, tryEnd? := none, current? := none } :: encoder.openBlocks }

/-- Takes the innermost block from the open ones. -/
def popBlock (failure : Malformation) : EncoderM OpenBlock := do
  let encoder ← get
  match encoder.openBlocks with
  | [] => throw (.malformed failure)
  | block :: blocks =>
    set { encoder with openBlocks := blocks }
    return block

def closeHandler (block : OpenBlock) : EncoderM Unit := do
  let some pending := block.current? | return
  let encoder ← get
  let some handlerStart := pending.handlerStart?
    | throw (.malformed (.filterWithoutHandler
        (encoder.offsetOfMark (pending.filterStart?.getD 0))))
  let clause : MarkedClause :=
    { flags := pending.flags, class? := pending.class?, tryStart := block.tryStart
      tryEnd := block.tryEnd?.getD handlerStart, handlerStart, handlerEnd := encoder.here
      filterStart? := pending.filterStart? }
  set { encoder with clauses := encoder.clauses.push clause }

/-- Begins the next handler of the innermost block.  A block that cannot take it is
closed. -/
def startHandler (flags : ClauseFlags) (class? : Option Token) (isFilter : Bool) :
    EncoderM Unit := do
  let block ← popBlock .handlerOutsideBlock
  let here := (← get).here
  let block := { block with tryEnd? := some (block.tryEnd?.getD here) }
  closeHandler block
  let pending : PendingClause :=
    { flags, class?, filterStart? := if isFilter then some here else none
      handlerStart? := if isFilter then none else some here }
  modify fun encoder =>
    { encoder with openBlocks := { block with current? := some pending } :: encoder.openBlocks }

def enterHandler (depth : Int16) : EncoderM Unit := do
  modify fun encoder => { encoder with unreachable := false }
  setDepth depth

def beginCatch (exceptionClass : Token) : EncoderM Unit := do
  startHandler ClauseFlags.exception (some exceptionClass) false
  enterHandler 1

def beginFilter : EncoderM Unit := do
  startHandler ClauseFlags.filter none true
  enterHandler 1

/-- Begins the handler of the filter that was begun last. -/
def beginFilteredHandler : EncoderM Unit := do
  let encoder ← get
  match encoder.openBlocks with
  | block@{ current? := some pending, .. } :: blocks =>
    if pending.flags = ClauseFlags.filter ∧ pending.handlerStart? = none then
      let pending := { pending with handlerStart? := some encoder.here }
      set { encoder with openBlocks := { block with current? := some pending } :: blocks }
      enterHandler 1
    else throw (.malformed .filteredHandlerWithoutFilter)
  | _ => throw (.malformed .filteredHandlerWithoutFilter)

/-- Begins a handler that runs on every way out. -/
def beginFinally : EncoderM Unit := do
  startHandler ClauseFlags.finallyBlock none false
  enterHandler 0

def beginFault : EncoderM Unit := do
  startHandler ClauseFlags.fault none false
  enterHandler 0

/-- Ends the innermost block with its last handler. -/
def endBlock : EncoderM Unit := do
  let block ← popBlock .noBlockToEnd
  if block.current?.isNone then
    throw (.malformed (.blockWithoutHandler ((← get).offsetOfMark block.tryStart)))
  closeHandler block

end Encoder

end Cil
