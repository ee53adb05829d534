import Cil.Code.Instruction
import Cil.Cursor

/-!
# Decoding instructions

A stream of code is a sequence of instructions without gaps.  Decoding reads the
code of an instruction, looks it up in the instruction set, and reads the operand
that the table asks for.  A stream that cannot be read to its end has no reading.
-/

namespace Cil

namespace Instruction

/-- Reads the code of an instruction that starts at `start`. -/
def readOpcode (start : Nat) : CursorM Opcode := do
  let first ← Cursor.readNat 1
  if first = OpcodeBytes.lead then
    let second ← Cursor.readNat 1
    match Opcode.entry? (.extended second) with
    | some (some opcode) => return opcode
    | some none =>
      throw (.unsupportedInstruction start (.reservedOpcode OpcodeBytes.lead second))
    | none => throw (.unsupportedInstruction start (.unknownExtendedOpcode second))
  else
    match Opcode.entry? (.plain first) with
    | some (some opcode) => return opcode
    | some none => throw (.unsupportedInstruction start (.reservedOpcode 0 first))
    | none => throw (.unsupportedInstruction start (.unknownOpcode first))

def readDisplacements : (count : Nat) → CursorM (List Int32)
  | 0 => pure []
  | count + 1 => do
    let displacement := Int32.ofInt (← Cursor.readInt 4)
    return displacement :: (← readDisplacements count)

/-- Reads an operand of a given form.  A table of displacements must fit into the
bytes that are left before any of it is read. -/
def readOperand : OperandKind → CursorM Operand
  | .none => pure .none
  | .int8 => return .immediate (.int8 (Int8.ofInt (← Cursor.readInt 1)))
  | .uint8 => return .immediate (.uint8 (UInt8.ofNat (← Cursor.readNat 1)))
  | .int16 => return .immediate (.int16 (Int16.ofInt (← Cursor.readInt 2)))
  | .uint16 => return .immediate (.uint16 (UInt16.ofNat (← Cursor.readNat 2)))
  | .int32 => return .immediate (.int32 (Int32.ofInt (← Cursor.readInt 4)))
  | .uint32 => return .immediate (.uint32 (UInt32.ofNat (← Cursor.readNat 4)))
  | .int64 => return .immediate (.int64 (Int64.ofInt (← Cursor.readInt 8)))
  | .uint64 => return .immediate (.uint64 (UInt64.ofNat (← Cursor.readNat 8)))
  | .float32 => return .immediate (.float32 (UInt32.ofNat (← Cursor.readNat 4)))
  | .float64 => return .immediate (.float64 (UInt64.ofNat (← Cursor.readNat 8)))
  | .token => return .token ⟨UInt32.ofNat (← Cursor.readNat 4)⟩
  | .switch => do
    let count ← Cursor.readNat 4
    if (← get).remaining < count * 4 then throw .outOfBounds
    return .switch (← readDisplacements count)

def read : CursorM Instruction := do
  let start := (← get).position
  let opcode ← readOpcode start
  let operand ← readOperand opcode.operand
  let next := (← get).position
  return { offset := start, size := next - start, opcode, operand
           targets := targetsOf opcode.flow next operand }

/-- The result of reading instructions until the bytes end or one cannot be read. -/
structure Stream where
  instructions : List Instruction
  failure? : Option Error
  /-- Where the cursor stands at the end. -/
  position : Nat

/-- Reads at most `count` instructions. -/
def readMany : (count : Nat) → (cursor : Cursor) → Stream
  | 0, cursor => { instructions := [], failure? := none, position := cursor.position }
  | count + 1, cursor =>
    if cursor.hasMore then
      match read cursor with
      | .ok instruction cursor =>
        let stream := readMany count cursor
        { stream with instructions := instruction :: stream.instructions }
      | .error failure cursor =>
        { instructions := [], failure? := some failure, position := cursor.position }
    else { instructions := [], failure? := none, position := cursor.position }

/-- Reads a stream of code.  Every instruction takes at least one byte. -/
def readStream (code : List UInt8) : Stream :=
  readMany code.length (Cursor.ofBytes code)

def decodeAll (code : List UInt8) : Except Error (List Instruction) :=
  let stream := readStream code
  match stream.failure? with
  | some failure => .error failure
  | none => .ok stream.instructions

end Instruction

end Cil
