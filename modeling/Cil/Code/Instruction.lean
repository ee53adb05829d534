import Cil.Code.Opcode
import Cil.Number.Shortest
import Cil.Token

/-!
# Instructions

An instruction is an opcode with its operand, at an offset of a stream of code.
Floating point immediates are kept as bit patterns, so that a payload of a NaN is
not lost between decoding and encoding.
-/

namespace Cil

/-- A number that stands in the code. -/
inductive Immediate
  | int8 (value : Int8)
  | uint8 (value : UInt8)
  | int16 (value : Int16)
  | uint16 (value : UInt16)
  | int32 (value : Int32)
  | uint32 (value : UInt32)
  | int64 (value : Int64)
  | uint64 (value : UInt64)
  | float32 (bits : UInt32)
  | float64 (bits : UInt64)
deriving DecidableEq, Repr, Inhabited

namespace Immediate

/-- The bits of the immediate at its own width. -/
def bits : Immediate → Nat
  | int8 value => value.toUInt8.toNat
  | uint8 value => value.toNat
  | int16 value => value.toUInt16.toNat
  | uint16 value => value.toNat
  | int32 value => value.toUInt32.toNat
  | uint32 value => value.toNat
  | int64 value => value.toUInt64.toNat
  | uint64 value => value.toNat
  | float32 bits => bits.toNat
  | float64 bits => bits.toNat

def width : Immediate → Nat
  | int8 _ | uint8 _ => 1
  | int16 _ | uint16 _ => 2
  | int32 _ | uint32 _ | float32 _ => 4
  | int64 _ | uint64 _ | float64 _ => 8

/-- The value as a 64-bit word: signed numbers are sign-extended, floating point
numbers give their bits. -/
def toWord : Immediate → UInt64
  | int8 value => value.toInt64.toUInt64
  | int16 value => value.toInt64.toUInt64
  | int32 value => value.toInt64.toUInt64
  | int64 value => value.toUInt64
  | other => UInt64.ofNat other.bits

def text : Immediate → String
  | int8 value => toString value.toInt
  | uint8 value => toString value.toNat
  | int16 value => toString value.toInt
  | uint16 value => toString value.toNat
  | int32 value => toString value.toInt
  | uint32 value => toString value.toNat
  | int64 value => toString value.toInt
  | uint64 value => toString value.toNat
  | float32 bits => Number.decimalText Number.binary32 bits.toNat
  | float64 bits => Number.decimalText Number.binary64 bits.toNat

/-- The bits in hexadecimal, two digits for each byte. -/
def hexText (immediate : Immediate) : String :=
  Text.hexUpper (2 * immediate.width) immediate.bits

end Immediate

/-- What follows the code of an instruction. -/
inductive Operand
  | none
  | immediate (value : Immediate)
  | target (offset : UInt64)
  | token (token : Token)
  | localIndex (index : UInt16)
  | argumentIndex (index : UInt16)
  | switch (displacements : List Int32)
deriving DecidableEq, Repr, Inhabited

structure Instruction where
  offset : Nat
  size : Nat
  opcode : Opcode
  operand : Operand
  /-- The absolute targets of a branch, modulo `2 ^ 64`. -/
  targets : List Nat
deriving DecidableEq, Repr, Inhabited

namespace Instruction

def mnemonic (instruction : Instruction) : String := instruction.opcode.mnemonic

def nextOffset (instruction : Instruction) : Nat :=
  instruction.offset + instruction.size

/-- Whether the instruction only modifies the one after it. -/
def isPrefixMark (instruction : Instruction) : Bool :=
  instruction.opcode.category == .prefixMark

def token? (instruction : Instruction) : Option Token :=
  match instruction.operand with
  | .token token => some token
  | _ => none

/-- An operand that numbers an argument or a local. -/
def indexOperand? (instruction : Instruction) : Option Nat :=
  match instruction.operand with
  | .immediate (.uint8 index) => some index.toNat
  | .immediate (.uint16 index) | .localIndex index | .argumentIndex index => some index.toNat
  | _ => none

def argumentIndex? (instruction : Instruction) : Option Nat :=
  match instruction.opcode with
  | .ldarg0 => some 0
  | .ldarg1 => some 1
  | .ldarg2 => some 2
  | .ldarg3 => some 3
  | .ldargS | .ldargaS | .stargS | .ldarg | .ldarga | .starg => instruction.indexOperand?
  | _ => none

def localIndex? (instruction : Instruction) : Option Nat :=
  match instruction.opcode with
  | .ldloc0 | .stloc0 => some 0
  | .ldloc1 | .stloc1 => some 1
  | .ldloc2 | .stloc2 => some 2
  | .ldloc3 | .stloc3 => some 3
  | .ldlocS | .ldlocaS | .stlocS | .ldloc | .ldloca | .stloc => instruction.indexOperand?
  | _ => none

def int32Constant? (instruction : Instruction) : Option Int32 :=
  match instruction.opcode, instruction.operand with
  | .ldcI4M1, _ => some (-1)
  | .ldcI40, _ => some 0
  | .ldcI41, _ => some 1
  | .ldcI42, _ => some 2
  | .ldcI43, _ => some 3
  | .ldcI44, _ => some 4
  | .ldcI45, _ => some 5
  | .ldcI46, _ => some 6
  | .ldcI47, _ => some 7
  | .ldcI48, _ => some 8
  | .ldcI4S, .immediate (.int8 value) => some value.toInt32
  | .ldcI4, .immediate (.int32 value) => some value
  | _, _ => none

/-- The targets that displacements from the end of an instruction lead to, for the
instructions that branch. -/
def targetsOf (flow : Flow) (next : Nat) (operand : Operand) : List Nat :=
  let wrapped := fun (displacement : UInt64) => (next + displacement.toNat) % 0x10000000000000000
  match operand with
  | .immediate value => if flow.isSingleBranch then [wrapped value.toWord] else []
  | .switch displacements =>
    if flow = .switch then
      displacements.map fun displacement => wrapped displacement.toInt64.toUInt64
    else []
  | _ => []

/-! ## Listing text -/

/-- The operand in the short listing of an instruction. -/
def operandNote : Operand → String
  | .none => ""
  | .immediate value => " 0x" ++ value.hexText
  | .target offset => " -> " ++ Text.codeOffset offset.toNat
  | .token token => s!" token:{token}"
  | .localIndex index => s!" local:{index.toNat}"
  | .argumentIndex index => s!" arg:{index.toNat}"
  | .switch displacements => s!" switch[{displacements.length}]"

/-- A change of the stack's height, with its sign. -/
def signed (change : Int) : String :=
  if 0 ≤ change then s!"+{change}" else toString change

/-- The instruction on one line, with everything that is known about it. -/
def describe (instruction : Instruction) : String :=
  let opcode := instruction.opcode
  let lead := match opcode.code with
    | .plain _ => ""
    | .extended _ => Text.hexUpper 2 OpcodeBytes.lead ++ ":"
  let name := String.ofList (opcode.mnemonic.toList.rightpad 12 ' ')
  let flow := if opcode.flow = .sequential then "" else " | " ++ opcode.flow.name
  let stack :=
    if opcode.netEffect = 0 then "" else " | stack:" ++ signed opcode.netEffect
  Text.codeOffset instruction.offset ++ " - " ++ lead ++
    Text.hexUpper 2 opcode.code.lastByte ++ " - " ++ name ++
    operandNote instruction.operand ++ " | " ++ opcode.category.name ++ flow ++ stack ++
    s!" | size:{instruction.size}"

end Instruction

end Cil
