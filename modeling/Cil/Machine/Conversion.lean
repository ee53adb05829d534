import Cil.Machine.Arithmetic

/-!
# Conversions between number types

A conversion reads its operand as a mathematical integer, or truncates a floating
point number to one.  A checked conversion refuses an integer outside of the range of
its target; an unchecked one reduces it to the width of the target.
-/

namespace Cil

/-- The type that a conversion produces. -/
inductive NumberType
  | int8
  | int16
  | int32
  | int64
  | uint8
  | uint16
  | uint32
  | uint64
  | nativeInt
  | nativeUInt
  | float32
  | float64
  /-- The floating point type of conversions from unsigned integers. -/
  | real
deriving DecidableEq, Repr, Inhabited

namespace NumberType

/-- The abbreviation that mnemonics use. -/
def suffix : NumberType → String
  | int8 => "i1"
  | int16 => "i2"
  | int32 => "i4"
  | int64 => "i8"
  | uint8 => "u1"
  | uint16 => "u2"
  | uint32 => "u4"
  | uint64 => "u8"
  | nativeInt => "i"
  | nativeUInt => "u"
  | float32 => "r4"
  | float64 => "r8"
  | real => "r"

def bits? : NumberType → Option Nat
  | int8 | uint8 => some 8
  | int16 | uint16 => some 16
  | int32 | uint32 => some 32
  | int64 | uint64 | nativeInt | nativeUInt => some 64
  | float32 | float64 | real => none

def isUnsigned : NumberType → Bool
  | uint8 | uint16 | uint32 | uint64 | nativeUInt => true
  | _ => false

def range? (type : NumberType) : Option (Int × Int) :=
  type.bits?.map fun bits =>
    if type.isUnsigned then (0, Int.pow 2 bits - 1)
    else (-Int.pow 2 (bits - 1), Int.pow 2 (bits - 1) - 1)

/-- Whether a checked conversion accepts an integer. -/
def holds (type : NumberType) (number : Int) : Bool :=
  match type.range? with
  | some (least, greatest) => least ≤ number && number ≤ greatest
  | none => true

/-- Whether a checked conversion accepts a truncated floating point number.  The
greatest integer of a 64-bit type is no floating point number; the bound is the one
next to it. -/
def holdsTruncated (type : NumberType) (number : Int) : Bool :=
  match type.range?, type.bits? with
  | some (least, greatest), some bits =>
    least ≤ number && number ≤ if bits = 64 then greatest + 1 else greatest
  | _, _ => false

/-- An integer, reduced to the width of the type and extended to that of the stack. -/
def wrap (type : NumberType) (number : Int) : Value :=
  match type with
  | int8 => .int32 (Int8.ofInt number).toInt32
  | int16 => .int32 (Int16.ofInt number).toInt32
  | int32 | uint32 => .int32 (Int32.ofInt number)
  | uint8 => .int32 (Int32.ofInt (number % 0x100))
  | uint16 => .int32 (Int32.ofInt (number % 0x10000))
  | int64 | uint64 => .int64 (Int64.ofInt number)
  | nativeInt | nativeUInt => .nativeInt (Int64.ofInt number)
  | float32 => .float (Number.nearestSingle number)
  | float64 | real => .float (Number.nearest number)

end NumberType

structure Conversion where
  target : NumberType
  isChecked : Bool := false
  /-- Whether integer operands are read without sign. -/
  fromUnsigned : Bool := false
deriving DecidableEq, Repr, Inhabited

namespace Conversion

def mnemonic (conversion : Conversion) : String :=
  "conv." ++ (if conversion.isChecked then "ovf." else "") ++ conversion.target.suffix ++
    (if conversion.fromUnsigned then ".un" else "")

/-- Whether a 32-bit operand is extended with zeros. -/
def zeroExtends (conversion : Conversion) : Bool :=
  conversion.fromUnsigned ||
    (!conversion.isChecked &&
      (conversion.target == .uint64 || conversion.target == .nativeUInt))

/-- The integer that an integer operand stands for. -/
def integer? (conversion : Conversion) : Value → Option Int
  | .int32 word =>
    some (if conversion.zeroExtends then word.toBitVec.toNat else word.toInt)
  | .int64 word | .nativeInt word =>
    some (if conversion.fromUnsigned then word.toBitVec.toNat else word.toInt)
  | _ => none

def ofInteger (conversion : Conversion) (number : Int) : Except Fault Value :=
  if conversion.isChecked && !conversion.target.holds number then .error .overflow
  else .ok (conversion.target.wrap number)

/-- The least integer above the 128-bit range. -/
def wideBound : Int := Int.pow 2 127

/-- An integer, or the end of the 128-bit range that it lies beyond. -/
def saturate (number : Int) : Int :=
  max (-wideBound) (min number (wideBound - 1))

/-- The integer for which a floating point number stands where nothing is checked:
what lies beyond the 128-bit range stands for the end of it, and NaN for zero. -/
def uncheckedInteger (number : Float) : Int :=
  match Number.truncated? number with
  | some integer => saturate integer
  | none =>
    if number.isNaN then 0 else if number < 0 then -wideBound else wideBound - 1

def ofFloat (conversion : Conversion) (number : Float) : Except Fault Value :=
  match conversion.target with
  | .float32 => .ok (.float (Number.toSingle number))
  | .float64 | .real => .ok (.float number)
  | target =>
    if conversion.isChecked then
      match Number.truncated? number with
      | some integer =>
        if target.holdsTruncated integer then .ok (target.wrap integer)
        else .error .overflow
      | none => .error .overflow
    else .ok (target.wrap (uncheckedInteger number))

end Conversion

def Value.convert (conversion : Conversion) (value : Value) : Except Fault Value :=
  match value with
  | .float number => conversion.ofFloat number
  | other =>
    match conversion.integer? other with
    | some number => conversion.ofInteger number
    | none => .error (.mismatch (conversion.mnemonic ++ s!" on {other}"))

end Cil
