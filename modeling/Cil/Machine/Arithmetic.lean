import Cil.Machine.Value
import Cil.Number.FloatingPoint

/-!
# Arithmetic

Binary and unary operations on values.  Two integers meet at a common width, where
the operation is one on machine words of that width; a floating point number turns
any number that it meets into one of its kind.
-/

namespace Cil

/-- Why an operation on values has no result. -/
inductive Fault
  | divideByZero
  | overflow
  /-- The operation does not take these operands. -/
  | mismatch (complaint : String)
deriving DecidableEq, Repr, Inhabited

/-- An operation on two numbers. -/
inductive BinaryOp
  | add
  | sub
  | mul
  | div
  | divUn
  | rem
  | remUn
  | and
  | or
  | xor
  | addOvf
  | addOvfUn
  | subOvf
  | subOvfUn
  | mulOvf
  | mulOvfUn
deriving DecidableEq, Repr, Inhabited

namespace BinaryOp

def name : BinaryOp → String
  | add => "Add"
  | sub => "Sub"
  | mul => "Mul"
  | div => "Div"
  | divUn => "DivUn"
  | rem => "Rem"
  | remUn => "RemUn"
  | and => "And"
  | or => "Or"
  | xor => "Xor"
  | addOvf => "AddOvf"
  | addOvfUn => "AddOvfUn"
  | subOvf => "SubOvf"
  | subOvfUn => "SubOvfUn"
  | mulOvf => "MulOvf"
  | mulOvfUn => "MulOvfUn"

/-- A result that exists unless the operation overflows. -/
private def unlessOverflow {width : Nat} (overflows : Bool) (result : BitVec width) :
    Except Fault (BitVec width) :=
  if overflows then .error .overflow else .ok result

/-- A result that exists unless the divisor is zero. -/
private def unlessZero {width : Nat} (divisor : BitVec width)
    (result : Except Fault (BitVec width)) : Except Fault (BitVec width) :=
  if divisor = 0 then .error .divideByZero else result

/-- The operation on two words of one width. -/
def onWords {width : Nat} (op : BinaryOp) (a b : BitVec width) :
    Except Fault (BitVec width) :=
  match op with
  | add => .ok (a + b)
  | sub => .ok (a - b)
  | mul => .ok (a * b)
  | div => unlessZero b (unlessOverflow (BitVec.sdivOverflow a b) (a.sdiv b))
  | divUn => unlessZero b (.ok (a.udiv b))
  | rem => unlessZero b (.ok (a.srem b))
  | remUn => unlessZero b (.ok (a.umod b))
  | and => .ok (a &&& b)
  | or => .ok (a ||| b)
  | xor => .ok (a ^^^ b)
  | addOvf => unlessOverflow (BitVec.saddOverflow a b) (a + b)
  | addOvfUn => unlessOverflow (BitVec.uaddOverflow a b) (a + b)
  | subOvf => unlessOverflow (BitVec.ssubOverflow a b) (a - b)
  | subOvfUn => unlessOverflow (BitVec.usubOverflow a b) (a - b)
  | mulOvf => unlessOverflow (BitVec.smulOverflow a b) (a * b)
  | mulOvfUn => unlessOverflow (BitVec.umulOverflow a b) (a * b)

/-- The operation on floating point numbers; operations on bits have none. -/
def onFloats? : BinaryOp → Option (Float → Float → Float)
  | add | addOvf | addOvfUn => some (· + ·)
  | sub | subOvf | subOvfUn => some (· - ·)
  | mul | mulOvf | mulOvfUn => some (· * ·)
  | div | divUn => some (· / ·)
  | rem | remUn => some Number.remainder
  | and | or | xor => none

end BinaryOp

/-- Two integers at a common width. -/
inductive IntegerPair
  | int32 (a b : Int32)
  | int64 (a b : Int64)
  | nativeInt (a b : Int64)
deriving DecidableEq, Repr

namespace IntegerPair

/-- The common width of two integer values.  A 32-bit integer is extended to the width
of its partner; 64-bit and native integers do not mix. -/
def of? : Value → Value → Option IntegerPair
  | .int32 a, .int32 b => some (int32 a b)
  | .int64 a, .int64 b => some (int64 a b)
  | .int64 a, .int32 b => some (int64 a b.toInt64)
  | .int32 a, .int64 b => some (int64 a.toInt64 b)
  | .nativeInt a, .nativeInt b => some (nativeInt a b)
  | .nativeInt a, .int32 b => some (nativeInt a b.toInt64)
  | .int32 a, .nativeInt b => some (nativeInt a.toInt64 b)
  | _, _ => none

def binary (op : BinaryOp) : IntegerPair → Except Fault Value
  | int32 a b => do return .int32 (.ofBitVec (← op.onWords a.toBitVec b.toBitVec))
  | int64 a b => do return .int64 (.ofBitVec (← op.onWords a.toBitVec b.toBitVec))
  | nativeInt a b => do return .nativeInt (.ofBitVec (← op.onWords a.toBitVec b.toBitVec))

end IntegerPair

namespace Value

def isFloat : Value → Bool
  | float _ => true
  | _ => false

def binary (op : BinaryOp) (left right : Value) : Except Fault Value :=
  match IntegerPair.of? left right with
  | some pair => pair.binary op
  | none =>
    let mismatch := Except.error (.mismatch s!"{op.name} on {left} and {right}")
    match left.isFloat || right.isFloat, op.onFloats? with
    | false, _ => mismatch
    | true, none => .error (.mismatch s!"{op.name} on floating point operands")
    | true, some operation =>
      match left.float?, right.float? with
      | some a, some b => .ok (float (operation a b))
      | _, _ => mismatch

end Value

inductive ShiftOp
  | left
  | right
  | rightUn
deriving DecidableEq, Repr, Inhabited

namespace ShiftOp

def mnemonic : ShiftOp → String
  | left => "shl"
  | right => "shr"
  | rightUn => "shr.un"

/-- The shift of a word.  The amount counts modulo the width. -/
def onWord {width : Nat} (op : ShiftOp) (word : BitVec width) (amount : Nat) :
    BitVec width :=
  let amount := amount % width
  match op with
  | left => word <<< amount
  | right => word.sshiftRight amount
  | rightUn => word >>> amount

end ShiftOp

/-- An operation on one number. -/
inductive UnaryOp
  | negate
  | complement
deriving DecidableEq, Repr, Inhabited

namespace UnaryOp

def mnemonic : UnaryOp → String
  | negate => "neg"
  | complement => "not"

/-- The operation on a word. -/
def onWord {width : Nat} (op : UnaryOp) (word : BitVec width) : BitVec width :=
  match op with
  | negate => -word
  | complement => ~~~word

end UnaryOp

namespace Value

def shift (op : ShiftOp) (value amount : Value) : Except Fault Value :=
  let shifted (amount : Nat) : Except Fault Value :=
    match value with
    | int32 word => .ok (int32 (.ofBitVec (op.onWord word.toBitVec amount)))
    | int64 word => .ok (int64 (.ofBitVec (op.onWord word.toBitVec amount)))
    | nativeInt word => .ok (nativeInt (.ofBitVec (op.onWord word.toBitVec amount)))
    | other => .error (.mismatch (op.mnemonic ++ s!" on {other}"))
  match amount with
  | int32 amount => shifted amount.toBitVec.toNat
  | nativeInt amount => shifted (amount.toBitVec.toNat % 0x100000000)
  | other => .error (.mismatch s!"shift amount {other}")

def unary (op : UnaryOp) (value : Value) : Except Fault Value :=
  match value, op with
  | int32 word, op => .ok (int32 (.ofBitVec (op.onWord word.toBitVec)))
  | int64 word, op => .ok (int64 (.ofBitVec (op.onWord word.toBitVec)))
  | nativeInt word, op => .ok (nativeInt (.ofBitVec (op.onWord word.toBitVec)))
  | float number, .negate => .ok (float (-number))
  | other, op => .error (.mismatch (op.mnemonic ++ s!" on {other}"))

end Value

end Cil
