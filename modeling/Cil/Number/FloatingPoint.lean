import Cil.Number.BinaryFormat

/-!
# Exact operations on floating point numbers

Conversions between floating point numbers and integers, and the remainder of a
division.  All of them take the bits apart and compute with integers.
-/

namespace Cil

namespace Number

/-- The floating point number nearest to an integer. -/
def nearest (number : Int) : Float :=
  Float.ofBits (UInt64.ofNat (binary64.encode (number < 0) number.natAbs 0))

/-- The same number in the 64-bit format. -/
def widen (bits : UInt32) : Float :=
  let bits := bits.toNat
  let negative := binary32.isNegative bits
  Float.ofBits <| UInt64.ofNat <|
    if binary32.isNaN bits then binary64.infinity + 1
    else if binary32.isSpecial bits then
      binary64.encode negative 0 0 + binary64.infinity
    else binary64.encode negative (binary32.significand bits) (binary32.scale bits)

/-- The nearest number of the 32-bit format to an integer. -/
def nearestSingle (number : Int) : Float :=
  widen (UInt32.ofNat (binary32.encode (number < 0) number.natAbs 0))

/-- The nearest number of the 32-bit format. -/
def toSingle (number : Float) : Float :=
  let bits := number.toBits.toNat
  if binary64.isSpecial bits then number
  else
    widen <| UInt32.ofNat <|
      binary32.encode (binary64.isNegative bits) (binary64.significand bits)
        (binary64.scale bits)

/-- A finite number without its fraction; infinities and NaN have no such integer. -/
def truncated? (number : Float) : Option Int :=
  let bits := number.toBits.toNat
  if binary64.isSpecial bits then none
  else
    let scale := binary64.scale bits
    let size := binary64.significand bits * Nat.pow 2 scale.toNat / Nat.pow 2 (-scale).toNat
    some (if binary64.isNegative bits then -size else size)

/-- What is left of `a` after taking away `b` as often as `a / b`, rounded toward
zero, says.  The result has the sign of `a`. -/
def remainder (a b : Float) : Float :=
  let x := a.toBits.toNat
  let y := b.toBits.toNat
  if binary64.isSpecial x || binary64.isNaN y || binary64.significand y = 0 then
    (0.0 / 0.0 : Float)
  else if binary64.isSpecial y then a
  else
    let scale := min (binary64.scale x) (binary64.scale y)
    let left := binary64.significand x * Nat.pow 2 (binary64.scale x - scale).toNat
    let right := binary64.significand y * Nat.pow 2 (binary64.scale y - scale).toNat
    Float.ofBits (UInt64.ofNat (binary64.encode (binary64.isNegative x) (left % right) scale))

end Number

end Cil
