/-!
# Binary floating point formats

A finite number of a binary interchange format is `m * 2 ^ q` with a sign.  The
functions on a format take the number's bits apart, and `encode` goes the other way:
from any `m * 2 ^ q` to the bits of the nearest number of the format.
-/

namespace Cil

namespace Number

/-- The layout of a binary interchange format. -/
structure BinaryFormat where
  /-- Width of the stored fraction. -/
  fractionBits : Nat
  /-- Width of the stored exponent. -/
  exponentBits : Nat
  /-- The most decimal digits that a finite number can need. -/
  mostDigits : Nat
deriving DecidableEq, Repr

def binary32 : BinaryFormat := ⟨23, 8, 9⟩

def binary64 : BinaryFormat := ⟨52, 11, 17⟩

namespace BinaryFormat

/-- Adding this to a stored exponent's negative gives the weight of the last bit. -/
def lastBitBias (format : BinaryFormat) : Nat :=
  Nat.pow 2 (format.exponentBits - 1) - 1 + format.fractionBits

def isNegative (format : BinaryFormat) (bits : Nat) : Bool :=
  bits.testBit (format.fractionBits + format.exponentBits)

def fraction (format : BinaryFormat) (bits : Nat) : Nat :=
  bits % Nat.pow 2 format.fractionBits

def exponent (format : BinaryFormat) (bits : Nat) : Nat :=
  bits / Nat.pow 2 format.fractionBits % Nat.pow 2 format.exponentBits

/-- Whether the stored exponent is the one of infinities and NaN. -/
def isSpecial (format : BinaryFormat) (bits : Nat) : Bool :=
  format.exponent bits == Nat.pow 2 format.exponentBits - 1

/-- The integer significand of a finite number. -/
def significand (format : BinaryFormat) (bits : Nat) : Nat :=
  if format.exponent bits = 0 then format.fraction bits
  else format.fraction bits + Nat.pow 2 format.fractionBits

/-- The power of two that the significand is multiplied by. -/
def scale (format : BinaryFormat) (bits : Nat) : Int :=
  (max (format.exponent bits) 1 : Nat) - (format.lastBitBias : Int)

def isNaN (format : BinaryFormat) (bits : Nat) : Bool :=
  format.isSpecial bits && format.fraction bits != 0

/-- The power of two of the last bit of the smallest numbers. -/
def leastScale (format : BinaryFormat) : Int :=
  1 - (format.lastBitBias : Int)

def infinity (format : BinaryFormat) : Nat :=
  (Nat.pow 2 format.exponentBits - 1) * Nat.pow 2 format.fractionBits

/-- `m / 2 ^ dropped`, rounded to the nearest integer, and to the even one of two
that are equally near. -/
def roundHalfEven (m dropped : Nat) : Nat :=
  let unit := Nat.pow 2 dropped
  let quotient := m / unit
  let remainder := m % unit
  if 2 * remainder > unit || (2 * remainder == unit && quotient % 2 == 1) then quotient + 1
  else quotient

/-- The bits of the number nearest to `m * 2 ^ q`, without the sign.

The power of two of the last bit follows from the length of `m`.  Because the
exponent stands directly above the fraction, a significand that rounding makes one
bit longer carries into the exponent, and past the last exponent into infinity. -/
def magnitude (format : BinaryFormat) (m : Nat) (q : Int) : Nat :=
  if m = 0 then 0
  else
    let last := max (q + m.log2 - format.fractionBits) format.leastScale
    let significand :=
      if last ≤ q then m * Nat.pow 2 (q - last).toNat else roundHalfEven m (last - q).toNat
    min ((last - format.leastScale).toNat * Nat.pow 2 format.fractionBits + significand)
      format.infinity

/-- The bits of the number nearest to `m * 2 ^ q`, with a sign. -/
def encode (format : BinaryFormat) (isNegative : Bool) (m : Nat) (q : Int) : Nat :=
  (if isNegative then Nat.pow 2 (format.fractionBits + format.exponentBits) else 0) +
    format.magnitude m q

end BinaryFormat

end Number

end Cil
