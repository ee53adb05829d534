import Cil.Number.BinaryFormat

/-!
# Shortest decimal text of a binary floating point number

A finite number `m * 2 ^ q` stands for the interval of reals that round to it.
The text shows the fewest decimal digits that name a point of this interval,
and of the points with so few digits the nearest one.  Notation is always
positional, without an exponent and without a trailing `.0`.

Everything is decided in exact natural number arithmetic: the value and both
ends of its interval are numerators over one common denominator.
-/

namespace Cil

namespace Number

/-- A positive value and the ends of its rounding interval, as numerators over
one denominator. -/
structure RoundingInterval where
  lower : Nat
  value : Nat
  upper : Nat
  denominator : Nat
  closed : Bool

/-- The interval of reals that round to a finite positive number.  Below a power
of two the neighbours are twice as close. -/
def RoundingInterval.of (format : BinaryFormat) (bits : Nat) : RoundingInterval :=
  let significand := format.significand bits
  let scale := format.scale bits - 2
  let below := if format.fraction bits = 0 ∧ 1 < format.exponent bits then 1 else 2
  let weight := Nat.pow 2 scale.toNat
  { lower := (4 * significand - below) * weight
    value := 4 * significand * weight
    upper := (4 * significand + 2) * weight
    denominator := Nat.pow 2 (-scale).toNat
    closed := significand % 2 = 0 }

namespace RoundingInterval

/-- Whether `digits * 10 ^ power` lies in the interval. -/
def holds (interval : RoundingInterval) (digits : Nat) (power : Int) : Bool :=
  let point := digits * Nat.pow 10 power.toNat * interval.denominator
  let unit := Nat.pow 10 (-power).toNat
  if interval.closed then
    interval.lower * unit ≤ point && point ≤ interval.upper * unit
  else
    interval.lower * unit < point && point < interval.upper * unit

/-- The two neighbours of the value on the grid of multiples of `10 ^ power`:
the greatest one not above it, and whether the next one is at least as near. -/
def floorOnGrid (interval : RoundingInterval) (power : Int) : Nat × Bool :=
  let numerator := interval.value * Nat.pow 10 (-power).toNat
  let denominator := interval.denominator * Nat.pow 10 power.toNat
  let below := numerator / denominator
  (below, denominator ≤ 2 * (numerator - below * denominator))

/-- The point of the grid that names the value, if one of the value's two
neighbours lies in the interval.  Of two, the nearer is taken, and the upper one
when both are as near. -/
def onGrid? (interval : RoundingInterval) (power : Int) : Option Nat :=
  let (below, upperNearer) := interval.floorOnGrid power
  match interval.holds below power, interval.holds (below + 1) power with
  | true, true => some (if upperNearer then below + 1 else below)
  | true, false => some below
  | false, true => some (below + 1)
  | false, false => none

/-- The exponent of the leading decimal digit of the value. -/
def leadingPower (interval : RoundingInterval) : Int :=
  let quotient := interval.value / interval.denominator
  if 0 < quotient then (Nat.toDigits 10 quotient).length - 1
  else
    -- The least `inverse` whose reciprocal is not above the value.
    let inverse := (interval.denominator + interval.value - 1) / interval.value
    let digits := (Nat.toDigits 10 inverse).length
    if inverse = Nat.pow 10 (digits - 1) then 1 - (digits : Int) else -(digits : Int)

/-- The fewest digits that name a point of the interval, tried on ever finer
grids, with the power of ten of the last digit.  The first grid is one power
above the value: a value just below a power of ten may be named by it. -/
def shortest (interval : RoundingInterval) (mostDigits : Nat) : Nat × Int :=
  let leading := interval.leadingPower
  let grids := (List.range (mostDigits + 1)).map fun (count : Nat) =>
    leading + 1 - (count : Int)
  match grids.findSome? fun power => (interval.onGrid? power).map (·, power) with
  | some found => found
  | none =>
    let power := leading - (mostDigits : Int) + 1
    ((interval.floorOnGrid power).1, power)

end RoundingInterval

/-- The number `digits * 10 ^ power` in positional notation. -/
def positional (digits : Nat) (power : Int) : List Char :=
  let text := Nat.toDigits 10 digits
  if 0 ≤ power then text ++ List.replicate power.toNat '0'
  else
    let places := (-power).toNat
    if places < text.length then
      text.take (text.length - places) ++ '.' :: text.drop (text.length - places)
    else
      '0' :: '.' :: List.replicate (places - text.length) '0' ++ text

/-- The text of the number that a bit pattern of the format stands for. -/
def decimalText (format : BinaryFormat) (bits : Nat) : String :=
  let sign := if format.isNegative bits then ['-'] else []
  let magnitude := bits % Nat.pow 2 (format.fractionBits + format.exponentBits)
  if format.isSpecial bits then
    if format.fraction bits = 0 then String.ofList (sign ++ ['i', 'n', 'f']) else "NaN"
  else if magnitude = 0 then String.ofList (sign ++ ['0'])
  else
    let (digits, power) := (RoundingInterval.of format magnitude).shortest format.mostDigits
    String.ofList (sign ++ positional digits power)

end Number

end Cil
