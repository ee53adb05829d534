/-!
# Hexadecimal text

Offsets, tokens and immediates are written in base sixteen, padded with zeros
on the left to a least width.  Wider numbers are never cut.  Bytes are written as two
digits each and read back the same way.
-/

namespace Cil

namespace Text

/-- The digits of `number` in base sixteen, in lower case and without padding. -/
def hexDigits (number : Nat) : List Char :=
  Nat.toDigits 16 number

/-- At least `width` digits, padded with zeros on the left. -/
def padded (width : Nat) (digits : List Char) : String :=
  String.ofList (digits.leftpad width '0')

def hexLower (width number : Nat) : String :=
  padded width (hexDigits number)

def hexUpper (width number : Nat) : String :=
  padded width ((hexDigits number).map Char.toUpper)

/-- An offset into code, as listings and messages write it. -/
def codeOffset (offset : Nat) : String :=
  "IL_" ++ hexUpper 4 offset

def hexByte (byte : UInt8) : String :=
  hexLower 2 byte.toNat

def hexBytes (bytes : List UInt8) : String :=
  String.join (bytes.map hexByte)

/-- The value of a digit in base sixteen. -/
def hexValue? (char : Char) : Option Nat :=
  if '0' ≤ char ∧ char ≤ '9' then some (char.toNat - '0'.toNat)
  else if 'a' ≤ char ∧ char ≤ 'f' then some (char.toNat - 'a'.toNat + 10)
  else if 'A' ≤ char ∧ char ≤ 'F' then some (char.toNat - 'A'.toNat + 10)
  else none

/-- The number that digits in base sixteen write. -/
def numberOfHex? (digits : List Char) : Option Nat :=
  digits.foldlM (fun number char => return number * 16 + (← hexValue? char)) 0

/-- The bytes that pairs of digits write. -/
def bytesOfHex? : List Char → Option (List UInt8)
  | [] => some []
  | [_] => none
  | high :: low :: rest => do
    let byte := (← hexValue? high) * 16 + (← hexValue? low)
    return UInt8.ofNat byte :: (← bytesOfHex? rest)

def commaSeparated (items : List String) : String :=
  ", ".intercalate items

end Text

end Cil
