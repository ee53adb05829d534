/-!
# Little-endian numbers

A natural number becomes exactly `width` bytes, least significant first, and a
list of bytes becomes a natural number.  Reading what was written gives the
number back modulo `256 ^ width`.
-/

namespace Cil

namespace Number

/-- The `width` low bytes of a number, least significant first. -/
def toBytes : (width : Nat) → (number : Nat) → List UInt8
  | 0, _ => []
  | width + 1, number => UInt8.ofNat (number % 256) :: toBytes width (number / 256)

/-- The number whose bytes are given, least significant first. -/
def ofBytes : List UInt8 → Nat
  | [] => 0
  | byte :: bytes => byte.toNat + 256 * ofBytes bytes

@[simp]
theorem toBytes_length (width number : Nat) :
    (toBytes width number).length = width := by
  induction width generalizing number with
  | zero => rfl
  | succ width ih => simp [toBytes, ih]

theorem ofBytes_lt (bytes : List UInt8) : ofBytes bytes < Nat.pow 256 bytes.length := by
  induction bytes with
  | nil => simp [ofBytes]
  | cons byte bytes ih =>
      have small := byte.toNat_lt
      have step : Nat.pow 256 (bytes.length + 1) = Nat.pow 256 bytes.length * 256 := rfl
      simp only [ofBytes, List.length_cons, step]
      omega

theorem ofBytes_toBytes (width number : Nat) :
    ofBytes (toBytes width number) = number % Nat.pow 256 width := by
  induction width generalizing number with
  | zero => simp [toBytes, ofBytes, Nat.mod_one]
  | succ width ih =>
      have low : number % 256 % 256 = number % 256 :=
        Nat.mod_eq_of_lt (Nat.mod_lt number (by decide))
      have step : Nat.pow 256 (width + 1) = 256 * Nat.pow 256 width := Nat.mul_comm ..
      simp only [toBytes, ofBytes, ih, UInt8.toNat_ofNat', Nat.reducePow, low]
      rw [step, Nat.mod_mul]

theorem toBytes_ofBytes (bytes : List UInt8) :
    toBytes bytes.length (ofBytes bytes) = bytes := by
  induction bytes with
  | nil => rfl
  | cons byte bytes ih =>
      have small := byte.toNat_lt
      have low : (byte.toNat + 256 * ofBytes bytes) % 256 = byte.toNat := by omega
      have high : (byte.toNat + 256 * ofBytes bytes) / 256 = ofBytes bytes := by omega
      simp [ofBytes, toBytes, low, high, ih]

end Number

end Cil
