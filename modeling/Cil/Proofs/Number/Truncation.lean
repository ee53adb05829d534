import Mathlib.Algebra.Order.Floor.Ring
import Mathlib.Data.Rat.Floor
import Cil.Number.FloatingPoint

/-!
# Truncation of floating point numbers

A finite floating point number stands for the rational number `m * 2 ^ q`, with a sign, where
`m` and `q` are the mantissa and the exponent that its bits unpack to.  Truncation takes the
bits apart on its own.  It rounds this rational number toward zero.
-/

namespace Cil

namespace Number

open Float.Model (UnpackedFloat)
open Float.Model.UnpackedFloat (Sign unpackMantissa unpackExponent unpackSign)

/-- The rational number that a finite floating point number stands for. -/
def rational? (number : Float) : Option ℚ :=
  match number.toModel.unpack with
  | .notANumber | .infinity _ => none
  | .zero _ => some 0
  | .finite sign mantissa exponent _ => some (sign.apply mantissa * 2 ^ exponent)

/-- A rational number without its fraction. -/
def towardZero (number : ℚ) : Int :=
  if number < 0 then ⌈number⌉ else ⌊number⌋

/-! ## Truncated dyadic numbers -/

theorem towardZero_neg (number : ℚ) : towardZero (-number) = -towardZero number := by
  rcases lt_trichotomy number 0 with negative | rfl | positive
  · simp [towardZero, negative, negative.le, Int.floor_neg]
  · simp [towardZero]
  · simp [towardZero, positive, positive.le, Int.ceil_neg]

/-- The integer part of `m * 2 ^ q`. -/
def dyadicFloor (m : Nat) (q : Int) : Nat :=
  m * Nat.pow 2 q.toNat / Nat.pow 2 (-q).toNat

theorem towardZero_dyadic (m : Nat) (q : Int) :
    towardZero (m * 2 ^ q) = dyadicFloor m q := by
  have nonnegative : ¬((m : ℚ) * 2 ^ q < 0) :=
    not_lt.mpr (mul_nonneg (Nat.cast_nonneg m) (zpow_nonneg zero_le_two q))
  have quotient : (m : ℚ) * 2 ^ q =
      ((m * 2 ^ q.toNat : Nat) : ℤ) / ((2 ^ (-q).toNat : Nat) : ℚ) := by
    rw [eq_div_iff (by positivity)]
    push_cast
    rw [mul_assoc, ← zpow_natCast, ← zpow_natCast, ← zpow_add₀ two_ne_zero]
    congr 2
    omega
  rw [towardZero, if_neg nonnegative, quotient, Rat.floor_intCast_div_natCast]
  rfl

theorem towardZero_signed (sign : Sign) (m : Nat) (q : Int) :
    towardZero (sign.apply m * 2 ^ q) = sign.apply (dyadicFloor m q) := by
  cases sign with
  | positive => exact towardZero_dyadic m q
  | negative =>
      have opposite : ((Sign.negative.apply m : ℤ) : ℚ) * 2 ^ q = -(m * 2 ^ q) := by
        simp [Sign.apply]
      rw [opposite, towardZero_neg, towardZero_dyadic]
      rfl

/-! ## Bits of a floating point number -/

section Bits

variable (bits : BitVec Float.Model.Format.binary64.numBits)

theorem toNat_unpackMantissa :
    (unpackMantissa bits).toNat = binary64.fraction bits.toNat := by
  simp [unpackMantissa, BinaryFormat.fraction, binary64]

theorem toNat_unpackExponent :
    (unpackExponent bits).toNat = binary64.exponent bits.toNat := by
  simp [unpackExponent, BinaryFormat.exponent, binary64, Nat.shiftRight_eq_div_pow]

theorem unpackSign_eq :
    Sign.ofBitVec (unpackSign bits) =
      if binary64.isNegative bits.toNat then .negative else .positive := by
  have bit : unpackSign bits = BitVec.ofBool (bits.getLsbD 63) := by
    refine BitVec.eq_of_getLsbD_eq fun index inside => ?_
    obtain rfl : index = 0 := by omega
    change (bits.extractLsb 63 63).getLsbD 0 = _
    simp [BitVec.extractLsb, BitVec.getLsbD_eq_getElem (show 63 < 64 by decide)]
  have same : binary64.isNegative bits.toNat = bits.getLsbD 63 := rfl
  rw [bit, same]
  cases bits.getLsbD 63 <;> rfl

theorem isSpecial_iff :
    binary64.isSpecial bits.toNat ↔ unpackExponent bits = -1#_ := by
  rw [← BitVec.toNat_inj, toNat_unpackExponent]
  exact beq_iff_eq

theorem exponent_eq_zero_iff :
    binary64.exponent bits.toNat = 0 ↔ unpackExponent bits = 0#_ := by
  rw [← BitVec.toNat_inj, toNat_unpackExponent]
  rfl

theorem fraction_eq_zero_iff :
    binary64.fraction bits.toNat = 0 ↔ unpackMantissa bits = 0#_ := by
  rw [← BitVec.toNat_inj, toNat_unpackMantissa]
  rfl

/-! A finite number is normal, or it has the least exponent and no leading bit. -/

theorem significand_of_normal (normal : binary64.exponent bits.toNat ≠ 0) :
    binary64.significand bits.toNat = (1#1 ++ unpackMantissa bits).toNat := by
  have below : binary64.fraction bits.toNat < 2 ^ 52 := Nat.mod_lt _ (by decide)
  rw [BinaryFormat.significand, if_neg normal, BitVec.toNat_append, toNat_unpackMantissa,
    ← Nat.shiftLeft_add_eq_or_of_lt below, Nat.add_comm]
  rfl

theorem scale_of_normal (normal : binary64.exponent bits.toNat ≠ 0) :
    binary64.scale bits.toNat = binary64.exponent bits.toNat - 1075 := by
  rw [BinaryFormat.scale, Nat.max_eq_left (Nat.pos_of_ne_zero normal)]
  rfl

theorem significand_of_small (small : binary64.exponent bits.toNat = 0) :
    binary64.significand bits.toNat = binary64.fraction bits.toNat := by
  rw [BinaryFormat.significand, if_pos small]

theorem scale_of_small (small : binary64.exponent bits.toNat = 0) :
    binary64.scale bits.toNat = 0 - 1075 + 1 := by
  rw [BinaryFormat.scale, small]
  rfl

end Bits

/-- The rational number that the bits of a finite number spell. -/
def dyadic (bits : Nat) : ℚ :=
  (if binary64.isNegative bits then Sign.negative else .positive).apply
    (binary64.significand bits) * 2 ^ binary64.scale bits

theorem rational?_eq (number : Float) :
    rational? number =
      if binary64.isSpecial number.toBits.toNat then none
      else some (dyadic number.toBits.toNat) := by
  unfold rational? Float.Model.unpack UnpackedFloat.unpack
  have toNat : number.toBits.toNat = number.toModel.toBits.toBitVec.toNat := rfl
  rw [toNat]
  generalize number.toModel.toBits.toBitVec = bits
  dsimp only
  rw [unpackSign_eq]
  by_cases special : binary64.isSpecial bits.toNat
  · rw [if_pos ((isSpecial_iff bits).mp special), if_pos special]
    by_cases infinite : binary64.fraction bits.toNat = 0
    · rw [if_pos ((fraction_eq_zero_iff bits).mp infinite)]
    · rw [if_neg (mt (fraction_eq_zero_iff bits).mpr infinite)]
  rw [if_neg (mt (isSpecial_iff bits).mpr special), if_neg special, dyadic]
  by_cases small : binary64.exponent bits.toNat = 0
  · rw [if_pos ((exponent_eq_zero_iff bits).mp small), significand_of_small bits small,
      scale_of_small bits small]
    by_cases zero : binary64.fraction bits.toNat = 0
    · rw [dif_pos ((fraction_eq_zero_iff bits).mp zero), zero]
      cases binary64.isNegative bits.toNat <;> simp [Sign.apply]
    · rw [dif_neg (mt (fraction_eq_zero_iff bits).mpr zero)]
      dsimp only
      rw [toNat_unpackMantissa, toNat_unpackExponent, small]
      rfl
  · rw [if_neg (mt (exponent_eq_zero_iff bits).mpr small), significand_of_normal bits small,
      scale_of_normal bits small]
    dsimp only
    rw [toNat_unpackExponent]
    rfl

/-- Truncation rounds the rational number that a finite number stands for toward zero. -/
theorem truncated?_eq (number : Float) :
    truncated? number = (rational? number).map towardZero := by
  rw [rational?_eq]
  unfold truncated?
  by_cases special : binary64.isSpecial number.toBits.toNat
  · simp only [special, if_true, Option.map_none]
  · simp only [special, Bool.false_eq_true, if_false, Option.map_some, dyadic, towardZero_signed]
    cases binary64.isNegative number.toBits.toNat <;> rfl

end Number

end Cil
