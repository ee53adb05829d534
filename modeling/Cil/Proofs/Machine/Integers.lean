import Cil.Machine.Arithmetic

/-!
# Integers on the evaluation stack

The kind of an integer value fixes the width of its word, and the word stands for a number,
with sign or without.  This file says which numbers a width holds, what is left of the others
when they are reduced to it, and which value of a kind stands for a number.
-/

namespace Cil

/-! ## Numbers of a width -/

/-- Whether a number of bits holds a number, with sign or without. -/
def Fits (isUnsigned : Bool) (bits : Nat) (number : Int) : Prop :=
  if isUnsigned then 0 ≤ number ∧ number < Int.pow 2 bits
  else -Int.pow 2 (bits - 1) ≤ number ∧ number < Int.pow 2 (bits - 1)

instance (isUnsigned : Bool) (bits : Nat) (number : Int) :
    Decidable (Fits isUnsigned bits number) :=
  inferInstanceAs (Decidable (if isUnsigned then _ else _))

/-- The number of a width that a number is congruent to, modulo the width. -/
def reduce (isUnsigned : Bool) (bits : Nat) (number : Int) : Int :=
  if isUnsigned then number % Nat.pow 2 bits else number.bmod (Nat.pow 2 bits)

section Widths

variable {bits : Nat} {number : Int}

/-- A word read with sign or without. -/
def readWord (isUnsigned : Bool) (word : BitVec bits) : Int :=
  if isUnsigned then word.toNat else word.toInt

theorem readWord_ofInt (isUnsigned : Bool) (number : Int) :
    readWord isUnsigned (BitVec.ofInt bits number) = reduce isUnsigned bits number := by
  cases isUnsigned with
  | true =>
      have positive : (0 : Int) < Nat.pow 2 bits := Int.natCast_pos.mpr (Nat.two_pow_pos bits)
      simp only [readWord, reduce, if_true, BitVec.toNat_ofInt]
      exact Int.toNat_of_nonneg (Int.emod_nonneg _ (Int.ne_of_gt positive))
  | false => exact BitVec.toInt_ofInt ..

@[simp]
theorem ofInt_readWord (isUnsigned : Bool) (word : BitVec bits) :
    BitVec.ofInt bits (readWord isUnsigned word) = word := by
  cases isUnsigned <;> simp [readWord]

/-- Words are read alike with sign or without, up to the width. -/
theorem ofInt_reduce (isUnsigned : Bool) (bits : Nat) (number : Int) :
    BitVec.ofInt bits (reduce isUnsigned bits number) = BitVec.ofInt bits number := by
  rw [← readWord_ofInt, ofInt_readWord]

theorem fits_readWord (isUnsigned : Bool) (word : BitVec bits) :
    Fits isUnsigned bits (readWord isUnsigned word) := by
  cases isUnsigned with
  | true =>
      have small : (word.toNat : Int) < (2 ^ bits : Nat) := Int.ofNat_lt.mpr word.isLt
      exact ⟨Int.natCast_nonneg _, by rwa [Int.natCast_pow] at small⟩
  | false => exact ⟨word.le_toInt, word.toInt_lt⟩

/-- A wider word holds what a narrower one holds. -/
theorem Fits.mono {isUnsigned : Bool} {wider : Nat} (fits : Fits isUnsigned bits number)
    (le : bits ≤ wider) : Fits isUnsigned wider number := by
  have powers {low high : Nat} (le : low ≤ high) : Int.pow 2 low ≤ Int.pow 2 high := by
    have natural : ((2 ^ low : Nat) : Int) ≤ (2 ^ high : Nat) :=
      Int.ofNat_le.mpr (Nat.pow_le_pow_right (by decide) le)
    rwa [Int.natCast_pow, Int.natCast_pow] at natural
  cases isUnsigned with
  | true => exact ⟨fits.1, Int.lt_of_lt_of_le fits.2 (powers le)⟩
  | false =>
      have bound := powers (Nat.sub_le_sub_right le 1)
      exact ⟨Int.le_trans (Int.neg_le_neg bound) fits.1, Int.lt_of_lt_of_le fits.2 bound⟩

theorem fits_reduce (isUnsigned : Bool) (bits : Nat) (number : Int) :
    Fits isUnsigned bits (reduce isUnsigned bits number) :=
  readWord_ofInt isUnsigned number ▸ fits_readWord isUnsigned _

/-- A number that a width holds stays as it is. -/
theorem reduce_of_fits {isUnsigned : Bool} (positive : 0 < bits)
    (fits : Fits isUnsigned bits number) : reduce isUnsigned bits number = number := by
  cases isUnsigned with
  | true => exact Int.emod_eq_of_lt fits.1 fits.2
  | false =>
      rw [← readWord_ofInt]
      exact BitVec.toInt_ofInt_eq_self positive fits.1 fits.2

/-- What a wider word keeps of a number is enough for a narrower one. -/
theorem reduce_reduce_of_le {wider : Nat} (isUnsigned signed : Bool) (le : bits ≤ wider)
    (number : Int) :
    reduce isUnsigned bits (reduce signed wider number) = reduce isUnsigned bits number := by
  have divides : Nat.pow 2 bits ∣ Nat.pow 2 wider := Nat.pow_dvd_pow 2 le
  have kept := Int.emod_emod_of_dvd number (Int.natCast_dvd_natCast.mpr divides)
  cases isUnsigned <;> cases signed
  · exact Int.bmod_bmod_of_dvd divides
  · calc (number % Nat.pow 2 wider).bmod (Nat.pow 2 bits)
        = (number % Nat.pow 2 wider % Nat.pow 2 bits).bmod (Nat.pow 2 bits) :=
          (Int.emod_bmod ..).symm
      _ = number.bmod (Nat.pow 2 bits) := by rw [kept, Int.emod_bmod]
  · calc number.bmod (Nat.pow 2 wider) % Nat.pow 2 bits
        = number.bmod (Nat.pow 2 wider) % Nat.pow 2 wider % Nat.pow 2 bits :=
          (Int.emod_emod_of_dvd _ (Int.natCast_dvd_natCast.mpr divides)).symm
      _ = number % Nat.pow 2 bits := by rw [Int.bmod_emod, kept]
  · exact kept

end Widths

/-! ## Kinds of integers -/

inductive IntegerKind
  | int32
  | int64
  | nativeInt
deriving DecidableEq, Repr

namespace IntegerKind

def width : IntegerKind → Nat
  | int32 => 32
  | int64 | nativeInt => 64

/-- The value of the kind that has a given word. -/
def ofWord : (kind : IntegerKind) → BitVec kind.width → Value
  | int32, word => .int32 (.ofBitVec word)
  | int64, word => .int64 (.ofBitVec word)
  | nativeInt, word => .nativeInt (.ofBitVec word)

/-- The value of the kind that stands for a number, modulo the width of the kind. -/
def value (kind : IntegerKind) (number : Int) : Value :=
  kind.ofWord (.ofInt kind.width number)

/-- The number that a word of the kind stands for, with sign or without, if it stands for a
given number with sign. -/
def read (kind : IntegerKind) (isUnsigned : Bool) (number : Int) : Int :=
  reduce isUnsigned kind.width number

/-- The kind in which integers of two kinds meet: a 32-bit integer takes on the kind of the
other, and 64-bit integers do not meet native ones. -/
def meet? : IntegerKind → IntegerKind → Option IntegerKind
  | int32, kind | kind, int32 => some kind
  | int64, int64 => some int64
  | nativeInt, nativeInt => some nativeInt
  | int64, nativeInt | nativeInt, int64 => none

theorem width_pos (kind : IntegerKind) : 0 < kind.width := by
  cases kind <;> decide

end IntegerKind

/-- The kind of an integer value, and the number that its word stands for with sign. -/
def Value.integer? : Value → Option (IntegerKind × Int)
  | .int32 word => some (.int32, word.toInt)
  | .int64 word => some (.int64, word.toInt)
  | .nativeInt word => some (.nativeInt, word.toInt)
  | _ => none

section Kinds

variable {kind : IntegerKind} {number : Int} {value : Value}

theorem read_eq (kind : IntegerKind) (isUnsigned : Bool) (number : Int) :
    kind.read isUnsigned number = readWord isUnsigned (BitVec.ofInt kind.width number) :=
  (readWord_ofInt isUnsigned number).symm

theorem integer?_ofWord (word : BitVec kind.width) :
    (kind.ofWord word).integer? = some (kind, word.toInt) := by
  cases kind <;> rfl

theorem integer?_value (kind : IntegerKind) (number : Int) :
    (kind.value number).integer? = some (kind, reduce false kind.width number) := by
  rw [IntegerKind.value, integer?_ofWord, ← readWord_ofInt]
  rfl

/-- An integer value is the value of its kind for its number. -/
theorem eq_value_of_integer? (isInteger : value.integer? = some (kind, number)) :
    value = kind.value number ∧ Fits false kind.width number := by
  obtain ⟨word, rfl, rfl⟩ : ∃ word : BitVec kind.width,
      value = kind.ofWord word ∧ number = word.toInt := by
    cases value with
    | int32 word | int64 word | nativeInt word =>
        cases isInteger
        exact ⟨word.toBitVec, rfl, rfl⟩
    | _ => cases isInteger
  exact ⟨by rw [IntegerKind.value, BitVec.ofInt_toInt], fits_readWord false word⟩

theorem isFloat_of_integer? (isInteger : value.integer? = some (kind, number)) :
    value.isFloat = false := by
  obtain ⟨rfl, _⟩ := eq_value_of_integer? isInteger
  cases kind <;> rfl

end Kinds

end Cil
