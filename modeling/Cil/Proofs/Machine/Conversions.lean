import Cil.Machine.Conversion
import Cil.Proofs.Machine.Integers
import Cil.Proofs.Number.Truncation

/-!
# Exact conversions to integers

A conversion to an integer type is given a number: that of an integer, read with sign or
without, or a floating point number without its fraction.  A checked conversion keeps the
number or overflows, but for one number next to the 64-bit range that passes the check.  An
unchecked one keeps what the type holds of an integer.
-/

namespace Cil

namespace NumberType

/-- The kind of the integers that a conversion to an integer type produces. -/
def kind : NumberType → IntegerKind
  | int64 | uint64 => .int64
  | nativeInt | nativeUInt => .nativeInt
  | _ => .int32

/-- The least number above the range of an integer type. -/
def leastAbove (type : NumberType) (bits : Nat) : Int :=
  Int.pow 2 (if type.isUnsigned then bits else bits - 1)

section Ranges

variable {type : NumberType} {bits : Nat} {number : Int}

theorem bits_le_width (integral : type.bits? = some bits) : bits ≤ type.kind.width := by
  revert integral
  cases type <;> simp +decide [bits?, kind, IntegerKind.width] <;> omega

theorem bits_pos (integral : type.bits? = some bits) : 0 < bits := by
  revert integral
  cases type <;> simp [bits?] <;> omega

theorem range?_eq (integral : type.bits? = some bits) :
    type.range? = some (if type.isUnsigned then (0, type.leastAbove bits - 1)
      else (-type.leastAbove bits, type.leastAbove bits - 1)) := by
  rw [range?, integral, Option.map_some, leastAbove]
  cases type.isUnsigned <;> rfl

theorem fits_iff :
    Fits type.isUnsigned bits number ↔
      (if type.isUnsigned then 0 else -type.leastAbove bits) ≤ number ∧
        number < type.leastAbove bits := by
  rw [Fits, leastAbove]
  cases type.isUnsigned <;> rfl

theorem not_fits_leastAbove : ¬Fits type.isUnsigned bits (type.leastAbove bits) :=
  fun fits => Int.lt_irrefl _ (fits_iff.mp fits).2

theorem holds_iff (integral : type.bits? = some bits) :
    type.holds number ↔ Fits type.isUnsigned bits number := by
  rw [holds, range?_eq integral, fits_iff]
  cases type.isUnsigned <;>
    simp only [Bool.false_eq_true, if_true, if_false, Bool.and_eq_true, decide_eq_true_eq] <;>
    omega

/-- The check of a truncated number lets the least number above a 64-bit range pass. -/
theorem holdsTruncated_iff (integral : type.bits? = some bits) :
    type.holdsTruncated number ↔
      Fits type.isUnsigned bits number ∨ bits = 64 ∧ number = type.leastAbove bits := by
  have positive : 0 < type.leastAbove bits := Int.pow_pos (by decide)
  rw [holdsTruncated, range?_eq integral, integral, fits_iff]
  by_cases wide : bits = 64 <;> cases type.isUnsigned <;>
    simp only [wide, Bool.false_eq_true, if_true, if_false, Bool.and_eq_true, decide_eq_true_eq,
      true_and, false_and, or_false] at positive ⊢ <;>
    omega

/-- A number is reduced to the type and then extended, with sign or with zeros. -/
theorem wrap_eq (integral : type.bits? = some bits) (number : Int) :
    type.wrap number = type.kind.value (reduce type.isUnsigned bits number) := by
  cases type with
  | int8 | int16 =>
      cases integral
      exact congrArg IntegerKind.int32.value (readWord_ofInt false number)
  | uint8 | uint16 =>
      cases integral
      rfl
  | int32 | uint32 =>
      cases integral
      exact congrArg IntegerKind.int32.ofWord (ofInt_reduce _ 32 number).symm
  | int64 | uint64 =>
      cases integral
      exact congrArg IntegerKind.int64.ofWord (ofInt_reduce _ 64 number).symm
  | nativeInt | nativeUInt =>
      cases integral
      exact congrArg IntegerKind.nativeInt.ofWord (ofInt_reduce _ 64 number).symm
  | float32 | float64 | real => cases integral

/-- A number of the whole width of its kind needs no reduction. -/
theorem value_reduce (integral : type.bits? = some 64) (number : Int) :
    type.kind.value (reduce type.isUnsigned 64 number) = type.kind.value number := by
  rw [← wrap_eq integral]
  cases type with
  | int64 | uint64 | nativeInt | nativeUInt => rfl
  | _ => cases integral

end Ranges

end NumberType

/-- The number that an integer value stands for at a width, with sign or without. -/
def Value.readAs? (isUnsigned : Bool) (bits : Nat) (value : Value) : Option Int :=
  value.integer?.map fun integer => reduce isUnsigned bits integer.2

def Value.isNumeric (value : Value) : Bool :=
  value.integer?.isSome || value.isFloat

/-- What fits a type reads back from the value of its kind. -/
theorem readAs?_value {type : NumberType} {bits : Nat} {number : Int}
    (integral : type.bits? = some bits) (fits : Fits type.isUnsigned bits number) :
    (type.kind.value number).readAs? type.isUnsigned bits = some number := by
  rw [Value.readAs?, integer?_value, Option.map_some,
    reduce_reduce_of_le _ _ (NumberType.bits_le_width integral),
    reduce_of_fits (NumberType.bits_pos integral) fits]

namespace Conversion

/-- Whether an integer of a kind is read without sign. -/
def readsUnsigned (conversion : Conversion) (kind : IntegerKind) : Bool :=
  conversion.fromUnsigned ||
    (!conversion.isChecked && kind == .int32 &&
      (conversion.target == .uint64 || conversion.target == .nativeUInt))

/-- The number that a numeric value gives to a conversion: an integer at its own width, and a
floating point number without its fraction.  NaN and infinities give none. -/
def source? (conversion : Conversion) : Value → Option Int
  | .float number => (Number.rational? number).map Number.towardZero
  | value => value.integer?.map fun (kind, number) =>
      kind.read (conversion.readsUnsigned kind) number

/-- What a conversion to an integer type makes of a value is exact. -/
structure Exact (conversion : Conversion) (bits : Nat) (value : Value) : Prop where
  overflow_iff : conversion.isChecked →
    (value.convert conversion = .error .overflow ↔
      ∀ number, conversion.source? value = some number →
        ¬Fits conversion.target.isUnsigned bits number)
  checked : conversion.isChecked → ∀ number, conversion.source? value = some number →
    Fits conversion.target.isUnsigned bits number →
    value.convert conversion = .ok (conversion.target.kind.value number) ∧
      (conversion.target.kind.value number).readAs? conversion.target.isUnsigned bits =
        some number
  unchecked : conversion.isChecked = false → value.integer?.isSome →
    ∃ number, conversion.source? value = some number ∧
      value.convert conversion =
        .ok (conversion.target.kind.value (reduce conversion.target.isUnsigned bits number))

/-- A floating point number that a checked conversion to a 64-bit type accepts, although its
integer part is one too large. -/
structure PassesAbove (conversion : Conversion) (bits : Nat) (value : Value) : Prop where
  isChecked : conversion.isChecked
  isFloat : value.isFloat
  wide : bits = 64
  source : conversion.source? value = some (conversion.target.leastAbove bits)

section Exactness

variable {conversion : Conversion} {bits : Nat} {value : Value} {kind : IntegerKind}
  {number : Int}

theorem source?_of_integer? (isInteger : value.integer? = some (kind, number)) :
    conversion.source? value = some (kind.read (conversion.readsUnsigned kind) number) := by
  cases value with
  | int32 word | int64 word | nativeInt word =>
      cases isInteger
      rfl
  | _ => cases isInteger

theorem convert_of_integer? (isInteger : value.integer? = some (kind, number)) :
    value.convert conversion =
      conversion.ofInteger (kind.read (conversion.readsUnsigned kind) number) := by
  cases value with
  | int32 word | int64 word | nativeInt word =>
      cases isInteger
      rw [read_eq, IntegerKind.width]
      simp [Value.convert, integer?, readsUnsigned, zeroExtends, readWord]
  | _ => cases isInteger

theorem ofInteger_checked (integral : conversion.target.bits? = some bits)
    (isChecked : conversion.isChecked) :
    conversion.ofInteger number =
      if Fits conversion.target.isUnsigned bits number then
        .ok (conversion.target.wrap number)
      else .error .overflow := by
  have holds : conversion.target.holds number ↔ _ := NumberType.holds_iff integral
  rw [ofInteger, isChecked, Bool.true_and]
  by_cases fits : Fits conversion.target.isUnsigned bits number
  · rw [if_pos fits, holds.mpr fits]
    rfl
  · rw [if_neg fits, Bool.eq_false_iff.mpr (mt holds.mp fits)]
    rfl

theorem ofFloat_checked (integral : conversion.target.bits? = some bits)
    (isChecked : conversion.isChecked) (number : Float) :
    conversion.ofFloat number =
      match Number.truncated? number with
      | some integer =>
        if conversion.target.holdsTruncated integer then .ok (conversion.target.wrap integer)
        else .error .overflow
      | none => .error .overflow := by
  unfold ofFloat
  cases target : conversion.target with
  | float32 | float64 | real =>
      rw [target] at integral
      cases integral
  | _ =>
      exact if_pos isChecked

/-- What a conversion accepts where it is checked. -/
def Accepts (conversion : Conversion) (bits : Nat) (value : Value) (number : Int) : Prop :=
  Fits conversion.target.isUnsigned bits number ∨
    value.isFloat ∧ bits = 64 ∧ number = conversion.target.leastAbove bits

theorem convert_checked (integral : conversion.target.bits? = some bits)
    (isChecked : conversion.isChecked) (numeric : value.isNumeric) :
    (∀ number, conversion.source? value = some number → Accepts conversion bits value number →
      value.convert conversion = .ok (conversion.target.wrap number)) ∧
    ((∀ number, conversion.source? value = some number →
      ¬Accepts conversion bits value number) → value.convert conversion = .error .overflow) := by
  cases isInteger : value.integer? with
  | some integer =>
      obtain ⟨kind, number⟩ := integer
      have noFloat : value.isFloat = false := isFloat_of_integer? isInteger
      simp only [source?_of_integer? isInteger, convert_of_integer? isInteger,
        ofInteger_checked integral isChecked, Accepts, noFloat, Option.some.injEq,
        Bool.false_eq_true, false_and, or_false, forall_eq']
      exact ⟨fun fits => if_pos fits, fun beyond => if_neg beyond⟩
  | none =>
      obtain ⟨number, rfl⟩ : ∃ number, value = .float number := by
        cases value with
        | float number => exact ⟨number, rfl⟩
        | _ => simp [Value.isNumeric, Value.isFloat, isInteger] at numeric
      have accepts (integer : Int) : Accepts conversion bits (.float number) integer ↔
          conversion.target.holdsTruncated integer := by
        rw [NumberType.holdsTruncated_iff integral]
        simp [Accepts, Value.isFloat]
      simp only [Value.convert, ofFloat_checked integral isChecked, source?,
        ← Number.truncated?_eq, accepts]
      cases Number.truncated? number with
      | none => simp
      | some integer =>
          simp only [Option.some.injEq, forall_eq']
          exact ⟨fun holds => if_pos holds, fun beyond => if_neg beyond⟩

theorem exact_of_not_passesAbove (integral : conversion.target.bits? = some bits)
    (numeric : value.isNumeric) (within : ¬PassesAbove conversion bits value) :
    Exact conversion bits value where
  overflow_iff isChecked := by
    obtain ⟨accepted, refused⟩ := convert_checked integral isChecked numeric
    refine ⟨fun overflows number source fits => ?_, fun beyond => refused ?_⟩
    · rw [accepted number source (.inl fits)] at overflows
      cases overflows
    · rintro number source (fits | ⟨isFloat, wide, above⟩)
      · exact beyond number source fits
      · exact within ⟨isChecked, isFloat, wide, above ▸ source⟩
  checked isChecked number source fits := by
    refine ⟨?_, readAs?_value integral fits⟩
    rw [(convert_checked integral isChecked numeric).1 number source (.inl fits),
      NumberType.wrap_eq integral, reduce_of_fits (NumberType.bits_pos integral) fits]
  unchecked isUnchecked isInteger := by
    obtain ⟨⟨kind, number⟩, isInteger⟩ := Option.isSome_iff_exists.mp isInteger
    refine ⟨_, source?_of_integer? isInteger, ?_⟩
    rw [convert_of_integer? isInteger, ofInteger, isUnchecked, NumberType.wrap_eq integral]
    rfl

/-- A conversion to an integer type is exact, but for a floating point number whose integer part
is the least number above a 64-bit range: where it is checked, it gives the value that this
number wraps to. -/
theorem exact_iff (integral : conversion.target.bits? = some bits)
    (numeric : value.isNumeric) :
    (Exact conversion bits value ↔ ¬PassesAbove conversion bits value) ∧
      (PassesAbove conversion bits value →
        value.convert conversion =
          .ok (conversion.target.kind.value (conversion.target.leastAbove bits))) := by
  have wraps (passes : PassesAbove conversion bits value) : value.convert conversion =
      .ok (conversion.target.kind.value (conversion.target.leastAbove bits)) := by
    obtain ⟨isChecked, isFloat, rfl, source⟩ := passes
    rw [(convert_checked integral isChecked numeric).1 _ source (.inr ⟨isFloat, rfl, rfl⟩),
      NumberType.wrap_eq integral, NumberType.value_reduce integral]
  refine ⟨⟨fun exactly passes => ?_, exact_of_not_passesAbove integral numeric⟩, wraps⟩
  have overflows := (exactly.overflow_iff passes.isChecked).mpr fun number source fits => by
    rw [passes.source, Option.some.injEq] at source
    exact NumberType.not_fits_leastAbove (source ▸ fits)
  rw [wraps passes] at overflows
  cases overflows

end Exactness

end Conversion

namespace LargeFloats

/-- The floating point number that stands for `2 ^ 63`. -/
def above : Float := .ofBits 0x43e0000000000000

/-- The floating point number next to it, toward zero. -/
def below : Float := .ofBits 0x43dfffffffffffff

def toInt64 : Conversion := { target := .int64, isChecked := true }

theorem source_above : toInt64.source? (.float above) = some 0x8000000000000000 := by
  rw [Conversion.source?, ← Number.truncated?_eq]
  decide

theorem source_below : toInt64.source? (.float below) = some 0x7ffffffffffffc00 := by
  rw [Conversion.source?, ← Number.truncated?_eq]
  decide

/-- The greatest floating point number of the range is converted as it is. -/
theorem below_converts_exactly :
    toInt64.target.bits? = some 64 ∧ (Value.float below).isNumeric ∧
      toInt64.Exact 64 (.float below) ∧
      (Value.float below).convert toInt64 = .ok (.int64 0x7ffffffffffffc00) := by
  have within : ¬toInt64.PassesAbove 64 (.float below) := fun passes => by
    have source := passes.source
    rw [source_below] at source
    exact absurd source (by decide)
  have exactly := (Conversion.exact_iff rfl rfl).1.mpr within
  exact ⟨rfl, rfl, exactly, (exactly.checked rfl _ source_below (by decide)).1⟩

/-- The number next to the range passes the check and wraps to the least integer. -/
theorem above_wraps :
    (Value.float above).convert toInt64 = .ok (.int64 (-0x8000000000000000)) ∧
      ¬toInt64.Exact 64 (.float above) := by
  have wraps : (Value.float above).convert toInt64 = .ok (.int64 (-0x8000000000000000)) := rfl
  refine ⟨wraps, fun exactly => ?_⟩
  have overflows := (exactly.overflow_iff rfl).mpr fun number source fits => by
    rw [source_above, Option.some.injEq] at source
    subst source
    revert fits
    decide
  rw [wraps] at overflows
  cases overflows

end LargeFloats

end Cil
