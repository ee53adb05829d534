import Cil.Proofs.Machine.Integers

/-!
# Integer arithmetic

Two integers meet at a common width, where an operation works on their words.  Sums,
differences and products are exact modulo the width, and their checked forms give the exact
result or none.  Quotients are rounded toward zero, and a remainder is what they leave.
-/

namespace Cil

/-- The operations that come in a wrapping form and in checked ones. -/
inductive RingOp
  | sum
  | difference
  | product
deriving DecidableEq, Repr

namespace RingOp

/-- The result without bounds. -/
def exact : RingOp → Int → Int → Int
  | sum, a, b => a + b
  | difference, a, b => a - b
  | product, a, b => a * b

def wrapping : RingOp → BinaryOp
  | sum => .add
  | difference => .sub
  | product => .mul

def checked (isUnsigned : Bool) : RingOp → BinaryOp
  | sum => if isUnsigned then .addOvfUn else .addOvf
  | difference => if isUnsigned then .subOvfUn else .subOvf
  | product => if isUnsigned then .mulOvfUn else .mulOvf

end RingOp

namespace BinaryOp

def quotient (isUnsigned : Bool) : BinaryOp :=
  if isUnsigned then .divUn else .div

def remainder (isUnsigned : Bool) : BinaryOp :=
  if isUnsigned then .remUn else .rem

end BinaryOp

/-- Division with a quotient that is rounded toward zero. -/
structure Divides (dividend divisor quotient remainder : Int) : Prop where
  sum : dividend = quotient * divisor + remainder
  small : remainder.natAbs < divisor.natAbs
  /-- The remainder has the sign of the dividend. -/
  sign : 0 ≤ remainder * dividend

theorem divides_tdiv_tmod {a b : Int} (nonzero : b ≠ 0) : Divides a b (a.tdiv b) (a.tmod b) where
  sum := (Int.tdiv_mul_add_tmod a b).symm
  small := by
    rw [Int.natAbs_tmod]
    exact Nat.mod_lt _ (Int.natAbs_pos.mpr nonzero)
  sign := by
    rcases Int.le_total 0 a with positive | negative
    · exact Int.mul_nonneg (Int.tmod_nonneg b positive) positive
    · have opposite := Int.tmod_nonneg b (Int.neg_nonneg_of_nonpos negative)
      rw [Int.neg_tmod] at opposite
      exact Int.mul_nonneg_of_nonpos_of_nonpos (Int.nonpos_of_neg_nonneg opposite) negative

/-! ## Operations on words -/

section Words

variable {width : Nat} {isUnsigned : Bool}

namespace RingOp

def onWords : RingOp → BitVec width → BitVec width → BitVec width
  | sum, a, b => a + b
  | difference, a, b => a - b
  | product, a, b => a * b

def overflows (isUnsigned : Bool) : RingOp → BitVec width → BitVec width → Bool
  | sum => if isUnsigned then BitVec.uaddOverflow else BitVec.saddOverflow
  | difference => if isUnsigned then BitVec.usubOverflow else BitVec.ssubOverflow
  | product => if isUnsigned then BitVec.umulOverflow else BitVec.smulOverflow

theorem onWords_ofInt (op : RingOp) (a b : Int) :
    op.onWords (BitVec.ofInt width a) (BitVec.ofInt width b) =
      BitVec.ofInt width (op.exact a b) := by
  cases op with
  | sum => exact (BitVec.ofInt_add a b).symm
  | difference =>
      simp only [onWords, exact, Int.sub_eq_add_neg, BitVec.ofInt_add, BitVec.ofInt_neg,
        BitVec.sub_eq_add_neg]
  | product => exact (BitVec.ofInt_mul a b).symm

private theorem fits_signed_iff (number : Int) :
    (decide (number ≥ Int.pow 2 (width - 1)) || decide (number < -Int.pow 2 (width - 1))) = false ↔
      Fits false width number := by
  have bounds : Fits false width number ↔
      -Int.pow 2 (width - 1) ≤ number ∧ number < Int.pow 2 (width - 1) := Iff.rfl
  rw [bounds, Bool.or_eq_false_iff, decide_eq_false_iff_not, decide_eq_false_iff_not]
  omega

private theorem fits_natCast_iff (number : Nat) :
    decide (number ≥ Nat.pow 2 width) = false ↔ Fits true width number := by
  have bounds : Fits true width number ↔
      0 ≤ (number : Int) ∧ (number : Int) < (Nat.pow 2 width : Nat) := by
    have same : ((Nat.pow 2 width : Nat) : Int) = Int.pow 2 width := Int.natCast_pow 2 width
    rw [same]
    rfl
  rw [bounds, decide_eq_false_iff_not]
  omega

theorem onWords_eq (op : RingOp) (isUnsigned : Bool) (a b : BitVec width) :
    op.onWords a b =
      BitVec.ofInt width (op.exact (readWord isUnsigned a) (readWord isUnsigned b)) := by
  rw [← onWords_ofInt, ofInt_readWord, ofInt_readWord]

/-- An operation overflows where the width does not hold the exact result. -/
theorem overflows_eq_false_iff (op : RingOp) (isUnsigned : Bool) (a b : BitVec width) :
    op.overflows isUnsigned a b = false ↔
      Fits isUnsigned width (op.exact (readWord isUnsigned a) (readWord isUnsigned b)) := by
  cases isUnsigned with
  | false => cases op <;> exact fits_signed_iff _
  | true =>
      cases op with
      | sum => exact fits_natCast_iff (a.toNat + b.toNat)
      | product => exact fits_natCast_iff (a.toNat * b.toNat)
      | difference =>
          have aSmall := (fits_readWord true a).2
          have bounds : Fits true width (exact difference (readWord true a) (readWord true b)) ↔
              0 ≤ readWord true a - readWord true b ∧
                readWord true a - readWord true b < Int.pow 2 width := Iff.rfl
          have order : overflows true difference a b = decide (a.toNat < b.toNat) := rfl
          rw [bounds, order, decide_eq_false_iff_not]
          simp only [readWord, if_true] at aSmall ⊢
          omega

theorem onWords_wrapping (op : RingOp) (a b : BitVec width) :
    op.wrapping.onWords a b = .ok (op.onWords a b) := by
  cases op <;> rfl

theorem onWords_checked (op : RingOp) (a b : BitVec width) :
    (op.checked isUnsigned).onWords a b =
      if op.overflows isUnsigned a b then .error .overflow else .ok (op.onWords a b) := by
  cases op <;> cases isUnsigned <;> rfl

end RingOp

namespace BinaryOp

theorem onWords_quotient (a b : BitVec width) :
    (quotient isUnsigned).onWords a b =
      if b = 0 then .error .divideByZero
      else if isUnsigned then .ok (a.udiv b)
      else if BitVec.sdivOverflow a b then .error .overflow else .ok (a.sdiv b) := by
  cases isUnsigned <;> rfl

theorem onWords_remainder (a b : BitVec width) :
    (remainder isUnsigned).onWords a b =
      if b = 0 then .error .divideByZero
      else .ok (if isUnsigned then a.umod b else a.srem b) := by
  cases isUnsigned <;> rfl

theorem quotient_divideByZero_iff (a b : BitVec width) :
    (quotient isUnsigned).onWords a b = .error .divideByZero ↔ b = 0 := by
  rw [onWords_quotient]
  by_cases zero : b = 0
  · simp only [zero, if_true]
  · cases isUnsigned <;> cases BitVec.sdivOverflow a b <;> simp_all

theorem remainder_divideByZero_iff (a b : BitVec width) :
    (remainder isUnsigned).onWords a b = .error .divideByZero ↔ b = 0 := by
  rw [onWords_remainder]
  split <;> simp_all

/-- The one quotient that the width does not hold. -/
theorem sdivOverflow_iff (positive : 0 < width) (a b : BitVec width) :
    BitVec.sdivOverflow a b = true ↔ a.toInt = -Int.pow 2 (width - 1) ∧ b.toInt = -1 := by
  have least : (BitVec.intMin width).toInt = -Int.pow 2 (width - 1) :=
    BitVec.toInt_intMin_of_pos positive
  have ones : (BitVec.allOnes width).toInt = -1 := by
    rw [BitVec.toInt_allOnes, if_pos positive]
  rw [BitVec.sdivOverflow_eq, ← least, ← ones, BitVec.toInt_inj, BitVec.toInt_inj]
  simp [positive]

theorem readWord_udiv (a b : BitVec width) :
    readWord true (a.udiv b) = (readWord true a).tdiv (readWord true b) := by
  simp only [readWord, if_true, BitVec.udiv_eq, BitVec.toNat_udiv, Int.ofNat_tdiv]

theorem readWord_umod (a b : BitVec width) :
    readWord true (a.umod b) = (readWord true a).tmod (readWord true b) := by
  simp only [readWord, if_true, BitVec.umod_eq, BitVec.toNat_umod, Int.ofNat_tmod]

theorem readWord_sdiv (positive : 0 < width) {a b : BitVec width}
    (fits : BitVec.sdivOverflow a b = false) :
    readWord false (a.sdiv b) = (readWord false a).tdiv (readWord false b) := by
  refine BitVec.toInt_sdiv_of_ne_or_ne a b ?_
  rw [BitVec.sdivOverflow_eq] at fits
  simp only [positive, decide_true, Bool.true_and, Bool.and_eq_false_iff,
    decide_eq_false_iff_not] at fits
  rwa [BitVec.neg_one_eq_allOnes]

end BinaryOp

end Words

/-! ## Operations on values -/

/-- What the operations make of two integers of a kind that stand for the numbers `a` and
`b`. -/
structure ExactArithmetic (kind : IntegerKind) (a b : Int)
    (result : BinaryOp → Except Fault Value) : Prop where
  integer : ∀ {op value}, result op = .ok value → ∃ number, value.integer? = some (kind, number)
  read_signed : kind.read false a = a ∧ kind.read false b = b
  wrapping : ∀ op : RingOp, result op.wrapping = .ok (kind.value (op.exact a b))
  checked : ∀ (op : RingOp) (isUnsigned : Bool),
    let exact := op.exact (kind.read isUnsigned a) (kind.read isUnsigned b)
    result (op.checked isUnsigned) =
      if Fits isUnsigned kind.width exact then .ok (kind.value exact) else .error .overflow
  zero_divisor : ∀ isUnsigned,
    (result (.quotient isUnsigned) = .error .divideByZero ↔ b = 0) ∧
      (result (.remainder isUnsigned) = .error .divideByZero ↔ b = 0)
  division : ∀ isUnsigned, b ≠ 0 →
    (isUnsigned = false → ¬(a = -Int.pow 2 (kind.width - 1) ∧ b = -1)) →
    ∃ quotient remainder : Int,
      Divides (kind.read isUnsigned a) (kind.read isUnsigned b) quotient remainder ∧
      Fits isUnsigned kind.width quotient ∧ Fits isUnsigned kind.width remainder ∧
      result (.quotient isUnsigned) = .ok (kind.value quotient) ∧
      result (.remainder isUnsigned) = .ok (kind.value remainder)
  /-- The least number has no opposite. -/
  least_dividend : a = -Int.pow 2 (kind.width - 1) → b = -1 →
    result .div = .error .overflow ∧ result .rem = .ok (kind.value 0)

section Values

variable {kind : IntegerKind} {isUnsigned : Bool}

theorem map_eq_error {α β : Type} {step : α → β} {outcome : Except Fault α} {fault : Fault} :
    outcome.map step = .error fault ↔ outcome = .error fault := by
  cases outcome <;> simp [Except.map]

theorem map_ofWord_ok {outcome : Except Fault (BitVec kind.width)} {value : Value}
    (ok : outcome.map kind.ofWord = .ok value) :
    ∃ number, value.integer? = some (kind, number) := by
  cases outcome with
  | error fault => cases ok
  | ok word =>
      cases ok
      exact ⟨_, integer?_ofWord word⟩

theorem ofWord_eq_value (isUnsigned : Bool) (word : BitVec kind.width) :
    kind.ofWord word = kind.value (readWord isUnsigned word) := by
  rw [IntegerKind.value, ofInt_readWord]

variable {a b : Int}

theorem toInt_ofInt_of_fits (fits : Fits false kind.width a) :
    (BitVec.ofInt kind.width a).toInt = a :=
  BitVec.toInt_ofInt_eq_self kind.width_pos fits.1 fits.2

theorem ofInt_eq_zero_iff (fits : Fits false kind.width b) :
    BitVec.ofInt kind.width b = 0 ↔ b = 0 := by
  rw [← BitVec.toInt_inj, toInt_ofInt_of_fits fits]
  exact iff_of_eq (congrArg (b = ·) BitVec.toInt_zero)

theorem sdivOverflow_ofInt_iff (aFits : Fits false kind.width a)
    (bFits : Fits false kind.width b) :
    BitVec.sdivOverflow (BitVec.ofInt kind.width a) (BitVec.ofInt kind.width b) = true ↔
      a = -Int.pow 2 (kind.width - 1) ∧ b = -1 := by
  rw [BinaryOp.sdivOverflow_iff kind.width_pos, toInt_ofInt_of_fits aFits,
    toInt_ofInt_of_fits bFits]

theorem quotient_cases (aFits : Fits false kind.width a) (bFits : Fits false kind.width b)
    (nonzero : b ≠ 0)
    (fits : isUnsigned = false → ¬(a = -Int.pow 2 (kind.width - 1) ∧ b = -1)) :
    ∃ quotient remainder : BitVec kind.width,
      readWord isUnsigned quotient =
        (kind.read isUnsigned a).tdiv (kind.read isUnsigned b) ∧
      readWord isUnsigned remainder =
        (kind.read isUnsigned a).tmod (kind.read isUnsigned b) ∧
      (BinaryOp.quotient isUnsigned).onWords (BitVec.ofInt kind.width a)
        (BitVec.ofInt kind.width b) = .ok quotient ∧
      (BinaryOp.remainder isUnsigned).onWords (BitVec.ofInt kind.width a)
        (BitVec.ofInt kind.width b) = .ok remainder := by
  simp only [read_eq, BinaryOp.onWords_quotient, BinaryOp.onWords_remainder,
    if_neg (mt (ofInt_eq_zero_iff bFits).mp nonzero)]
  cases isUnsigned with
  | true => exact ⟨_, _, BinaryOp.readWord_udiv _ _, BinaryOp.readWord_umod _ _, rfl, rfl⟩
  | false =>
      have inRange : BitVec.sdivOverflow (BitVec.ofInt kind.width a)
          (BitVec.ofInt kind.width b) = false :=
        Bool.eq_false_iff.mpr (mt (sdivOverflow_ofInt_iff aFits bFits).mp (fits rfl))
      exact ⟨_, _, BinaryOp.readWord_sdiv kind.width_pos inRange, BitVec.toInt_srem _ _,
        by rw [inRange]; rfl, rfl⟩

/-- The laws hold of what the operations make of the words of two numbers. -/
theorem exactArithmetic_onWords (aFits : Fits false kind.width a)
    (bFits : Fits false kind.width b) :
    ExactArithmetic kind a b fun op =>
      (op.onWords (BitVec.ofInt kind.width a) (BitVec.ofInt kind.width b)).map kind.ofWord where
  integer := map_ofWord_ok
  read_signed :=
    ⟨reduce_of_fits kind.width_pos aFits, reduce_of_fits kind.width_pos bFits⟩
  wrapping op := by
    rw [RingOp.onWords_wrapping, RingOp.onWords_ofInt]
    rfl
  checked op isUnsigned := by
    dsimp only
    rw [read_eq, read_eq, RingOp.onWords_checked]
    have inRange := op.overflows_eq_false_iff isUnsigned
      (BitVec.ofInt kind.width a) (BitVec.ofInt kind.width b)
    cases overflows : op.overflows isUnsigned (BitVec.ofInt kind.width a)
        (BitVec.ofInt kind.width b) with
    | true =>
        rw [overflows] at inRange
        rw [if_neg (mt inRange.mpr Bool.noConfusion)]
        rfl
    | false =>
        rw [if_pos (inRange.mp overflows), op.onWords_eq isUnsigned]
        rfl
  zero_divisor isUnsigned := by
    rw [map_eq_error, map_eq_error, ← ofInt_eq_zero_iff bFits]
    exact ⟨BinaryOp.quotient_divideByZero_iff _ _, BinaryOp.remainder_divideByZero_iff _ _⟩
  division isUnsigned nonzero fits := by
    obtain ⟨quotient, remainder, quotientEq, remainderEq, divides, leaves⟩ :=
      quotient_cases aFits bFits nonzero fits
    refine ⟨_, _, divides_tdiv_tmod ?_, quotientEq ▸ fits_readWord isUnsigned quotient,
      remainderEq ▸ fits_readWord isUnsigned remainder, ?_, ?_⟩
    · intro zero
      have word := ofInt_reduce isUnsigned kind.width b
      rw [show reduce isUnsigned kind.width b = 0 from zero] at word
      exact nonzero ((ofInt_eq_zero_iff bFits).mp word.symm)
    · rw [divides, ← quotientEq, ← ofWord_eq_value]
      rfl
    · rw [leaves, ← remainderEq, ← ofWord_eq_value]
      rfl
  least_dividend aLeast bOpposite := by
    have nonzero : BitVec.ofInt kind.width b ≠ 0 :=
      mt (ofInt_eq_zero_iff bFits).mp (by omega)
    have overflows := (sdivOverflow_ofInt_iff aFits bFits).mpr ⟨aLeast, bOpposite⟩
    have leaves : (BitVec.ofInt kind.width a).srem (BitVec.ofInt kind.width b) = 0 := by
      rw [← BitVec.toInt_inj, BitVec.toInt_srem, toInt_ofInt_of_fits bFits, bOpposite,
        Int.tmod_neg, Int.tmod_one]
      exact BitVec.toInt_zero.symm
    refine ⟨?_, ?_⟩
    · rw [show BinaryOp.div = .quotient false from rfl, BinaryOp.onWords_quotient,
        if_neg nonzero, overflows]
      rfl
    · rw [show BinaryOp.rem = .remainder false from rfl, BinaryOp.onWords_remainder,
        if_neg nonzero, leaves]
      rfl

end Values

section Pairs

variable {left right : Value} {leftKind rightKind kind : IntegerKind} {a b : Int}

/-- Two words of a kind. -/
def IntegerPair.ofWords : (kind : IntegerKind) → (a b : BitVec kind.width) → IntegerPair
  | .int32, a, b => .int32 (.ofBitVec a) (.ofBitVec b)
  | .int64, a, b => .int64 (.ofBitVec a) (.ofBitVec b)
  | .nativeInt, a, b => .nativeInt (.ofBitVec a) (.ofBitVec b)

theorem IntegerPair.binary_ofWords (kind : IntegerKind) (op : BinaryOp)
    (a b : BitVec kind.width) :
    (ofWords kind a b).binary op = (op.onWords a b).map kind.ofWord := by
  cases kind <;> rfl

theorem toInt64_ofInt (fits : Fits false 32 a) :
    (Int32.ofBitVec (.ofInt 32 a)).toInt64 = .ofBitVec (.ofInt 64 a) := by
  have extended : (Int32.ofBitVec (.ofInt 32 a)).toInt64 =
      .ofBitVec (.ofInt 64 (BitVec.ofInt 32 a).toInt) := rfl
  rw [extended, BitVec.toInt_ofInt_eq_self (by decide) fits.1 fits.2]

/-- A 32-bit integer is extended with its sign to the width of the other. -/
theorem IntegerPair.of?_of_integer? (isLeft : left.integer? = some (leftKind, a))
    (isRight : right.integer? = some (rightKind, b)) :
    of? left right =
      (leftKind.meet? rightKind).map fun kind =>
        ofWords kind (.ofInt kind.width a) (.ofInt kind.width b) := by
  obtain ⟨rfl, aFits⟩ := eq_value_of_integer? isLeft
  obtain ⟨rfl, bFits⟩ := eq_value_of_integer? isRight
  cases leftKind with
  | int32 =>
      cases rightKind with
      | int32 => rfl
      | int64 => exact congrArg (fun word => some (int64 word _)) (toInt64_ofInt aFits)
      | nativeInt => exact congrArg (fun word => some (nativeInt word _)) (toInt64_ofInt aFits)
  | int64 =>
      cases rightKind with
      | int32 => exact congrArg (fun word => some (int64 _ word)) (toInt64_ofInt bFits)
      | int64 | nativeInt => rfl
  | nativeInt =>
      cases rightKind with
      | int32 => exact congrArg (fun word => some (nativeInt _ word)) (toInt64_ofInt bFits)
      | int64 | nativeInt => rfl

theorem width_le_of_meet? (meets : leftKind.meet? rightKind = some kind) :
    leftKind.width ≤ kind.width ∧ rightKind.width ≤ kind.width := by
  revert meets
  cases leftKind <;> cases rightKind <;> cases kind <;> decide

/-- The operations on two integers are exact where they meet, and 64-bit integers do not meet
native ones. -/
theorem Value.binary_exact (isLeft : left.integer? = some (leftKind, a))
    (isRight : right.integer? = some (rightKind, b)) :
    match leftKind.meet? rightKind with
    | some kind => ExactArithmetic kind a b (Value.binary · left right)
    | none => ∀ op, ∃ complaint, left.binary op right = .error (.mismatch complaint) := by
  have pair := IntegerPair.of?_of_integer? isLeft isRight
  cases meets : leftKind.meet? rightKind with
  | none =>
      rw [meets] at pair
      intro op
      unfold Value.binary
      simp only [pair, Option.map_none, isFloat_of_integer? isLeft, isFloat_of_integer? isRight,
        Bool.or_self]
      exact ⟨_, rfl⟩
  | some kind =>
      rw [meets] at pair
      have onWords (op : BinaryOp) : left.binary op right =
          (op.onWords (BitVec.ofInt kind.width a) (BitVec.ofInt kind.width b)).map
            kind.ofWord := by
        unfold Value.binary
        simp only [pair, Option.map_some, IntegerPair.binary_ofWords]
      obtain ⟨leftWidth, rightWidth⟩ := width_le_of_meet? meets
      have laws := exactArithmetic_onWords
        (Fits.mono (eq_value_of_integer? isLeft).2 leftWidth)
        (Fits.mono (eq_value_of_integer? isRight).2 rightWidth)
      exact (funext onWords : (Value.binary · left right) = _) ▸ laws

end Pairs

namespace Opposites

/-- The least 32-bit integer. -/
def least : Value := .int32 (-0x80000000)

/-- The least 32-bit integer has an opposite among the native integers only. -/
theorem opposite_of_least :
    least.integer? = some (.int32, -0x80000000) ∧
      least.binary .div (.int32 (-1)) = .error .overflow ∧
      least.binary .div (.nativeInt (-1)) = .ok (.nativeInt 0x80000000) ∧
      least.binary .mulOvfUn (.nativeInt (-1)) = .error .overflow := by
  have isLeast : least.integer? = some (.int32, -0x80000000) := rfl
  have narrow : ExactArithmetic .int32 (-0x80000000) (-1) (least.binary · (.int32 (-1))) :=
    Value.binary_exact isLeast rfl
  have wide : ExactArithmetic .nativeInt (-0x80000000) (-1)
      (least.binary · (.nativeInt (-1))) :=
    Value.binary_exact isLeast rfl
  obtain ⟨quotient, remainder, divides, _, _, quotientEq, _⟩ :=
    wide.division false (by decide) (fun _ => by decide)
  rw [wide.read_signed.1, wide.read_signed.2] at divides
  obtain rfl : quotient = 0x80000000 := by
    have sum := divides.sum
    have small := divides.small
    omega
  exact ⟨isLeast, (narrow.least_dividend rfl rfl).1, quotientEq, wide.checked .product true⟩

end Opposites

end Cil
