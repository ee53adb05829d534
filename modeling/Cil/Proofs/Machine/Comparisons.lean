import Cil.Machine.Action
import Cil.Proofs.Machine.IntegerArithmetic

/-!
# Comparisons

What the instructions that compare two values find out, and how their answers hang together:
those for exchanged operands, those of opposite conditions, and those that exclude each other.
All of this follows from the order of two values.  Numbers have one, up to NaN, and exchanging
the operands turns it around.  Identities are only equal or not, and exchanging the operands
keeps this, but for null and a function pointer: they can be compared in one order only.
-/

namespace Cil

/-- The condition that an instruction tests, if it compares two values. -/
def Opcode.condition? (opcode : Opcode) : Option Condition :=
  match opcode.action? with
  | some (.compare condition) | some (.jumpWhen condition) => some condition
  | _ => none

/-- Whether the condition holds of values in an order, or of values without one. -/
def Condition.accepts (condition : Condition) : Option Ordering → Bool
  | some order => condition.relation.allows order
  | none => condition.isUnsigned

theorem Relation.atLeast_allows (order : Ordering) :
    atLeast.allows order = !less.allows order := by
  cases order <;> rfl

theorem Relation.atMost_allows (order : Ordering) :
    atMost.allows order = !greater.allows order := by
  cases order <;> rfl

namespace Value

/-- What an instruction finds out about two values. -/
def Decides (left : Value) (opcode : Opcode) (right : Value) (truth : Bool) : Prop :=
  ∃ condition, opcode.condition? = some condition ∧ left.satisfy condition right = .ok truth

theorem satisfy_eq (condition : Condition) (left right : Value) :
    left.satisfy condition right =
      (compare condition.isUnsigned left right).map condition.accepts := by
  unfold satisfy
  rcases compare condition.isUnsigned left right with _ | _ | order <;> rfl

theorem decides_iff {opcode : Opcode} {condition : Condition}
    (tests : opcode.condition? = some condition) {left right : Value} {truth : Bool} :
    left.Decides opcode right truth ↔
      ∃ order?, compare condition.isUnsigned left right = .ok order? ∧
        condition.accepts order? = truth := by
  unfold Decides
  simp only [tests, Option.some.injEq, exists_eq_left', satisfy_eq]
  cases compare condition.isUnsigned left right <;> simp [Except.map]

end Value

/-! ## Numbers -/

section Floats

open Float.Model (UnpackedFloat)

theorem UnpackedFloat.compare_swap (a b : UnpackedFloat) :
    b.compare a = (a.compare b).map Ordering.swap := by
  have signs (s t : UnpackedFloat.Sign) : compare t s = (compare s t).swap := by
    cases s <;> cases t <;> rfl
  have sizes (m n : Nat) (p q : Int) : ((compare q p).then (compare n m)) =
      ((compare p q).then (compare m n)).swap := by
    rw [Ordering.swap_then, Int.compare_swap, Nat.compare_swap]
  cases a with
  | notANumber => cases b <;> rfl
  | infinity s =>
      cases b with
      | infinity t => exact congrArg some (signs s t)
      | _ => cases s <;> rfl
  | zero s =>
      cases b with
      | infinity t | finite t => cases t <;> rfl
      | _ => rfl
  | finite s m p =>
      cases b with
      | notANumber => rfl
      | infinity t => cases t <;> rfl
      | zero => cases s <;> rfl
      | finite t n q =>
          cases s <;> cases t
          · exact congrArg (fun order => some order.swap) (sizes m n p q)
          · rfl
          · rfl
          · exact congrArg some (sizes m n p q)

theorem compareFloats_eq (a b : Float) :
    compareFloats a b = a.toModel.unpack.compare b.toModel.unpack := by
  have less (x y : Float) : x < y ↔ x.toModel.unpack.compare y.toModel.unpack = some .lt := by
    change decide (x.toModel < y.toModel) = true ↔ _
    rw [decide_eq_true_iff]
    change x.toModel.unpack.lt y.toModel.unpack = true ↔ _
    exact beq_iff_eq
  have equal : a == b ↔ a.toModel.unpack.compare b.toModel.unpack = some .eq := by
    change a.toModel.unpack.beq b.toModel.unpack = true ↔ _
    exact beq_iff_eq
  unfold compareFloats
  simp only [less, equal, UnpackedFloat.compare_swap a.toModel.unpack]
  rcases a.toModel.unpack.compare b.toModel.unpack with _ | order
  · rfl
  · cases order <;> rfl

/-- The order of two floating point numbers turns around with them. -/
theorem compareFloats_swap (a b : Float) :
    compareFloats b a = (compareFloats a b).map Ordering.swap := by
  rw [compareFloats_eq, compareFloats_eq, UnpackedFloat.compare_swap]

end Floats

theorem IntegerPair.compare_ofWords (kind : IntegerKind) (isUnsigned : Bool)
    (a b : BitVec kind.width) :
    (ofWords kind a b).compare isUnsigned =
      Ord.compare (readWord isUnsigned a) (readWord isUnsigned b) := by
  have natural (m n : Nat) : Ord.compare m n = Ord.compare (m : Int) n := by
    simp only [Ord.compare, compareOfLessAndEq, Int.ofNat_lt, Int.natCast_inj]
  cases kind <;> cases isUnsigned <;> first | rfl | exact natural _ _

/-- The same two integers with the operands exchanged. -/
def IntegerPair.swap : IntegerPair → IntegerPair
  | int32 a b => .int32 b a
  | int64 a b => .int64 b a
  | nativeInt a b => .nativeInt b a

theorem IntegerPair.of?_swap (left right : Value) :
    of? right left = (of? left right).map swap := by
  cases left <;> cases right <;> rfl

theorem IntegerPair.compare_swap (isUnsigned : Bool) (pair : IntegerPair) :
    pair.swap.compare isUnsigned = (pair.compare isUnsigned).swap := by
  cases pair <;> cases isUnsigned
  all_goals first | exact (Int.compare_swap _ _).symm | exact (Nat.compare_swap _ _).symm

/-- Integers are equal with sign or without. -/
theorem IntegerPair.compare_beq_eq (pair : IntegerPair) :
    (pair.compare true == .eq) = (pair.compare false == .eq) := by
  rw [Bool.eq_iff_iff, beq_iff_eq, beq_iff_eq]
  cases pair <;> exact Nat.compare_eq_eq.trans <|
    (BitVec.toNat_inj.trans BitVec.toInt_inj.symm).trans Int.compare_eq_eq.symm

namespace Value

/-- The order of two values that are numbers which can be compared; NaN has none. -/
def numericOrder? (isUnsigned : Bool) (left right : Value) : Option (Option Ordering) :=
  match IntegerPair.of? left right with
  | some pair => some (some (pair.compare isUnsigned))
  | none =>
    match left.isFloat || right.isFloat, left.float?, right.float? with
    | true, some a, some b => some (compareFloats a b)
    | _, _, _ => none

theorem compare_eq (isUnsigned : Bool) (left right : Value) :
    compare isUnsigned left right =
      match numericOrder? isUnsigned left right with
      | some order? => .ok order?
      | none => compareIdentities left right := by
  unfold compare numericOrder?
  cases IntegerPair.of? left right with
  | some pair => rfl
  | none =>
      rcases left.isFloat || right.isFloat with _ | _ <;> rcases left.float? with _ | a <;>
        rcases right.float? with _ | b <;> rfl

theorem numericOrder?_swap (isUnsigned : Bool) (left right : Value) :
    numericOrder? isUnsigned right left =
      (numericOrder? isUnsigned left right).map (·.map Ordering.swap) := by
  unfold numericOrder?
  rw [IntegerPair.of?_swap left right, Bool.or_comm]
  cases IntegerPair.of? left right with
  | some pair => exact congrArg (some <| some ·) (IntegerPair.compare_swap isUnsigned pair)
  | none =>
      rcases left.isFloat || right.isFloat with _ | _ <;> rcases left.float? with _ | a <;>
        rcases right.float? with _ | b <;>
        first | rfl | exact congrArg some (compareFloats_swap _ _)

section Numbers

variable {left right : Value} {leftKind rightKind kind : IntegerKind} {a b : Int}

/-- Two integers that meet are ordered as the numbers that they stand for. -/
theorem compare_of_integers (isLeft : left.integer? = some (leftKind, a))
    (isRight : right.integer? = some (rightKind, b))
    (meets : leftKind.meet? rightKind = some kind) (isUnsigned : Bool) :
    compare isUnsigned left right =
      .ok (some (Ord.compare (kind.read isUnsigned a) (kind.read isUnsigned b))) := by
  rw [compare_eq, numericOrder?, IntegerPair.of?_of_integer? isLeft isRight, meets]
  dsimp only [Option.map_some]
  rw [IntegerPair.compare_ofWords, read_eq, read_eq]

theorem of?_of_isFloat (isFloat : left.isFloat || right.isFloat) :
    IntegerPair.of? left right = none := by
  cases left with
  | float => rfl
  | _ => cases right <;> first | rfl | cases isFloat

theorem compare_of_floats {x y : Float} (isFloat : left.isFloat || right.isFloat)
    (isLeft : left.float? = some x) (isRight : right.float? = some y) (isUnsigned : Bool) :
    compare isUnsigned left right = .ok (compareFloats x y) := by
  rw [compare_eq, numericOrder?, of?_of_isFloat isFloat, isFloat, isLeft, isRight]

end Numbers

/-! ## Identities -/

/-- Null and a function pointer, the two values that can be compared in one order only. -/
def OneSided (left right : Value) : Prop :=
  left = null ∧ (∃ pointer, right = function pointer) ∨
    right = null ∧ ∃ pointer, left = function pointer

/-- Two ways of comparing fail, or succeed and agree on whether the values are equal. -/
def AgreeOnEqual (first second : Except Fault (Option Ordering)) : Prop :=
  (∃ one other, first = .ok one ∧ second = .ok other ∧ (one = some .eq ↔ other = some .eq)) ∨
    ∃ one other, first = .error (.mismatch one) ∧ second = .error (.mismatch other)

theorem agreeOnEqual_compareIdentities {left right : Value} (paired : ¬OneSided left right) :
    AgreeOnEqual (compareIdentities left right) (compareIdentities right left) := by
  have same (isSame isSame' : Bool) (comm : isSame = isSame') :
      AgreeOnEqual (.ok (some (if isSame then .eq else .gt)))
        (.ok (some (if isSame' then .eq else .gt))) :=
    .inl ⟨_, _, rfl, rfl, comm ▸ Iff.rfl⟩
  cases left <;> cases right
  all_goals first
    | exact .inr ⟨_, _, rfl, rfl⟩
    | exact .inl ⟨_, _, rfl, rfl, by decide⟩
    | exact same _ _ (Bool.beq_comm ..)
    | exact absurd (.inl ⟨rfl, _, rfl⟩) paired
    | exact absurd (.inr ⟨rfl, _, rfl⟩) paired

theorem agreeOnEqual_compare {left right : Value} (paired : ¬OneSided left right)
    (isUnsigned : Bool) :
    AgreeOnEqual (compare isUnsigned left right) (compare isUnsigned right left) := by
  rw [compare_eq, compare_eq, numericOrder?_swap isUnsigned left right]
  rcases numericOrder? isUnsigned left right with _ | order?
  · exact agreeOnEqual_compareIdentities paired
  · refine .inl ⟨_, _, rfl, rfl, ?_⟩
    rcases order? with _ | order
    · rfl
    · cases order <;> decide

/-! ## Conditions that belong together -/

section Conditions

variable {left right : Value} {isUnsigned truth : Bool}

theorem decides_of_compare {opcode : Opcode} {condition : Condition} {order? : Option Ordering}
    (tests : opcode.condition? = some condition)
    (compares : compare condition.isUnsigned left right = .ok order?) :
    left.Decides opcode right (condition.accepts order?) :=
  (decides_iff tests).mpr ⟨order?, compares, rfl⟩

/-- A test for equality answers alike for exchanged operands. -/
theorem decides_equal_swap {opcode : Opcode}
    (tests : opcode.condition? = some ⟨.equal, false⟩) (paired : ¬OneSided left right) :
    left.Decides opcode right truth ↔ right.Decides opcode left truth := by
  have accepts (order? : Option Ordering) :
      Condition.accepts ⟨.equal, false⟩ order? = decide (order? = some .eq) := by
    rcases order? with _ | order
    · rfl
    · cases order <;> rfl
  rw [decides_iff tests, decides_iff tests]
  simp only [accepts]
  rcases agreeOnEqual_compare paired false with ⟨one, other, first, second, agree⟩ |
    ⟨one, other, first, second⟩
  · simp [first, second, agree]
  · simp [first, second]

/-- Two instructions that compare alike and accept opposite orders answer the opposite. -/
theorem decides_not {first second : Opcode} {condition opposite : Condition}
    (firstTests : first.condition? = some condition)
    (secondTests : second.condition? = some opposite)
    (compares : compare condition.isUnsigned left right = compare opposite.isUnsigned left right)
    (opposed : ∀ order?, compare condition.isUnsigned left right = .ok order? →
      condition.accepts order? = !opposite.accepts order?) :
    left.Decides first right truth ↔ left.Decides second right (!truth) := by
  rw [decides_iff firstTests, decides_iff secondTests, ← compares]
  refine exists_congr fun order? => and_congr_right fun compared => ?_
  rw [opposed order? compared, Bool.not_eq_eq_eq_not]

/-- Only floating point numbers have no order. -/
theorem isFloat_of_compare (unordered : compare isUnsigned left right = .ok none) :
    left.isFloat || right.isFloat := by
  rw [compare_eq, numericOrder?] at unordered
  cases pair : IntegerPair.of? left right with
  | some pair =>
      rw [pair] at unordered
      cases unordered
  | none =>
      rw [pair] at unordered
      cases isFloat : left.isFloat || right.isFloat with
      | true => rfl
      | false =>
          rw [isFloat] at unordered
          cases left <;> cases right <;> cases unordered

/-- Signs make no difference to values that are not both integers. -/
theorem compare_of_not_integers (noIntegers : IntegerPair.of? left right = none) :
    compare true left right = compare false left right := by
  rw [compare_eq, compare_eq, numericOrder?, numericOrder?, noIntegers]

/-- What is not less is at least as great: of two conditions on values that are no floating point
numbers, and of a condition and one that accepts what has no order on values that are. -/
theorem decides_complement {first second : Opcode} {relation opposite : Relation}
    (opposed : ∀ order, relation.allows order = !opposite.allows order)
    (firstTests : first.condition? = some ⟨relation, isUnsigned⟩)
    (secondTests : second.condition? =
      some ⟨opposite, if left.isFloat || right.isFloat then !isUnsigned else isUnsigned⟩) :
    left.Decides first right truth ↔ left.Decides second right (!truth) := by
  by_cases isFloat : left.isFloat || right.isFloat
  · rw [if_pos isFloat] at secondTests
    have noIntegers := of?_of_isFloat isFloat
    refine decides_not firstTests secondTests ?_ fun order? _ => ?_
    · cases isUnsigned
      · exact (compare_of_not_integers noIntegers).symm
      · exact compare_of_not_integers noIntegers
    · rcases order? with _ | order
      · exact (Bool.not_not _).symm
      · exact opposed order
  · rw [if_neg isFloat] at secondTests
    refine decides_not firstTests secondTests rfl fun order? compared => ?_
    rcases order? with _ | order
    · exact absurd (isFloat_of_compare compared) isFloat
    · exact opposed order

theorem decides_bneUn_iff :
    left.Decides .bneUn right truth ↔ left.Decides .beq right (!truth) := by
  have notEqual : Opcode.bneUn.condition? = some ⟨.notEqual, true⟩ := rfl
  have equal : Opcode.beq.condition? = some ⟨.equal, false⟩ := rfl
  cases integers : IntegerPair.of? left right with
  | some pair =>
      have order (isUnsigned : Bool) :
          compare isUnsigned left right = .ok (some (pair.compare isUnsigned)) := by
        rw [compare_eq, numericOrder?, integers]
      rw [decides_iff notEqual, decides_iff equal]
      simp only [order, Except.ok.injEq, exists_eq_left', Condition.accepts, Relation.allows]
      rw [bne, pair.compare_beq_eq, Bool.not_eq_eq_eq_not]
  | none =>
      refine decides_not notEqual equal (compare_of_not_integers integers) fun order? _ => ?_
      rcases order? with _ | order
      · rfl
      · cases order <;> rfl

end Conditions

/-! ## Coherent answers -/

/-- Of the three tests exactly the one for the order of the values answers yes. -/
structure Ordered (left right : Value) (isUnsigned : Bool) (order : Ordering) : Prop where
  less : left.Decides (if isUnsigned then .cltUn else .clt) right (order == .lt)
  equal : left.Decides .ceq right (order == .eq)
  greater : left.Decides (if isUnsigned then .cgtUn else .cgt) right (order == .gt)

theorem ordered_of_pair {left right : Value} {pair : IntegerPair}
    (integers : IntegerPair.of? left right = some pair) (isUnsigned : Bool) :
    left.Ordered right isUnsigned (pair.compare isUnsigned) := by
  have order (isUnsigned : Bool) :
      compare isUnsigned left right = .ok (some (pair.compare isUnsigned)) := by
    rw [compare_eq, numericOrder?, integers]
  have decides {opcode : Opcode} (condition : Condition)
      (tests : opcode.condition? = some condition) :
      left.Decides opcode right (condition.relation.allows (pair.compare condition.isUnsigned)) :=
    decides_of_compare tests (order condition.isUnsigned)
  have equal : left.Decides .ceq right (pair.compare false == .eq) := decides ⟨.equal, false⟩ rfl
  cases isUnsigned with
  | false =>
      exact {
        less := decides ⟨.less, false⟩ rfl
        equal
        greater := decides ⟨.greater, false⟩ rfl }
  | true =>
      exact {
        less := decides ⟨.less, true⟩ rfl
        equal := pair.compare_beq_eq ▸ equal
        greater := decides ⟨.greater, true⟩ rfl }

/-- The answers of all instructions that compare the values belong together. -/
structure Coherent (left right : Value) : Prop where
  comparable (isUnsigned : Bool) :
    (∃ order?, compare isUnsigned left right = .ok order?) ↔
      ∃ order?, compare isUnsigned right left = .ok order?
  ceq (truth : Bool) : left.Decides .ceq right truth ↔ right.Decides .ceq left truth
  beq (truth : Bool) : left.Decides .beq right truth ↔ right.Decides .beq left truth
  bneUn (truth : Bool) : left.Decides .bneUn right truth ↔ left.Decides .beq right (!truth)
  /-- Integers are ordered as what they stand for, and the other way round if exchanged. -/
  integers {leftKind rightKind kind : IntegerKind} {a b : Int}
    (isLeft : left.integer? = some (leftKind, a)) (isRight : right.integer? = some (rightKind, b))
    (meets : leftKind.meet? rightKind = some kind) (isUnsigned : Bool) :
    let order := Ord.compare (kind.read isUnsigned a) (kind.read isUnsigned b)
    left.Ordered right isUnsigned order ∧ right.Ordered left isUnsigned order.swap
  /-- Any number can be compared with a floating point number. -/
  floats {x y : Float} (isFloat : left.isFloat || right.isFloat)
    (isLeft : left.float? = some x) (isRight : right.float? = some y) (isUnsigned : Bool) :
    compare isUnsigned left right = .ok (compareFloats x y)
  bge (truth : Bool) : left.Decides .bge right truth ↔
    left.Decides (if left.isFloat || right.isFloat then .cltUn else .clt) right (!truth)
  bgeUn (truth : Bool) : left.Decides .bgeUn right truth ↔
    left.Decides (if left.isFloat || right.isFloat then .clt else .cltUn) right (!truth)
  ble (truth : Bool) : left.Decides .ble right truth ↔
    left.Decides (if left.isFloat || right.isFloat then .cgtUn else .cgt) right (!truth)
  bleUn (truth : Bool) : left.Decides .bleUn right truth ↔
    left.Decides (if left.isFloat || right.isFloat then .cgt else .cgtUn) right (!truth)

theorem coherent_of_not_oneSided {left right : Value} (paired : ¬left.OneSided right) :
    left.Coherent right where
  comparable isUnsigned := by
    rcases agreeOnEqual_compare paired isUnsigned with ⟨one, other, first, second, -⟩ |
      ⟨one, other, first, second⟩
    · rw [first, second]
      exact iff_of_true ⟨_, rfl⟩ ⟨_, rfl⟩
    · rw [first, second]
      exact iff_of_false nofun nofun
  ceq _ := decides_equal_swap rfl paired
  beq _ := decides_equal_swap rfl paired
  bneUn _ := decides_bneUn_iff
  integers {leftKind rightKind kind a b} isLeft isRight meets isUnsigned := by
    have pair := IntegerPair.of?_of_integer? isLeft isRight
    rw [meets, Option.map_some] at pair
    have ordered := ordered_of_pair pair isUnsigned
    have swapped := ordered_of_pair ((IntegerPair.of?_swap left right).trans
      (congrArg (Option.map IntegerPair.swap) pair)) isUnsigned
    rw [IntegerPair.compare_swap] at swapped
    rw [IntegerPair.compare_ofWords, ← read_eq, ← read_eq] at ordered swapped
    exact ⟨ordered, swapped⟩
  floats isFloat isLeft isRight := compare_of_floats isFloat isLeft isRight
  bge _ := decides_complement Relation.atLeast_allows rfl
    (by cases left.isFloat || right.isFloat <;> rfl)
  bgeUn _ := decides_complement Relation.atLeast_allows rfl
    (by cases left.isFloat || right.isFloat <;> rfl)
  ble _ := decides_complement Relation.atMost_allows rfl
    (by cases left.isFloat || right.isFloat <;> rfl)
  bleUn _ := decides_complement Relation.atMost_allows rfl
    (by cases left.isFloat || right.isFloat <;> rfl)

theorem compare_function_null (isUnsigned : Bool) (pointer : FunctionPointer) :
    compare isUnsigned (function pointer) null = .ok (some .gt) :=
  rfl

theorem compare_null_function (isUnsigned : Bool) (pointer : FunctionPointer) :
    ∃ complaint, compare isUnsigned null (function pointer) = .error (.mismatch complaint) :=
  ⟨_, rfl⟩

/-- The answers belong together for all values but null and a function pointer, whose comparison
depends on which of them comes first. -/
theorem coherent_iff (left right : Value) : left.Coherent right ↔ ¬left.OneSided right := by
  refine ⟨fun coherent oneSided => ?_, coherent_of_not_oneSided⟩
  obtain ⟨rfl, pointer, rfl⟩ | ⟨rfl, pointer, rfl⟩ := oneSided
  all_goals
    obtain ⟨complaint, fails⟩ := compare_null_function false pointer
    have succeeds := compare_function_null false pointer
  · obtain ⟨order?, compared⟩ := (coherent.comparable false).mpr ⟨_, succeeds⟩
    cases fails.symm.trans compared
  · obtain ⟨order?, compared⟩ := (coherent.comparable false).mp ⟨_, succeeds⟩
    cases fails.symm.trans compared

end Value

namespace FunctionPointers

/-- A function pointer is different from null, but null is not to be compared with it. -/
theorem null_first_fails :
    (Value.function ⟨0⟩).Decides .ceq .null false ∧
      ¬Value.null.Decides .ceq (.function ⟨0⟩) false := by
  refine ⟨⟨⟨.equal, false⟩, rfl, rfl⟩, fun ⟨condition, tests, decided⟩ => ?_⟩
  cases tests
  cases decided

end FunctionPointers

end Cil
