import Cil.Machine.Arithmetic

/-!
# Comparison

Two values compare as numbers, or by identity.  A comparison with NaN has no order,
and a condition on operands without an order holds exactly in its unsigned form.
-/

namespace Cil

/-- What is asked of the order of two values. -/
inductive Relation
  | equal
  | notEqual
  | atLeast
  | greater
  | atMost
  | less
deriving DecidableEq, Repr, Inhabited

/-- Whether the relation allows an order. -/
def Relation.allows : Relation → Ordering → Bool
  | equal, order => order == .eq
  | notEqual, order => order != .eq
  | atLeast, order => order != .lt
  | greater, order => order == .gt
  | atMost, order => order != .gt
  | less, order => order == .lt

/-- The condition of a comparison or of a conditional branch.  The unsigned form
compares integers without sign and accepts operands that have no order. -/
structure Condition where
  relation : Relation
  isUnsigned : Bool
deriving DecidableEq, Repr, Inhabited

namespace IntegerPair

def compare (isUnsigned : Bool) : IntegerPair → Ordering
  | int32 a b =>
    if isUnsigned then Ord.compare a.toBitVec.toNat b.toBitVec.toNat
    else Ord.compare a.toInt b.toInt
  | int64 a b | nativeInt a b =>
    if isUnsigned then Ord.compare a.toBitVec.toNat b.toBitVec.toNat
    else Ord.compare a.toInt b.toInt

end IntegerPair

/-- The order of two floating point numbers, unless one is NaN. -/
def compareFloats (a b : Float) : Option Ordering :=
  if a < b then some .lt
  else if a == b then some .eq
  else if b < a then some .gt
  else none

namespace Value

/-- Things with an identity are equal or not; of two different ones the first counts as
the greater. -/
private def identityOrder (same : Bool) : Except Fault (Option Ordering) :=
  .ok (some (if same then .eq else .gt))

/-- The order of two values that are not both numbers. -/
def compareIdentities : Value → Value → Except Fault (Option Ordering)
  | null, null => .ok (some .eq)
  | object _, null | function _, null => .ok (some .gt)
  | null, object _ => .ok (some .lt)
  | object a, object b => identityOrder (a == b)
  | pointer a, pointer b => identityOrder (a == b)
  | function a, function b => identityOrder (a == b)
  | left, right => .error (.mismatch s!"cannot compare {left} and {right}")

def compare (isUnsigned : Bool) (left right : Value) : Except Fault (Option Ordering) :=
  match IntegerPair.of? left right with
  | some pair => .ok (some (pair.compare isUnsigned))
  | none =>
    match left.isFloat || right.isFloat, left.float?, right.float? with
    | true, some a, some b => .ok (compareFloats a b)
    | _, _, _ => compareIdentities left right

def satisfy (condition : Condition) (left right : Value) : Except Fault Bool := do
  match ← compare condition.isUnsigned left right with
  | some order => return condition.relation.allows order
  | none => return condition.isUnsigned

end Value

end Cil
