import Cil.Cursor
import Cil.Proofs.Stateful
import Mathlib.Data.Nat.Basic

/-!
# Where a cursor can go

The operations of a cursor, said in numbers without a bound: each of them leads to a position
within the bytes, or is refused and moves nothing.  The cursor itself adds machine words.  Over
bytes that fit into memory this makes a difference for a step so long that the sum wraps
around, which leads back instead of being refused, and for an alignment to multiples of zero,
which has no result.
-/

namespace Cil

open Stateful

namespace Cursor

/-! ## Multiples -/

/-- The least multiple of an alignment that is not below a position. -/
def roundUp (position alignment : Nat) : Nat :=
  (position + (alignment - 1)) / alignment * alignment

theorem add_padding_eq_roundUp (position : Nat) {alignment : Nat} (someMultiple : alignment ≠ 0) :
    position + (alignment - position % alignment) % alignment = roundUp position alignment := by
  have parts := Nat.div_add_mod position alignment
  have below := Nat.mod_lt position (Nat.pos_of_ne_zero someMultiple)
  unfold roundUp
  by_cases isMultiple : position % alignment = 0
  · have sum : position + (alignment - 1) = alignment - 1 + alignment * (position / alignment) := by
      omega
    rw [sum, Nat.add_mul_div_left _ _ (Nat.pos_of_ne_zero someMultiple),
      Nat.div_eq_of_lt (by omega), isMultiple, Nat.sub_zero, Nat.mod_self, Nat.zero_add,
      Nat.mul_comm]
    omega
  · have sum : position + (alignment - 1) =
        position % alignment - 1 + alignment * (position / alignment + 1) := by
      rw [Nat.mul_succ]
      omega
    rw [sum, Nat.add_mul_div_left _ _ (Nat.pos_of_ne_zero someMultiple),
      Nat.div_eq_of_lt (by omega), Nat.mod_eq_of_lt (by omega), Nat.zero_add, Nat.mul_comm,
      Nat.mul_succ]
    omega

theorem le_roundUp (position : Nat) {alignment : Nat} (someMultiple : alignment ≠ 0) :
    position ≤ roundUp position alignment := by
  rw [← add_padding_eq_roundUp position someMultiple]
  exact Nat.le_add_right _ _

/-- The next multiple of a machine word is one, for positions in the lower half. -/
theorem roundUp_lt {position alignment : Nat} (alignmentLt : alignment < 0x10000000000000000)
    (positionLt : position < 0x8000000000000000) :
    roundUp position alignment < 0x10000000000000000 := by
  have bound := Nat.div_mul_le_self (position + (alignment - 1)) alignment
  change roundUp position alignment ≤ _ at bound
  by_cases long : alignment ≤ position
  · omega
  · have few : (position + (alignment - 1)) / alignment < 2 :=
      (Nat.div_lt_iff_lt_mul (by omega)).mpr (by omega)
    have : roundUp position alignment ≤ 1 * alignment := Nat.mul_le_mul_right _ (by omega)
    omega

/-! ## Operations -/

/-- The numbers that can be read. -/
inductive Primitive
  | uint8
  | int8
  | uint16
  | int16
  | uint32
  | int32
  | uint64
  | int64
  | float32
  | float64

namespace Primitive

def width : Primitive → Nat
  | uint8 | int8 => 1
  | uint16 | int16 => 2
  | uint32 | int32 | float32 => 4
  | uint64 | int64 | float64 => 8

/-- Reads a number; a floating point number is read as its bits. -/
def read : Primitive → CursorM Int
  | int8 => readInt 1
  | int16 => readInt 2
  | int32 => readInt 4
  | int64 => readInt 8
  | primitive => return ((← readNat primitive.width : Nat) : Int)

end Primitive

/-- An operation with its arguments, which are machine words. -/
inductive Operation
  | read (primitive : Primitive)
  | readBytes (count : UInt64)
  | seek (position : UInt64)
  | advance (step : UInt64)
  | align (alignment : UInt64)
  | peek

/-- What an operation gives. -/
inductive Answer
  | nothing
  | number (value : Int)
  | bytes (content : List UInt8)

namespace Operation

def perform : Operation → CursorM Answer
  | read primitive => Answer.number <$> primitive.read
  | readBytes count => Answer.bytes <$> Cursor.readBytes count.toNat
  | seek position => (fun _ => .nothing) <$> Cursor.seek position.toNat
  | advance step => (fun _ => .nothing) <$> Cursor.advance step.toNat
  | align alignment => (fun _ => .nothing) <$> Cursor.align alignment.toNat
  | peek => (fun byte => .number byte.toNat) <$> Cursor.peek

/-- Where an operation leads from a position among `size` bytes, if it may be carried out.
Positions are natural numbers here, so nothing wraps around. -/
def leads (size position : Nat) : Operation → Option Nat
  | read primitive =>
      if position + primitive.width ≤ size then some (position + primitive.width) else none
  | readBytes count =>
      if position + count.toNat ≤ size then some (position + count.toNat) else none
  | seek next => if next.toNat < size then some next.toNat else none
  | advance step => if position + step.toNat ≤ size then some (position + step.toNat) else none
  | align alignment =>
      if roundUp position alignment.toNat ≤ size then some (roundUp position alignment.toNat)
      else none
  | peek => if position < size then some position else none

/-- An operation does at a cursor what it does with numbers without a bound. -/
def Exact (operation : Operation) (cursor : Cursor) : Prop :=
  match operation.leads cursor.data.length cursor.position with
  | some next => ∃ answer after, operation.perform cursor = .ok answer after ∧
      after.data = cursor.data ∧ after.position = next
  | none => operation.perform cursor = .error .outOfBounds cursor

/-- What may be relied on wherever an operation is carried out. -/
structure Safe (operation : Operation) (cursor : Cursor) : Prop where
  /-- No arithmetic is left without a result. -/
  defined : ∀ after, operation.perform cursor ≠ .error .undefinedArithmetic after
  within : (finalState (operation.perform cursor)).position ≤ cursor.data.length
  kept : ∀ error after, operation.perform cursor = .error error after → after = cursor
  /-- A step is made exactly if it stays within the bytes, and it is made in full. -/
  advances : ∀ step, operation = .advance step →
    ((∃ answer after, operation.perform cursor = .ok answer after) ↔
      cursor.position + step.toNat ≤ cursor.data.length) ∧
    ∀ answer after, operation.perform cursor = .ok answer after →
      after.position = cursor.position + step.toNat
  /-- Aligning does not lead back. -/
  aligns : ∀ alignment, operation = .align alignment →
    cursor.position ≤ (finalState (operation.perform cursor)).position

/-- The operations on which machine words go another way: a step that wraps around, and an
alignment to multiples of zero. -/
def Strays (position : Nat) : Operation → Prop
  | advance step => 0x10000000000000000 ≤ position + step.toNat
  | align alignment => alignment = 0
  | _ => False

/-! ## Single operations -/

variable {cursor : Cursor}

theorem map_eq_ok {α β : Type} {action : CursorM α} {change : α → β} {value : α} {after : Cursor}
    (ran : action cursor = .ok value after) :
    (change <$> action) cursor = .ok (change value) after := by
  simp only [Functor.map, EStateM.map, ran]

theorem map_eq_error {α β : Type} {action : CursorM α} {change : α → β} {error : Error}
    {after : Cursor} (failed : action cursor = .error error after) :
    (change <$> action) cursor = .error error after := by
  simp only [Functor.map, EStateM.map, failed]

theorem finalState_map {α β : Type} (action : CursorM α) (change : α → β) (cursor : Cursor) :
    finalState ((change <$> action) cursor) = finalState (action cursor) := by
  simp only [Functor.map, EStateM.map]
  cases action cursor <;> rfl

end Operation

/-- Aligning is a step, unless there are no multiples but zero. -/
theorem align_eq_advance (cursor : Cursor) {alignment : Nat} (someMultiple : alignment ≠ 0) :
    align alignment cursor =
      advance ((alignment - cursor.position % alignment) % alignment) cursor := by
  unfold align
  rw [if_neg someMultiple]
  rfl

theorem align_zero (cursor : Cursor) :
    align 0 cursor = .error .undefinedArithmetic cursor :=
  rfl

/-- An action leads to a position, or is refused and moves nothing. -/
def LeadsTo {α : Type} (cursor : Cursor) (next? : Option Nat) (action : CursorM α) : Prop :=
  match next? with
  | some next => ∃ value after, action cursor = .ok value after ∧ after.data = cursor.data ∧
      after.position = next
  | none => action cursor = .error .outOfBounds cursor

namespace LeadsTo

variable {α β : Type} {cursor : Cursor} {next? : Option Nat} {action : CursorM α}

theorem map (leads : cursor.LeadsTo next? action) (change : α → β) :
    cursor.LeadsTo next? (change <$> action) := by
  cases next? with
  | none => exact Operation.map_eq_error leads
  | some next =>
      obtain ⟨value, after, ran, moved⟩ := leads
      exact ⟨change value, after, Operation.map_eq_ok ran, moved⟩

theorem data_finalState (leads : cursor.LeadsTo next? action) :
    (finalState (action cursor)).data = cursor.data := by
  cases next? with
  | none =>
      rw [show action cursor = _ from leads]
      rfl
  | some next =>
      obtain ⟨value, after, ran, data, _⟩ := leads
      rw [ran]
      exact data

theorem readBytes (cursor : Cursor) (count : Nat) :
    cursor.LeadsTo (if cursor.position + count ≤ cursor.data.length then
      some (cursor.position + count) else none) (Cursor.readBytes count) := by
  have remaining := cursor.remaining_eq
  have inside := cursor.position_le
  unfold Cursor.remaining at remaining
  unfold Cursor.readBytes
  split
  · rename_i fits
    exact ⟨_, _, dif_pos (by omega), rfl, rfl⟩
  · rename_i short
    exact dif_neg (by omega)

theorem readNat (cursor : Cursor) (width : Nat) :
    cursor.LeadsTo (if cursor.position + width ≤ cursor.data.length then
      some (cursor.position + width) else none) (Cursor.readNat width) :=
  (readBytes cursor width).map Number.ofBytes

theorem readInt (cursor : Cursor) (width : Nat) :
    cursor.LeadsTo (if cursor.position + width ≤ cursor.data.length then
      some (cursor.position + width) else none) (Cursor.readInt width) :=
  (readNat cursor width).map fun number => Int.bmod number (Nat.pow 256 width)

theorem read (cursor : Cursor) (primitive : Primitive) :
    cursor.LeadsTo (if cursor.position + primitive.width ≤ cursor.data.length then
      some (cursor.position + primitive.width) else none) primitive.read := by
  cases primitive with
  | int8 => exact readInt cursor 1
  | int16 => exact readInt cursor 2
  | int32 => exact readInt cursor 4
  | int64 => exact readInt cursor 8
  | uint8 => exact (readNat cursor 1).map fun number => (number : Int)
  | uint16 => exact (readNat cursor 2).map fun number => (number : Int)
  | uint32 | float32 => exact (readNat cursor 4).map fun number => (number : Int)
  | uint64 | float64 => exact (readNat cursor 8).map fun number => (number : Int)

theorem seek (cursor : Cursor) (position : Nat) :
    cursor.LeadsTo (if position < cursor.data.length then some position else none)
      (Cursor.seek position) := by
  unfold Cursor.seek
  split
  · rename_i inside
    exact ⟨(), _, dif_pos inside, rfl, rfl⟩
  · rename_i outside
    exact dif_neg outside

theorem peek (cursor : Cursor) :
    cursor.LeadsTo (if cursor.position < cursor.data.length then some cursor.position else none)
      Cursor.peek := by
  have remaining := cursor.remaining_eq
  unfold Cursor.remaining at remaining
  cases rest : cursor.rest with
  | nil =>
      have atEnd : ¬ cursor.position < cursor.data.length := by
        rw [rest, List.length_nil] at remaining
        omega
      rw [if_neg atEnd]
      simp [LeadsTo, Cursor.peek, rest]
  | cons first others =>
      have inside : cursor.position < cursor.data.length := by
        rw [rest, List.length_cons] at remaining
        omega
      rw [if_pos inside]
      exact ⟨first, cursor, by simp [Cursor.peek, rest], rfl, rfl⟩

/-- A step leads to the sum as a machine word. -/
theorem advance (cursor : Cursor) (step : Nat) :
    cursor.LeadsTo (if (cursor.position + step) % 0x10000000000000000 ≤ cursor.data.length then
      some ((cursor.position + step) % 0x10000000000000000) else none) (Cursor.advance step) := by
  split
  · rename_i inside
    exact ⟨(), _, dif_pos inside, rfl, rfl⟩
  · rename_i outside
    exact dif_neg outside

/-- Aligning leads to the next multiple, if that is a machine word. -/
theorem align {alignment : Nat} (someMultiple : alignment ≠ 0)
    (fits : roundUp cursor.position alignment < 0x10000000000000000) :
    cursor.LeadsTo (if roundUp cursor.position alignment ≤ cursor.data.length then
      some (roundUp cursor.position alignment) else none) (Cursor.align alignment) := by
  have leads := advance cursor ((alignment - cursor.position % alignment) % alignment)
  rw [add_padding_eq_roundUp cursor.position someMultiple, Nat.mod_eq_of_lt fits] at leads
  unfold LeadsTo at leads ⊢
  rw [align_eq_advance cursor someMultiple]
  exact leads

end LeadsTo

/-! ## Operations that go astray -/

/-- A step whose sum wraps around is always made, and leads back. -/
theorem advance_wraps {cursor : Cursor} {step : Nat} (stepLt : step < 0x10000000000000000)
    (small : cursor.data.length < 0x8000000000000000)
    (wraps : 0x10000000000000000 ≤ cursor.position + step) :
    ∃ after, advance step cursor = .ok () after ∧
      after.position + 0x10000000000000000 = cursor.position + step := by
  have inside := cursor.position_le
  have leads := LeadsTo.advance cursor step
  rw [if_pos (by omega)] at leads
  obtain ⟨_, after, ran, _, moved⟩ := leads
  exact ⟨after, ran, by omega⟩

namespace Operation

variable {operation : Operation} {cursor : Cursor}

/-- Unless it goes astray, an operation does what it does with numbers without a bound. -/
theorem exact_of_not_strays (small : cursor.data.length < 0x8000000000000000)
    (stays : ¬ operation.Strays cursor.position) : operation.Exact cursor := by
  have inside := cursor.position_le
  cases operation with
  | read primitive => exact (LeadsTo.read cursor primitive).map _
  | readBytes count => exact (LeadsTo.readBytes cursor count.toNat).map _
  | seek position => exact (LeadsTo.seek cursor position.toNat).map _
  | peek => exact (LeadsTo.peek cursor).map _
  | advance step =>
      have leads := LeadsTo.advance cursor step.toNat
      rw [Nat.mod_eq_of_lt (Nat.lt_of_not_le stays)] at leads
      exact leads.map _
  | align alignment =>
      have someMultiple : alignment.toNat ≠ 0 := fun zero => stays (UInt64.toNat_inj.mp zero)
      refine (LeadsTo.align someMultiple ?_).map _
      exact roundUp_lt alignment.toNat_lt (by omega)

/-- With numbers without a bound, no operation leads out of the bytes. -/
theorem le_of_leads {size position next : Nat} (inside : position ≤ size)
    (leads : operation.leads size position = some next) : next ≤ size := by
  cases operation <;> simp only [Operation.leads] at leads <;> split at leads <;> cases leads <;>
    omega

theorem safe_of_refused (failed : operation.perform cursor = .error .outOfBounds cursor)
    (leads : operation.leads cursor.data.length cursor.position = none) :
    operation.Safe cursor := by
  refine ⟨by rw [failed]; nofun, ?_, by rw [failed]; rintro _ _ ⟨⟩; rfl, ?_, ?_⟩
  · rw [failed]
    exact cursor.position_le
  · rintro step rfl
    have outside : ¬ cursor.position + step.toNat ≤ cursor.data.length := by
      intro inside
      rw [Operation.leads, if_pos inside] at leads
      cases leads
    rw [failed]
    exact ⟨⟨nofun, fun inside => absurd inside outside⟩, nofun⟩
  · intro alignment _
    rw [failed]
    exact Nat.le_refl _

theorem safe_of_made (someMultiple : operation ≠ .align 0) {answer : Answer} {after : Cursor}
    (ran : operation.perform cursor = .ok answer after)
    (leads : operation.leads cursor.data.length cursor.position = some after.position) :
    operation.Safe cursor := by
  refine ⟨by rw [ran]; nofun, ?_, by rw [ran]; nofun, ?_, ?_⟩
  · rw [ran]
    exact le_of_leads cursor.position_le leads
  · rintro step rfl
    obtain ⟨inside, moved⟩ := Option.ite_none_right_eq_some.mp leads
    refine ⟨⟨fun _ => inside, fun _ => ⟨answer, after, ran⟩⟩, fun _ _ again => ?_⟩
    rw [ran] at again
    cases again
    exact (Option.some.inj moved).symm
  · rintro alignment rfl
    have notZero : alignment.toNat ≠ 0 := fun zero =>
      someMultiple (congrArg align (UInt64.toNat_inj.mp zero))
    obtain ⟨_, moved⟩ := Option.ite_none_right_eq_some.mp leads
    rw [ran]
    exact Option.some.inj moved ▸ le_roundUp cursor.position notZero

/-- What an operation does with numbers without a bound is safe, aligning to multiples of zero
apart. -/
theorem safe_of_exact (someMultiple : operation ≠ .align 0) (exact : operation.Exact cursor) :
    operation.Safe cursor := by
  unfold Exact at exact
  cases leads : operation.leads cursor.data.length cursor.position with
  | none =>
      rw [leads] at exact
      exact safe_of_refused exact leads
  | some next =>
      rw [leads] at exact
      obtain ⟨answer, after, ran, _, rfl⟩ := exact
      exact safe_of_made someMultiple ran leads

/-- An operation is safe exactly if it does not go astray. -/
theorem safe_iff (small : cursor.data.length < 0x8000000000000000) :
    operation.Safe cursor ↔ ¬ operation.Strays cursor.position := by
  constructor
  · intro safe strays
    cases operation with
    | advance step =>
        obtain ⟨after, ran, back⟩ := advance_wraps step.toNat_lt small strays
        have moved := (safe.advances step rfl).2 _ after (map_eq_ok ran)
        omega
    | align alignment =>
        obtain rfl : alignment = 0 := strays
        exact safe.defined cursor (map_eq_error (align_zero cursor))
    | _ => exact strays
  · intro stays
    refine safe_of_exact ?_ (exact_of_not_strays small stays)
    rintro rfl
    exact stays rfl

/-- Whatever it does, an operation keeps the bytes. -/
theorem data_perform (operation : Operation) (cursor : Cursor) :
    (finalState (operation.perform cursor)).data = cursor.data := by
  cases operation with
  | read primitive => exact ((LeadsTo.read cursor primitive).map _).data_finalState
  | readBytes count => exact ((LeadsTo.readBytes cursor count.toNat).map _).data_finalState
  | seek position => exact ((LeadsTo.seek cursor position.toNat).map _).data_finalState
  | peek => exact ((LeadsTo.peek cursor).map _).data_finalState
  | advance step => exact ((LeadsTo.advance cursor step.toNat).map _).data_finalState
  | align alignment =>
      rw [perform, finalState_map]
      by_cases zero : alignment.toNat = 0
      · rw [zero, align_zero]
        rfl
      · rw [align_eq_advance cursor zero]
        exact (LeadsTo.advance cursor _).data_finalState

end Operation

/-- The cursor after operations, refused ones among them. -/
def after (cursor : Cursor) (operations : List Operation) : Cursor :=
  operations.foldl (fun cursor operation => finalState (operation.perform cursor)) cursor

theorem data_after (cursor : Cursor) (operations : List Operation) :
    (cursor.after operations).data = cursor.data := by
  induction operations generalizing cursor with
  | nil => rfl
  | cons operation operations ih => exact (ih _).trans (operation.data_perform cursor)

namespace TwelveBytes

def data : List UInt8 := [0, 1, 2, 3, 4, 5, 6, 7, 8, 9, 10, 11]

/-- A number is read, a step and a place behind the end are refused, and the cursor is aligned. -/
def operations : List Operation :=
  [.read .int16, .advance 0xFFFFFFFFFFFFFFF0, .seek 12, .advance 3, .align 4]

end TwelveBytes

end Cursor

end Cil
