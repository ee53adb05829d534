import Cil.Error
import Cil.Number.LittleEndian

/-!
# A cursor over bytes

A cursor holds bytes and a position between zero and their number.  Reads and
moves either succeed and advance the position, or report that they would leave
the bytes and change nothing.

Steps are machine words: moving by a step adds modulo `2 ^ 64`.
-/

namespace Cil

/-- Bytes with a reading position. -/
structure Cursor where
  data : List UInt8
  position : Nat
  /-- The bytes from the position on. -/
  rest : List UInt8
  rest_eq : rest = data.drop position
  position_le : position ≤ data.length

/-- A reading step. -/
abbrev CursorM := EStateM Error Cursor

namespace Cursor

/-- The cursor at the start of the bytes. -/
def ofBytes (data : List UInt8) : Cursor :=
  { data, position := 0, rest := data, rest_eq := rfl, position_le := Nat.zero_le _ }

instance : Inhabited Cursor := ⟨ofBytes []⟩

def remaining (cursor : Cursor) : Nat := cursor.rest.length

def hasMore (cursor : Cursor) : Bool := !cursor.rest.isEmpty

theorem remaining_eq (cursor : Cursor) :
    cursor.remaining = cursor.data.length - cursor.position := by
  simp [remaining, cursor.rest_eq]

def moveTo (cursor : Cursor) (position : Nat) (inside : position ≤ cursor.data.length) :
    Cursor :=
  { data := cursor.data, position, rest := cursor.data.drop position, rest_eq := rfl
    position_le := inside }

/-- The cursor after the next bytes. -/
def skip (cursor : Cursor) (count : Nat) (inside : count ≤ cursor.rest.length) : Cursor :=
  { data := cursor.data, position := cursor.position + count, rest := cursor.rest.drop count
    rest_eq := by rw [cursor.rest_eq, List.drop_drop]
    position_le := by
      have length := cursor.remaining_eq
      have bound := cursor.position_le
      simp only [remaining] at length
      omega }

/-- Takes the next bytes. -/
def readBytes (count : Nat) : CursorM (List UInt8) := fun cursor =>
  if inside : count ≤ cursor.rest.length then
    .ok (cursor.rest.take count) (cursor.skip count inside)
  else .error .outOfBounds cursor

/-- Reads an unsigned little-endian number of the given width in bytes. -/
def readNat (width : Nat) : CursorM Nat := do
  return Number.ofBytes (← readBytes width)

/-- Reads a two's complement little-endian number of the given width in bytes. -/
def readInt (width : Nat) : CursorM Int := do
  return Int.bmod (← readNat width) (Nat.pow 256 width)

def peek : CursorM UInt8 := fun cursor =>
  match cursor.rest with
  | byte :: _ => .ok byte cursor
  | [] => .error .outOfBounds cursor

/-- Moves to a position before the end. -/
def seek (position : Nat) : CursorM Unit := fun cursor =>
  if inside : position < cursor.data.length then
    .ok () (cursor.moveTo position (Nat.le_of_lt inside))
  else .error .outOfBounds cursor

/-- Adds a step to the position, modulo the size of a machine word. -/
def advance (step : Nat) : CursorM Unit := fun cursor =>
  let position := (cursor.position + step) % 0x10000000000000000
  if inside : position ≤ cursor.data.length then .ok () (cursor.moveTo position inside)
  else .error .outOfBounds cursor

/-- Moves forward to the next multiple of the alignment. -/
def align (alignment : Nat) : CursorM Unit := do
  if alignment = 0 then throw .undefinedArithmetic
  let cursor ← get
  advance ((alignment - cursor.position % alignment) % alignment)

end Cursor

end Cil
