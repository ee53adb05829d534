import Cil.Text.Hex

/-!
# Metadata tokens

A token names a row of a metadata table: the table in its high byte and the
row, counted from one, in its low three bytes.  Tokens of the dynamic table are
resolved by the scope of a dynamic method and by nothing else.
-/

namespace Cil

/-- A table or token space. -/
inductive TableId
  | typeDef
  | field
  | methodDef
  | standAloneSig
  | methodSpec
  | userString
  | dynamic
deriving DecidableEq, Repr, Inhabited

namespace TableId

/-- All tables, in the order of their numbers. -/
def all : List TableId :=
  [typeDef, field, methodDef, standAloneSig, methodSpec, userString, dynamic]

/-- The number that stands in the high byte of a token. -/
def code : TableId → Nat
  | typeDef => 0x02
  | field => 0x04
  | methodDef => 0x06
  | standAloneSig => 0x11
  | methodSpec => 0x2B
  | userString => 0x70
  | dynamic => 0x7F

/-- The table with a given number. -/
def ofCode? (code : Nat) : Option TableId :=
  all.find? (·.code == code)

def name : TableId → String
  | typeDef => "TypeDef"
  | field => "Field"
  | methodDef => "MethodDef"
  | standAloneSig => "StandAloneSig"
  | methodSpec => "MethodSpec"
  | userString => "UserString"
  | dynamic => "Dynamic"

theorem ofCode?_code (table : TableId) : ofCode? table.code = some table := by
  cases table <;> rfl

end TableId

/-- The name of a row of a metadata table. -/
structure Token where
  value : UInt32
deriving DecidableEq, Repr, Inhabited

namespace Token

/-- The token that names no row. -/
def null : Token := ⟨0⟩

/-- One more than the greatest row that a token can name. -/
def rowBound : Nat := 0x1000000

/-- The token of a row.  Only the low 24 bits of the row are kept. -/
def ofRow (table : TableId) (row : Nat) : Token :=
  ⟨UInt32.ofNat (table.code * rowBound + row % rowBound)⟩

/-- The number of the table. -/
def table (token : Token) : Nat :=
  token.value.toNat / rowBound

def tableId? (token : Token) : Option TableId :=
  TableId.ofCode? token.table

/-- The row, counted from one; zero names no row. -/
def row (token : Token) : Nat :=
  token.value.toNat % rowBound

def isNull (token : Token) : Bool :=
  token.value == 0

/-- Whether the token belongs to the scope of a dynamic method. -/
def isDynamic (token : Token) : Bool :=
  token.table == TableId.dynamic.code

/-- The index of the row in a table, if the token names a row of that table. -/
def indexIn? (token : Token) (table : TableId) : Option Nat :=
  if token.table = table.code ∧ token.row ≠ 0 then some (token.row - 1) else none

/-- The text of a token: eight hexadecimal digits. -/
def text (token : Token) : String :=
  "0x" ++ Text.hexLower 8 token.value.toNat

instance : ToString Token := ⟨text⟩

/-- A token together with its parts. -/
def describe (token : Token) : String :=
  s!"Token({token.text}, table: 0x" ++ Text.hexLower 2 token.table ++
    s!", row: {token.row})"

end Token

end Cil
