import Cil.Code.Clause
import Cil.Error
import Cil.Number.LittleEndian

/-!
# Method bodies

A method body is a header, the code, and sections of exception clauses.  A tiny
header is one byte; a fat one names the stack height, the locals and whether
sections follow at the next multiple of four.  Clauses are written in twelve bytes
if all of them fit, and else in twenty-four.
-/

namespace Cil

/-- What the header and the sections of a method body say. -/
structure Body where
  codeSize : Nat
  headerSize : Nat
  localsToken : Token
  maxStack : Nat
  isFat : Bool
  initLocals : Bool
  clauses : List Clause
deriving DecidableEq, Repr, Inhabited

namespace Body

/-! ## The format -/

def tinyMaxCode : Nat := 0x3F

/-- The stack height that a tiny header stands for. -/
def tinyMaxStack : Nat := 8

def smallClauseSize : Nat := 12
def fatClauseSize : Nat := 24

/-- The two low bits of the first byte tell the header formats apart. -/
def tinyFormat : Nat := 0x2
def fatFormat : Nat := 0x3

/-- Header flag: sections follow the code. -/
def moreSections : Nat := 0x8

/-- Header flag: locals start as zero. -/
def initLocalsFlag : Nat := 0x10

/-- Section flag: the section holds exception clauses. -/
def clauseTable : Nat := 0x1

/-- Section flag: clauses are written wide. -/
def fatSection : Nat := 0x40

/-- Section flag: another section follows. -/
def sectionFollows : Nat := 0x80

def hasFlag (word flag : Nat) : Bool := word &&& flag != 0

/-! ## Reading -/

/-- The number in `width` bytes at an offset, if they are there. -/
def numberAt (data : List UInt8) (offset width : Nat) : Except Error Nat :=
  let bytes := (data.drop offset).take width
  if bytes.length = width then .ok (Number.ofBytes bytes) else .error .outOfBounds

/-- The clause that fields of a section describe: a class for a catch clause, a
filter offset for the others. -/
def clauseOf (flags tryOffset tryLength handlerOffset handlerLength classOrFilter : Nat) :
    Clause :=
  let flags : ClauseFlags := .ofBits flags
  let isCatch := flags.bits == 0
  { flags, tryOffset, tryLength, handlerOffset, handlerLength
    class? := if isCatch then some ⟨UInt32.ofNat classOrFilter⟩ else none
    filterOffset := if isCatch then 0 else classOrFilter }

def clauseAt (data : List UInt8) (isFat : Bool) (offset : Nat) : Except Error Clause := do
  if isFat then
    return clauseOf (← numberAt data offset 4) (← numberAt data (offset + 4) 4)
      (← numberAt data (offset + 8) 4) (← numberAt data (offset + 12) 4)
      (← numberAt data (offset + 16) 4) (← numberAt data (offset + 20) 4)
  else
    return clauseOf (← numberAt data offset 2) (← numberAt data (offset + 2) 2)
      (← numberAt data (offset + 4) 1) (← numberAt data (offset + 5) 2)
      (← numberAt data (offset + 7) 1) (← numberAt data (offset + 8) 4)

def clausesAt (data : List UInt8) (isFat : Bool) :
    (count offset : Nat) → Except Error (List Clause)
  | 0, _ => .ok []
  | count + 1, offset => do
    let clause ← clauseAt data isFat offset
    let size := if isFat then fatClauseSize else smallClauseSize
    return clause :: (← clausesAt data isFat count (offset + size))

/-- The clauses of the sections from an offset on.  Every section takes more than
four bytes or is the last one. -/
def sectionsAt (data : List UInt8) : (sections offset : Nat) → Except Error (List Clause)
  | 0, _ => .ok []
  | sections + 1, offset => do
    if data.length ≤ offset + 4 then return []
    let flags ← numberAt data offset 1
    if !hasFlag flags clauseTable then return []
    let isFat := hasFlag flags fatSection
    let size ←
      if isFat then (· % 0x1000000) <$> numberAt data (offset + 1) 4
      else numberAt data (offset + 1) 1
    if size < 4 || data.length < offset + size then throw .outOfBounds
    let clauseSize := if isFat then fatClauseSize else smallClauseSize
    let count := (size - 4) / clauseSize
    let clauses ← clausesAt data isFat count (offset + 4)
    if hasFlag flags sectionFollows then
      return clauses ++ (← sectionsAt data sections (offset + 4 + count * clauseSize))
    else return clauses

def alignedToFour (offset : Nat) : Nat := (offset + 3) / 4 * 4

def ofFatBytes (data : List UInt8) : Except Error Body := do
  if data.length < 12 then throw .outOfBounds
  let flags ← numberAt data 0 2
  let headerSize := flags / 0x1000 * 4
  let codeSize ← numberAt data 4 4
  if headerSize < 12 then throw (.malformed (.fatHeaderTooSmall headerSize))
  if data.length < codeSize + headerSize then throw .outOfBounds
  let localsToken ← numberAt data 8 4
  let maxStack ← numberAt data 2 2
  let clauses ←
    if hasFlag flags moreSections then
      sectionsAt data data.length (alignedToFour (headerSize + codeSize))
    else pure []
  return { codeSize, headerSize, localsToken := ⟨UInt32.ofNat localsToken⟩, maxStack
           isFat := true, initLocals := hasFlag flags initLocalsFlag, clauses }

/-- Reads the header and the sections of a method body. -/
def ofBytes : List UInt8 → Except Error Body
  | [] => .error (.malformed .emptyBody)
  | first :: rest =>
    if first.toNat % 4 = tinyFormat then
      let codeSize := first.toNat / 4
      if rest.length < codeSize then .error .outOfBounds
      else .ok
        { codeSize, headerSize := 1, localsToken := Token.null, maxStack := tinyMaxStack
          isFat := false, initLocals := false, clauses := [] }
    else if first.toNat % 4 = fatFormat then ofFatBytes (first :: rest)
    else .error (.malformed (.unknownHeader first.toNat))

def size (body : Body) : Nat := body.codeSize + body.headerSize

def hasClauses (body : Body) : Bool := !body.clauses.isEmpty

def locals? (body : Body) : Option Token :=
  if body.localsToken.isNull then none else some body.localsToken

/-- The code of a body in the bytes that it was read from. -/
def code (body : Body) (data : List UInt8) : Except Error (List UInt8) :=
  if body.size ≤ data.length then .ok ((data.drop body.headerSize).take body.codeSize)
  else .error .outOfBounds

/-! ## Writing -/

def classOrFilter (clause : Clause) : Nat :=
  match clause.class? with
  | some token => token.value.toNat
  | none => clause.filterOffset

/-- Whether a clause can be written in twelve bytes. -/
def fitsSmall (clause : Clause) : Bool :=
  clause.tryOffset ≤ 0xFFFF && clause.tryLength ≤ 0xFF && clause.handlerOffset ≤ 0xFFFF &&
    clause.handlerLength ≤ 0xFF

def smallClauseBytes (clause : Clause) : List UInt8 :=
  Number.toBytes 2 clause.flags.bits ++ Number.toBytes 2 clause.tryOffset ++
    Number.toBytes 1 clause.tryLength ++ Number.toBytes 2 clause.handlerOffset ++
    Number.toBytes 1 clause.handlerLength ++ Number.toBytes 4 (classOrFilter clause)

def fatClauseBytes (clause : Clause) : List UInt8 :=
  Number.toBytes 4 clause.flags.bits ++ Number.toBytes 4 clause.tryOffset ++
    Number.toBytes 4 clause.tryLength ++ Number.toBytes 4 clause.handlerOffset ++
    Number.toBytes 4 clause.handlerLength ++ Number.toBytes 4 (classOrFilter clause)

def sectionBytes (clauses : List Clause) : Except Error (List UInt8) :=
  let smallSize := clauses.length * smallClauseSize + 4
  let fatSize := clauses.length * fatClauseSize + 4
  if smallSize ≤ 0xFF && clauses.all fitsSmall then
    .ok (Number.toBytes 1 clauseTable ++ Number.toBytes 1 smallSize ++ Number.toBytes 2 0 ++
      clauses.flatMap smallClauseBytes)
  else if 0xFFFFFF < fatSize then .error (.malformed (.tooManyClauses clauses.length))
  else
    .ok (Number.toBytes 4 (clauseTable + fatSection + fatSize * 0x100) ++
      clauses.flatMap fatClauseBytes)

/-- The bytes of a method body: a tiny header if it says everything, else a fat
one. -/
def encode (code : List UInt8) (maxStack : Nat) (locals : Token) (initLocals : Bool)
    (clauses : List Clause) : Except Error (List UInt8) := do
  if code.length ≤ tinyMaxCode && maxStack ≤ tinyMaxStack && locals.isNull &&
      clauses.isEmpty then
    return UInt8.ofNat (code.length * 4 + tinyFormat) :: code
  if 0x100000000 ≤ code.length then throw (.malformed .codeTooLong)
  let flags := fatFormat + (if initLocals then initLocalsFlag else 0) +
    (if clauses.isEmpty then 0 else moreSections) + 3 * 0x1000
  let header := Number.toBytes 2 flags ++ Number.toBytes 2 maxStack ++
    Number.toBytes 4 code.length ++ Number.toBytes 4 locals.value.toNat
  let unpadded := header ++ code
  if clauses.isEmpty then return unpadded
  let padding := List.replicate (alignedToFour unpadded.length - unpadded.length) 0
  return unpadded ++ padding ++ (← sectionBytes clauses)

end Body

end Cil
