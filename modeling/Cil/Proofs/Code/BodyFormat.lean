import Cil.Machine.Callable
import Cil.Proofs.Stateful
import Mathlib.Tactic.MkIffOfInductiveProp

/-!
# Method bodies are read back

A written method body reads as what was written: the code, the locals, the clauses in their
order and, with a fat header, the stack height and how locals start.

A section has one word for both the class and the filter of a clause.  So a clause is read back
as it was if it has one of the two, as its kind says, and else with what its kind makes of the
word.
-/

namespace Cil

open Stateful

/-! ## Numbers -/

namespace Number

theorem ofBytes_append (low high : List UInt8) :
    ofBytes (low ++ high) = ofBytes low + Nat.pow 256 low.length * ofBytes high := by
  induction low with
  | nil => simp [ofBytes]
  | cons byte low ih =>
      have step : Nat.pow 256 (low.length + 1) = 256 * Nat.pow 256 low.length := Nat.mul_comm ..
      rw [List.cons_append, ofBytes, ih, ofBytes, List.length_cons, step, Nat.mul_add,
        Nat.add_assoc, Nat.mul_assoc]

theorem ofBytes_toBytes_of_lt {width number : Nat} (fits : number < Nat.pow 256 width) :
    ofBytes (toBytes width number) = number := by
  rw [ofBytes_toBytes, Nat.mod_eq_of_lt fits]

end Number

/-! ## Clauses -/

namespace Clause

/-- The fields are words of the widths that a section has for them. -/
@[mk_iff]
structure WordSized (clause : Clause) : Prop where
  flags : clause.flags.bits < 0x10000
  tryOffset : clause.tryOffset < 0x100000000
  tryLength : clause.tryLength < 0x100000000
  handlerOffset : clause.handlerOffset < 0x100000000
  handlerLength : clause.handlerLength < 0x100000000
  filterOffset : clause.filterOffset < 0x100000000

/-- The flags are known ones, exactly catch clauses have a class, and catch clauses have no
filter. -/
@[mk_iff]
structure Canonical (clause : Clause) : Prop where
  knownFlags : clause.flags.bits &&& 0x7 = clause.flags.bits
  class_iff : clause.class?.isSome ↔ clause.kind = .catchClause
  noFilter : clause.kind = .catchClause → clause.filterOffset = 0

instance (clause : Clause) : Decidable clause.WordSized :=
  decidable_of_iff' _ (wordSized_iff clause)

instance (clause : Clause) : Decidable clause.Canonical :=
  decidable_of_iff' _ (canonical_iff clause)

/-- What a clause is read back as. -/
def stored (clause : Clause) : Clause :=
  Body.clauseOf clause.flags.bits clause.tryOffset clause.tryLength clause.handlerOffset
    clause.handlerLength (Body.classOrFilter clause)

theorem kind_eq_catchClause_iff {clause : Clause}
    (known : clause.flags.bits &&& 0x7 = clause.flags.bits) :
    clause.kind = .catchClause ↔ clause.flags.bits = 0 := by
  have small : clause.flags.bits < 8 := by
    have bound : clause.flags.bits &&& 0x7 ≤ 0x7 := Nat.and_le_right
    omega
  have each : ∀ bits < 8, (if bits &&& 1 == 1 then ClauseKind.filterClause
      else if bits &&& 2 == 2 then .finallyClause
      else if bits &&& 4 == 4 then .faultClause else .catchClause) = .catchClause ↔ bits = 0 := by
    decide
  exact each _ small

theorem Canonical.stored_eq {clause : Clause} (canonical : clause.Canonical) :
    clause.stored = clause := by
  obtain ⟨known, class_iff, noFilter⟩ := canonical
  rw [kind_eq_catchClause_iff known] at class_iff noFilter
  obtain ⟨⟨bits⟩, tryOffset, tryLength, handlerOffset, handlerLength, class?, filterOffset⟩ := clause
  dsimp only at known class_iff noFilter
  simp only [stored, Body.clauseOf, Flags.ofBits, known, Body.classOrFilter]
  by_cases isCatch : bits = 0
  · obtain ⟨token, rfl⟩ := Option.isSome_iff_exists.mp (class_iff.mpr isCatch)
    simp [isCatch, noFilter isCatch]
  · obtain rfl : class? = none := by
      cases class? with
      | none => rfl
      | some token => exact absurd (class_iff.mp rfl) isCatch
    simp [isCatch]

end Clause

namespace Body

/-! ## Reading sections -/

theorem numberAt_append (before data : List UInt8) (offset width : Nat) :
    numberAt (before ++ data) (before.length + offset) width = numberAt data offset width := by
  simp [numberAt]

theorem numberAt_of_eq {data : List UInt8} {offset width number : Nat}
    (read : numberAt data offset width = .ok (Number.ofBytes (Number.toBytes width number)))
    (fits : number < Nat.pow 256 width) : numberAt data offset width = .ok number := by
  rw [read, Number.ofBytes_toBytes_of_lt fits]

theorem classOrFilter_lt {clause : Clause} (sized : clause.WordSized) :
    classOrFilter clause < 0x100000000 := by
  unfold classOrFilter
  split
  · exact UInt32.toNat_lt _
  · exact sized.filterOffset

def clauseBytes (isFat : Bool) (clause : Clause) : List UInt8 :=
  if isFat then fatClauseBytes clause else smallClauseBytes clause

def clauseSize (isFat : Bool) : Nat :=
  if isFat then fatClauseSize else smallClauseSize

theorem length_clauseBytes (isFat : Bool) (clause : Clause) :
    (clauseBytes isFat clause).length = clauseSize isFat := by
  cases isFat <;> rfl

theorem length_flatMap_clauseBytes (isFat : Bool) (clauses : List Clause) :
    (clauses.flatMap (clauseBytes isFat)).length = clauses.length * clauseSize isFat := by
  induction clauses with
  | nil => simp
  | cons clause clauses ih =>
      rw [List.flatMap_cons, List.length_append, length_clauseBytes, ih, List.length_cons,
        Nat.add_one_mul, Nat.add_comm]

theorem clauseAt_append (before data : List UInt8) (isFat : Bool) (offset : Nat) :
    clauseAt (before ++ data) isFat (before.length + offset) = clauseAt data isFat offset := by
  simp only [clauseAt, Nat.add_assoc, numberAt_append]

theorem clauseAt_fatClauseBytes {clause : Clause} (sized : clause.WordSized)
    (rest : List UInt8) :
    clauseAt (fatClauseBytes clause ++ rest) true 0 = .ok clause.stored := by
  have flags : numberAt (fatClauseBytes clause ++ rest) 0 4 = .ok clause.flags.bits :=
    numberAt_of_eq rfl (Nat.lt_trans sized.flags (by decide))
  have tryOffset : numberAt (fatClauseBytes clause ++ rest) 4 4 = .ok clause.tryOffset :=
    numberAt_of_eq rfl sized.tryOffset
  have tryLength : numberAt (fatClauseBytes clause ++ rest) 8 4 = .ok clause.tryLength :=
    numberAt_of_eq rfl sized.tryLength
  have handlerOffset :
      numberAt (fatClauseBytes clause ++ rest) 12 4 = .ok clause.handlerOffset :=
    numberAt_of_eq rfl sized.handlerOffset
  have handlerLength :
      numberAt (fatClauseBytes clause ++ rest) 16 4 = .ok clause.handlerLength :=
    numberAt_of_eq rfl sized.handlerLength
  have word : numberAt (fatClauseBytes clause ++ rest) 20 4 = .ok (classOrFilter clause) :=
    numberAt_of_eq rfl (classOrFilter_lt sized)
  simp only [clauseAt, if_true, Nat.zero_add, flags, tryOffset, tryLength, handlerOffset,
    handlerLength, word]
  rfl

theorem clauseAt_smallClauseBytes {clause : Clause} (sized : clause.WordSized)
    (fits : fitsSmall clause) (rest : List UInt8) :
    clauseAt (smallClauseBytes clause ++ rest) false 0 = .ok clause.stored := by
  simp only [fitsSmall, Bool.and_eq_true, decide_eq_true_eq] at fits
  obtain ⟨⟨⟨tryOffsetFits, tryLengthFits⟩, handlerOffsetFits⟩, handlerLengthFits⟩ := fits
  have flags : numberAt (smallClauseBytes clause ++ rest) 0 2 = .ok clause.flags.bits :=
    numberAt_of_eq rfl sized.flags
  have tryOffset : numberAt (smallClauseBytes clause ++ rest) 2 2 = .ok clause.tryOffset :=
    numberAt_of_eq rfl (Nat.lt_succ_of_le tryOffsetFits)
  have tryLength : numberAt (smallClauseBytes clause ++ rest) 4 1 = .ok clause.tryLength :=
    numberAt_of_eq rfl (Nat.lt_succ_of_le tryLengthFits)
  have handlerOffset :
      numberAt (smallClauseBytes clause ++ rest) 5 2 = .ok clause.handlerOffset :=
    numberAt_of_eq rfl (Nat.lt_succ_of_le handlerOffsetFits)
  have handlerLength :
      numberAt (smallClauseBytes clause ++ rest) 7 1 = .ok clause.handlerLength :=
    numberAt_of_eq rfl (Nat.lt_succ_of_le handlerLengthFits)
  have word : numberAt (smallClauseBytes clause ++ rest) 8 4 = .ok (classOrFilter clause) :=
    numberAt_of_eq rfl (classOrFilter_lt sized)
  simp only [clauseAt, Bool.false_eq_true, if_false, Nat.zero_add, flags, tryOffset, tryLength,
    handlerOffset, handlerLength, word]
  rfl

theorem clauseAt_clauseBytes {clause : Clause} (sized : clause.WordSized) {isFat : Bool}
    (fits : isFat = false → fitsSmall clause) (rest : List UInt8) :
    clauseAt (clauseBytes isFat clause ++ rest) isFat 0 = .ok clause.stored := by
  cases isFat with
  | true => exact clauseAt_fatClauseBytes sized rest
  | false => exact clauseAt_smallClauseBytes sized (fits rfl) rest

theorem clausesAt_flatMap {clauses : List Clause} (sized : ∀ clause ∈ clauses, clause.WordSized)
    {isFat : Bool} (fits : isFat = false → ∀ clause ∈ clauses, fitsSmall clause)
    (before : List UInt8) :
    clausesAt (before ++ clauses.flatMap (clauseBytes isFat)) isFat clauses.length
      before.length = .ok (clauses.map Clause.stored) := by
  induction clauses generalizing before with
  | nil => rfl
  | cons clause clauses ih =>
      obtain ⟨clauseSized, sized⟩ := List.forall_mem_cons.mp sized
      have clauseFits (small : isFat = false) : fitsSmall clause :=
        (List.forall_mem_cons.mp (fits small)).1
      have first : clauseAt (before ++ (clause :: clauses).flatMap (clauseBytes isFat)) isFat
          before.length = .ok clause.stored := by
        rw [← Nat.add_zero before.length, clauseAt_append, List.flatMap_cons]
        exact clauseAt_clauseBytes clauseSized clauseFits _
      have others : clausesAt (before ++ (clause :: clauses).flatMap (clauseBytes isFat)) isFat
          clauses.length (before.length + clauseSize isFat) =
            .ok (clauses.map Clause.stored) := by
        have later := ih sized (fun small => (List.forall_mem_cons.mp (fits small)).2)
          (before ++ clauseBytes isFat clause)
        rwa [List.length_append, length_clauseBytes, List.append_assoc,
          ← List.flatMap_cons] at later
      unfold clauseSize at others
      rw [List.length_cons, clausesAt, first]
      simp only [bind, Except.bind, others]
      rfl

/-- The part of a section in front of its clauses. -/
def sectionHeader (isFat : Bool) (size : Nat) : List UInt8 :=
  if isFat then UInt8.ofNat (clauseTable + fatSection) :: Number.toBytes 3 size
  else [UInt8.ofNat clauseTable, UInt8.ofNat size, 0, 0]

theorem length_sectionHeader (isFat : Bool) (size : Nat) :
    (sectionHeader isFat size).length = 4 := by
  cases isFat <;> rfl

/-- A section is written in the narrow form if all clauses and their number fit. -/
theorem sectionBytes_eq_ok {clauses : List Clause} {bytes : List UInt8}
    (written : sectionBytes clauses = .ok bytes) :
    ∃ isFat, bytes = sectionHeader isFat (clauses.length * clauseSize isFat + 4) ++
        clauses.flatMap (clauseBytes isFat) ∧
      (isFat = false → ∀ clause ∈ clauses, fitsSmall clause) ∧
      clauses.length * clauseSize isFat + 4 < if isFat then 0x1000000 else 0x100 := by
  unfold sectionBytes at written
  dsimp only at written
  split at written
  case isTrue small =>
    obtain ⟨size, fits⟩ := Bool.and_eq_true_iff.mp small
    have size := of_decide_eq_true size
    cases written
    refine ⟨false, ?_, fun _ => List.all_eq_true.mp fits, ?_⟩
    · have low : (clauses.length * smallClauseSize + 4) % 256 =
          clauses.length * smallClauseSize + 4 := Nat.mod_eq_of_lt (by omega)
      have table : clauseTable % 256 = clauseTable := rfl
      simp only [sectionHeader, clauseSize, Number.toBytes, low, table, Bool.false_eq_true,
        if_false]
      rfl
    · simpa [clauseSize] using Nat.lt_succ_of_le size
  case isFalse =>
    split at written
    · cases written
    rename_i size
    cases written
    refine ⟨true, ?_, fun isSmall => absurd isSmall (by decide), ?_⟩
    · have low : (clauseTable + fatSection +
          (clauses.length * fatClauseSize + 4) * 0x100) % 256 = clauseTable + fatSection := by
        simp only [clauseTable, fatSection]
        omega
      have high : (clauseTable + fatSection +
          (clauses.length * fatClauseSize + 4) * 0x100) / 256 =
            clauses.length * fatClauseSize + 4 := by
        simp only [clauseTable, fatSection]
        omega
      rw [Number.toBytes, low, high]
      rfl
    · simp only [clauseSize, if_true]
      omega

theorem sectionFlags_read (before : List UInt8) (isFat : Bool) (size : Nat)
    (rest : List UInt8) :
    numberAt (before ++ (sectionHeader isFat size ++ rest)) before.length 1 =
      .ok (if isFat then clauseTable + fatSection else clauseTable) := by
  have read := numberAt_append before (sectionHeader isFat size ++ rest) 0 1
  rw [Nat.add_zero] at read
  rw [read]
  cases isFat <;> rfl

/-- The size of a section in the wide form is read with the byte behind it, which is dropped. -/
theorem sectionSize_read (before : List UInt8) {isFat : Bool} {size : Nat}
    (small : size < if isFat then 0x1000000 else 0x100) {rest : List UInt8}
    (more : rest ≠ []) :
    (if isFat then (· % 0x1000000) <$>
        numberAt (before ++ (sectionHeader isFat size ++ rest)) (before.length + 1) 4
      else numberAt (before ++ (sectionHeader isFat size ++ rest)) (before.length + 1) 1) =
      .ok size := by
  obtain ⟨byte, rest, rfl⟩ := List.exists_cons_of_ne_nil more
  cases isFat with
  | true =>
      have read : numberAt (sectionHeader true size ++ byte :: rest) 1 4 =
          .ok (Number.ofBytes (Number.toBytes 3 size ++ [byte])) := rfl
      have low : Number.ofBytes (Number.toBytes 3 size ++ [byte]) % 0x1000000 = size := by
        rw [Number.ofBytes_append, Number.toBytes_length, Number.ofBytes_toBytes_of_lt small]
        have power : Nat.pow 256 3 = 0x1000000 := rfl
        simp only [if_true] at small
        rw [power, Nat.add_mul_mod_self_left, Nat.mod_eq_of_lt small]
      rw [if_pos rfl, numberAt_append, read]
      exact congrArg Except.ok low
  | false =>
      have fits : size < Nat.pow 256 1 := small
      rw [if_neg (by decide), numberAt_append]
      refine numberAt_of_eq ?_ fits
      have low : size % 256 = size := Nat.mod_eq_of_lt fits
      simp only [Number.toBytes, low]
      rfl

/-- A section is a table of clauses of one width, with no other section behind it. -/
theorem hasFlag_section (isFat : Bool) :
    hasFlag (if isFat then clauseTable + fatSection else clauseTable) clauseTable = true ∧
      hasFlag (if isFat then clauseTable + fatSection else clauseTable) fatSection = isFat ∧
      hasFlag (if isFat then clauseTable + fatSection else clauseTable) sectionFollows =
        false := by
  cases isFat <;> decide

theorem sectionsAt_section {clauses : List Clause} (sized : ∀ clause ∈ clauses, clause.WordSized)
    (nonempty : clauses ≠ []) {bytes : List UInt8} (written : sectionBytes clauses = .ok bytes)
    (before : List UInt8) (sections : Nat) :
    sectionsAt (before ++ bytes) (sections + 1) before.length =
      .ok (clauses.map Clause.stored) := by
  obtain ⟨isFat, rfl, fits, small⟩ := sectionBytes_eq_ok written
  have count : 0 < clauses.length := List.length_pos_iff.mpr nonempty
  have width : 12 ≤ clauseSize isFat := by cases isFat <;> decide
  have product : clauseSize isFat ≤ clauses.length * clauseSize isFat :=
    Nat.le_mul_of_pos_left _ count
  have tableLength := length_flatMap_clauseBytes isFat clauses
  have more : clauses.flatMap (clauseBytes isFat) ≠ [] := by
    rw [← List.length_pos_iff, tableLength]
    omega
  have flags := sectionFlags_read before isFat (clauses.length * clauseSize isFat + 4)
    (clauses.flatMap (clauseBytes isFat))
  have size := sectionSize_read before small more
  have table := clausesAt_flatMap sized fits
    (before ++ sectionHeader isFat (clauses.length * clauseSize isFat + 4))
  rw [List.append_assoc, List.length_append, length_sectionHeader] at table
  generalize sectionEq : before ++ (sectionHeader isFat (clauses.length * clauseSize isFat + 4) ++
    clauses.flatMap (clauseBytes isFat)) = data at *
  have length : data.length = before.length + 4 + clauses.length * clauseSize isFat := by
    rw [← sectionEq, List.length_append, List.length_append, length_sectionHeader, tableLength]
    omega
  have inside : ¬ data.length ≤ before.length + 4 := by omega
  have sizeFits : (decide (clauses.length * clauseSize isFat + 4 < 4) ||
      decide (data.length < before.length + (clauses.length * clauseSize isFat + 4))) = false := by
    simp only [Bool.or_eq_false_iff, decide_eq_false_iff_not]
    omega
  have counted : (clauses.length * clauseSize isFat + 4 - 4) / clauseSize isFat =
      clauses.length := by
    rw [Nat.add_sub_cancel, Nat.mul_div_cancel _ (by omega)]
  obtain ⟨isTable, isWide, isLast⟩ := hasFlag_section isFat
  unfold sectionsAt
  rw [if_neg inside, flags]
  have folded : (if isFat = true then fatClauseSize else smallClauseSize) = clauseSize isFat :=
    rfl
  simp only [bind, Except.bind, isTable, isWide, isLast, folded, Bool.not_true,
    Bool.false_eq_true, if_false]
  split
  case isTrue wide =>
    rw [if_pos wide] at size
    simp only [size, sizeFits, counted, table, Bool.false_eq_true, if_false]
    rfl
  case isFalse narrow =>
    rw [if_neg narrow] at size
    simp only [size, sizeFits, counted, table, Bool.false_eq_true, if_false]
    rfl

/-! ## Reading headers -/

/-- Whether a tiny header says everything about a body. -/
def isTiny (code : List UInt8) (maxStack : Nat) (locals : Token) (clauses : List Clause) : Bool :=
  code.length ≤ tinyMaxCode && maxStack ≤ tinyMaxStack && locals.isNull && clauses.isEmpty

/-- The flags in a fat header. -/
def fatFlags (initLocals hasSections : Bool) : Nat :=
  fatFormat + (if initLocals then initLocalsFlag else 0) +
    (if hasSections then moreSections else 0) + 3 * 0x1000

def fatHeader (initLocals hasSections : Bool) (maxStack codeSize : Nat) (locals : Token) :
    List UInt8 :=
  Number.toBytes 2 (fatFlags initLocals hasSections) ++ Number.toBytes 2 maxStack ++
    Number.toBytes 4 codeSize ++ Number.toBytes 4 locals.value.toNat

/-- What stands behind the code in a body with a fat header. -/
inductive Sections : (codeSize : Nat) → (clauses : List Clause) → List UInt8 → Prop
  | none (codeSize : Nat) : Sections codeSize [] []
  | table {codeSize : Nat} {clauses : List Clause} {bytes : List UInt8}
      (nonempty : clauses ≠ []) (written : sectionBytes clauses = .ok bytes) :
      Sections codeSize clauses
        (List.replicate (alignedToFour (12 + codeSize) - (12 + codeSize)) 0 ++ bytes)

theorem encode_eq_ok {code : List UInt8} {maxStack : Nat} {locals : Token} {initLocals : Bool}
    {clauses : List Clause} {bytes : List UInt8}
    (written : encode code maxStack locals initLocals clauses = .ok bytes) :
    (isTiny code maxStack locals clauses = true ∧
        bytes = UInt8.ofNat (code.length * 4 + tinyFormat) :: code) ∨
      isTiny code maxStack locals clauses = false ∧ code.length < 0x100000000 ∧
        ∃ sections, Sections code.length clauses sections ∧
          bytes = fatHeader initLocals (!clauses.isEmpty) maxStack code.length locals ++
            (code ++ sections) := by
  unfold encode at written
  split at written
  case isTrue tiny =>
    cases written
    exact .inl ⟨tiny, rfl⟩
  case isFalse fat =>
    refine .inr ⟨Bool.eq_false_iff.mpr fat, ?_⟩
    dsimp only at written
    by_cases long : 0x100000000 ≤ code.length
    · rw [if_pos long] at written
      cases written
    rw [if_neg long] at written
    refine ⟨Nat.lt_of_not_le long, ?_⟩
    by_cases empty : clauses.isEmpty = true
    · obtain rfl := List.isEmpty_iff.mp empty
      cases written
      exact ⟨[], .none _, by simp [fatHeader, fatFlags]⟩
    · rw [if_neg empty] at written
      obtain ⟨table, tableWritten, written⟩ := except_bind_eq_ok.mp written
      cases written
      refine ⟨_, .table (fun none => empty (List.isEmpty_iff.mpr none)) tableWritten, ?_⟩
      have length : 2 + (2 + (4 + (4 + code.length))) = 12 + code.length := by omega
      simp [fatHeader, fatFlags, empty, length]

theorem ofBytes_tiny {code : List UInt8} (short : code.length ≤ tinyMaxCode) :
    ofBytes (UInt8.ofNat (code.length * 4 + tinyFormat) :: code) =
      .ok { codeSize := code.length, headerSize := 1, localsToken := Token.null
            maxStack := tinyMaxStack, isFat := false, initLocals := false, clauses := [] } := by
  have small : code.length ≤ 0x3F := short
  have byte : (UInt8.ofNat (code.length * 4 + tinyFormat)).toNat = code.length * 4 + 2 := by
    rw [UInt8.toNat_ofNat']
    exact Nat.mod_eq_of_lt (by simp only [tinyFormat]; omega)
  have format : (code.length * 4 + 2) % 4 = tinyFormat := by
    simp only [tinyFormat]
    omega
  have size : (code.length * 4 + 2) / 4 = code.length := by omega
  simp only [ofBytes, byte, format, size, if_true, Nat.lt_irrefl, if_false]

theorem ofBytes_fat (initLocals hasSections : Bool) (maxStack codeSize : Nat) (locals : Token)
    (rest : List UInt8) :
    ofBytes (fatHeader initLocals hasSections maxStack codeSize locals ++ rest) =
      ofFatBytes (fatHeader initLocals hasSections maxStack codeSize locals ++ rest) := by
  cases initLocals <;> cases hasSections <;> rfl

/-- A fat header is read back, with the clauses of the sections that it announces. -/
theorem ofBytes_fatHeader {initLocals hasSections : Bool} {maxStack codeSize : Nat}
    {locals : Token} (stack : maxStack < 0x10000) (short : codeSize < 0x100000000)
    {rest data : List UInt8}
    (begins : fatHeader initLocals hasSections maxStack codeSize locals ++ rest = data)
    (inside : codeSize ≤ rest.length) {clauses : List Clause}
    (found : (if hasSections then
        sectionsAt data data.length (alignedToFour (12 + codeSize)) else .ok []) =
      .ok clauses) :
    ofBytes data =
      .ok { codeSize, headerSize := 12, localsToken := locals, maxStack, isFat := true
            initLocals, clauses } := by
  have flagsFit : fatFlags initLocals hasSections < Nat.pow 256 2 := by
    cases initLocals <;> cases hasSections <;> decide
  have flags : numberAt data 0 2 = .ok (fatFlags initLocals hasSections) := by
    rw [← begins]
    exact numberAt_of_eq rfl flagsFit
  have stackRead : numberAt data 2 2 = .ok maxStack := by
    rw [← begins]
    exact numberAt_of_eq rfl stack
  have sizeRead : numberAt data 4 4 = .ok codeSize := by
    rw [← begins]
    exact numberAt_of_eq rfl short
  have localsRead : numberAt data 8 4 = .ok locals.value.toNat := by
    rw [← begins]
    exact numberAt_of_eq rfl (UInt32.toNat_lt _)
  have length : data.length = 12 + rest.length := by
    rw [← begins, List.length_append]
    rfl
  have header : fatFlags initLocals hasSections / 0x1000 * 4 = 12 := by
    cases initLocals <;> cases hasSections <;> rfl
  have isInit : hasFlag (fatFlags initLocals hasSections) initLocalsFlag = initLocals := by
    cases initLocals <;> cases hasSections <;> rfl
  have announces : hasFlag (fatFlags initLocals hasSections) moreSections = hasSections := by
    cases initLocals <;> cases hasSections <;> rfl
  have token : UInt32.ofNat locals.value.toNat = locals.value := UInt32.ofNat_toNat
  have whole : ¬ data.length < 12 := by omega
  have wholeCode : ¬ data.length < codeSize + 12 := by omega
  rw [← begins, ofBytes_fat, begins]
  unfold ofFatBytes
  simp only [bind, Except.bind, whole, flags, sizeRead, header, Nat.lt_irrefl, wholeCode,
    localsRead, token, stackRead, isInit, announces, if_false]
  cases hasSections with
  | true =>
      rw [if_pos rfl] at found
      simp only [if_true, found]
      rfl
  | false =>
      cases found
      simp only [Bool.false_eq_true, if_false]
      rfl

theorem alignedToFour_ge (offset : Nat) : offset ≤ alignedToFour offset := by
  unfold alignedToFour
  omega

theorem Sections.read {codeSize : Nat} {clauses : List Clause} {sections : List UInt8}
    (stored : Sections codeSize clauses sections) (sized : ∀ clause ∈ clauses, clause.WordSized)
    {before data : List UInt8} (length : before.length = 12 + codeSize)
    (split : before ++ sections = data) :
    (if !clauses.isEmpty then sectionsAt data data.length (alignedToFour (12 + codeSize))
      else .ok []) = .ok (clauses.map Clause.stored) := by
  cases stored with
  | none => rfl
  | table nonempty written =>
      have filled : clauses.isEmpty = false := by simpa using nonempty
      have nonzero : data.length ≠ 0 := by
        rw [← split, List.length_append]
        omega
      obtain ⟨sections, sectionsEq⟩ := Nat.exists_eq_succ_of_ne_zero nonzero
      have aligned := alignedToFour_ge (12 + codeSize)
      have place : (before ++ List.replicate (alignedToFour (12 + codeSize) - (12 + codeSize))
          (0 : UInt8)).length = alignedToFour (12 + codeSize) := by
        rw [List.length_append, List.length_replicate, length]
        omega
      have read := sectionsAt_section sized nonempty written (before ++
        List.replicate (alignedToFour (12 + codeSize) - (12 + codeSize)) 0) sections
      rw [List.append_assoc, split, place] at read
      rw [filled, Bool.not_false, if_pos rfl, sectionsEq]
      exact read

/-! ## The round trip -/

/-- What a body that was read says about the method that was written. -/
structure ReadsBack (body : Body) (bytes code : List UInt8) (maxStack : Nat) (locals : Token)
    (initLocals : Bool) (clauses : List Clause) : Prop where
  code_eq : body.code bytes = .ok code
  locals_eq : body.localsToken = locals
  clauses_eq : body.clauses = clauses
  isFat_eq : body.isFat = !isTiny code maxStack locals clauses
  fat : body.isFat = true → body.maxStack = maxStack ∧ body.initLocals = initLocals
  tiny : body.isFat = false → body.maxStack = tinyMaxStack

theorem exists_readsBack {code : List UInt8} {maxStack : Nat} {locals : Token}
    {initLocals : Bool} {clauses : List Clause} {bytes : List UInt8} (stack : maxStack < 0x10000)
    (sized : ∀ clause ∈ clauses, clause.WordSized)
    (written : encode code maxStack locals initLocals clauses = .ok bytes) :
    ∃ body, ofBytes bytes = .ok body ∧
      body.ReadsBack bytes code maxStack locals initLocals (clauses.map Clause.stored) := by
  have isTiny_map : isTiny code maxStack locals (clauses.map Clause.stored) =
      isTiny code maxStack locals clauses := by
    simp [isTiny]
  rcases encode_eq_ok written with ⟨tiny, rfl⟩ | ⟨fat, short, sections, stored, rfl⟩
  · have limits := tiny
    simp only [isTiny, Bool.and_eq_true, decide_eq_true_eq, List.isEmpty_iff] at limits
    obtain ⟨⟨⟨small, _⟩, noLocals⟩, rfl⟩ := limits
    refine ⟨_, ofBytes_tiny small, ?_, ?_, rfl, ?_, nofun, fun _ => rfl⟩
    · simp [Body.code, size]
    · obtain ⟨value⟩ := locals
      exact congrArg Token.mk (eq_of_beq noLocals).symm
    · simp [tiny]
  · have headed : (fatHeader initLocals (!clauses.isEmpty) maxStack code.length locals ++
        code).length = 12 + code.length := by
      rw [List.length_append]
      rfl
    have sectionsRead := stored.read sized headed (List.append_assoc ..)
    refine ⟨_, ofBytes_fatHeader stack short rfl (by simp) sectionsRead, ?_, rfl, rfl, ?_,
      fun _ => ⟨rfl, rfl⟩, nofun⟩
    · have length : (fatHeader initLocals (!clauses.isEmpty) maxStack code.length
          locals).length = 12 := rfl
      simp [Body.code, size, length]
      omega
    · simp [isTiny_map, fat]

/-- A written body reads as the method that it was written for, and the body of a method that was
assembled at run time can always be read. -/
theorem encode_reads_back :
    (∀ (code : List UInt8) (maxStack : Nat) (locals : Token) (initLocals : Bool)
        (clauses : List Clause) (bytes : List UInt8), maxStack < 0x10000 →
      (∀ clause ∈ clauses, clause.WordSized ∧ clause.Canonical) →
      encode code maxStack locals initLocals clauses = .ok bytes →
      ∃ body, ofBytes bytes = .ok body ∧
        body.ReadsBack bytes code maxStack locals initLocals clauses) ∧
    ∀ (name : String) (origin : MethodIdentity) (params : List TypeSig) (returnType : TypeSig)
        (locals : List LocalVariable) (scope : Scope) (code : List UInt8) (maxStack : Nat)
        (clauses : List Clause) (method : DynamicMethod), maxStack < 0x10000 →
      (∀ clause ∈ clauses, clause.WordSized) →
      DynamicMethod.ofCode name origin params returnType locals scope code maxStack clauses =
        .ok method →
      ∃ body, ofBytes method.body = .ok body ∧ body.code method.body = .ok code ∧
        ((∀ clause ∈ clauses, clause.Canonical) → body.clauses = clauses) := by
  have stored_eq {clauses : List Clause} (canonical : ∀ clause ∈ clauses, clause.Canonical) :
      clauses.map Clause.stored = clauses :=
    (List.map_congr_left fun clause member => (canonical clause member).stored_eq).trans
      (List.map_id _)
  constructor
  · intro code maxStack locals initLocals clauses bytes stack regular written
    obtain ⟨body, read, readsBack⟩ :=
      exists_readsBack stack (fun clause member => (regular clause member).1) written
    rw [stored_eq fun clause member => (regular clause member).2] at readsBack
    exact ⟨body, read, readsBack⟩
  · intro name origin params returnType locals scope code maxStack clauses method stack sized
      assembled
    obtain ⟨bytes, written, assembled⟩ := except_bind_eq_ok.mp assembled
    obtain ⟨decoded, _, assembled⟩ := except_bind_eq_ok.mp assembled
    cases assembled
    obtain ⟨body, read, readsBack⟩ := exists_readsBack stack sized written
    refine ⟨body, read, readsBack.code_eq, fun canonical => ?_⟩
    rw [readsBack.clauses_eq, stored_eq canonical]

/-! ## A filtered range -/

namespace Filtered

/-- A guarded range of two bytes, its filter and its handler. -/
def bytes : List UInt8 := [0xDE, 0x07, 0x26, 0x17, 0xFE, 0x11, 0x26, 0xDE, 0x00, 0x2A]

def clause : Clause := ⟨.filter, 0, 2, 6, 3, none, 2⟩

def method : DynamicMethod :=
  ((DynamicMethod.ofCode "Filtered" default [] .void [] {} bytes 8 [clause]).toOption).getD default

theorem method_assembled :
    DynamicMethod.ofCode "Filtered" default [] .void [] {} bytes 8 [clause] = .ok method := by
  have assembles : (DynamicMethod.ofCode "Filtered" default [] .void [] {} bytes 8
      [clause]).toOption.isSome := by
    decide +kernel
  unfold method
  cases made : DynamicMethod.ofCode "Filtered" default [] .void [] {} bytes 8 [clause] with
  | error error => rw [made] at assembles; cases assembles
  | ok method => rfl

theorem filter_reads_back :
    (∃ written body, encode bytes 2 ⟨0x11000001⟩ false [clause] = .ok written ∧
      ofBytes written = .ok body ∧
      body.ReadsBack written bytes 2 ⟨0x11000001⟩ false [clause]) ∧
    ∃ body, ofBytes method.body = .ok body ∧ body.clauses = [clause] := by
  have regular : ∀ filtered ∈ [clause], filtered.WordSized ∧ filtered.Canonical := by
    decide
  constructor
  · obtain ⟨body, read, readsBack⟩ :=
      encode_reads_back.1 bytes 2 ⟨0x11000001⟩ false [clause] _ (by decide) regular rfl
    exact ⟨_, body, rfl, read, readsBack⟩
  · obtain ⟨body, read, _, clauses⟩ := encode_reads_back.2 _ _ _ _ _ _ _ _ _ _ (by decide)
      (fun filtered member => (regular filtered member).1) method_assembled
    exact ⟨body, read, clauses fun filtered member => (regular filtered member).2⟩

end Filtered

end Body

end Cil
