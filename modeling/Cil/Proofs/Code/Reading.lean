import Cil.Code.Decode
import Cil.Proofs.Stateful

/-!
# Reading what was written

The bytes of an instruction are the code of its opcode and the bytes of its operand.
Reading them gives the instruction back, and a sequence of encoded instructions reads as
that sequence, each instruction at the offset where its bytes begin.
-/

namespace Cil

open Stateful

/-! ## Reading bytes -/

/-- An action reads bytes as a value, whatever stands behind them. -/
def Reads {α : Type} (action : CursorM α) (bytes : List UInt8) (value : α) : Prop :=
  ∀ (cursor : Cursor) (more : List UInt8), cursor.rest = bytes ++ more →
    ∃ next, action cursor = .ok value next ∧ next.rest = more ∧
      next.position = cursor.position + bytes.length

namespace Reads

variable {α β : Type}

theorem pure (value : α) : Reads (Pure.pure value) [] value :=
  fun cursor _ restEq => ⟨cursor, rfl, restEq, rfl⟩

theorem bind {first : CursorM α} {next : α → CursorM β} {bytes more : List UInt8}
    {value : α} {result : β} (firstReads : Reads first bytes value)
    (nextReads : Reads (next value) more result) :
    Reads (first >>= next) (bytes ++ more) result := by
  intro cursor rest restEq
  obtain ⟨middle, firstRan, middleRest, middlePosition⟩ :=
    firstReads cursor (more ++ rest) (by rw [restEq, List.append_assoc])
  obtain ⟨final, nextRan, finalRest, finalPosition⟩ := nextReads middle rest middleRest
  refine ⟨final, bind_eq_ok.mpr ⟨value, middle, firstRan, nextRan⟩, finalRest, ?_⟩
  rw [finalPosition, middlePosition, List.length_append, Nat.add_assoc]

theorem map {action : CursorM α} {bytes : List UInt8} {value : α} (reads : Reads action bytes value)
    (change : α → β) : Reads (do return change (← action)) bytes (change value) := by
  intro cursor more restEq
  obtain ⟨next, ran, nextRest, nextPosition⟩ := reads cursor more restEq
  exact ⟨next, bind_eq_ok.mpr ⟨value, next, ran, rfl⟩, nextRest, nextPosition⟩

end Reads

namespace Cursor

theorem reads_readBytes (bytes : List UInt8) : Reads (readBytes bytes.length) bytes bytes := by
  intro cursor more restEq
  have inside : bytes.length ≤ cursor.rest.length := by simp [restEq]
  refine ⟨cursor.skip bytes.length inside, ?_, ?_, rfl⟩
  · simp [readBytes, restEq]
  · simp [skip, restEq]

theorem reads_readNat (width : Nat) {number : Nat} (fits : number < Nat.pow 256 width) :
    Reads (readNat width) (Number.toBytes width number) number := by
  have bytesRead := (reads_readBytes (Number.toBytes width number)).map Number.ofBytes
  rw [Number.toBytes_length, Number.ofBytes_toBytes, Nat.mod_eq_of_lt fits] at bytesRead
  exact bytesRead

theorem reads_readInt (width : Nat) {number : Nat} (fits : number < Nat.pow 256 width) :
    Reads (readInt width) (Number.toBytes width number)
      (Int.bmod number (Nat.pow 256 width)) :=
  (reads_readNat width fits).map fun number => Int.bmod number (Nat.pow 256 width)

end Cursor

/-! ## Signed numbers -/

namespace Number

theorem bmod_int8 (value : Int8) : Int.bmod value.toUInt8.toNat (Nat.pow 256 1) = value.toInt :=
  (BitVec.toInt_eq_toNat_bmod value.toBitVec).symm

theorem bmod_int16 (value : Int16) :
    Int.bmod value.toUInt16.toNat (Nat.pow 256 2) = value.toInt :=
  (BitVec.toInt_eq_toNat_bmod value.toBitVec).symm

theorem bmod_int32 (value : Int32) :
    Int.bmod value.toUInt32.toNat (Nat.pow 256 4) = value.toInt :=
  (BitVec.toInt_eq_toNat_bmod value.toBitVec).symm

theorem bmod_int64 (value : Int64) :
    Int.bmod value.toUInt64.toNat (Nat.pow 256 8) = value.toInt :=
  (BitVec.toInt_eq_toNat_bmod value.toBitVec).symm

end Number

/-! ## Operands -/

/-- The operands that reading gives for a form. -/
inductive Operand.Fits : OperandKind → Operand → Prop
  | none : Fits .none .none
  | int8 (value : Int8) : Fits .int8 (.immediate (.int8 value))
  | uint8 (value : UInt8) : Fits .uint8 (.immediate (.uint8 value))
  | int16 (value : Int16) : Fits .int16 (.immediate (.int16 value))
  | uint16 (value : UInt16) : Fits .uint16 (.immediate (.uint16 value))
  | int32 (value : Int32) : Fits .int32 (.immediate (.int32 value))
  | uint32 (value : UInt32) : Fits .uint32 (.immediate (.uint32 value))
  | int64 (value : Int64) : Fits .int64 (.immediate (.int64 value))
  | uint64 (value : UInt64) : Fits .uint64 (.immediate (.uint64 value))
  | float32 (bits : UInt32) : Fits .float32 (.immediate (.float32 bits))
  | float64 (bits : UInt64) : Fits .float64 (.immediate (.float64 bits))
  | token (name : Token) : Fits .token (.token name)
  | switch (displacements : List Int32) (count : displacements.length < 0x100000000) :
      Fits .switch (.switch displacements)

def displacementBytes (displacements : List Int32) : List UInt8 :=
  displacements.flatMap fun displacement => Number.toBytes 4 displacement.toUInt32.toNat

def Operand.bytes : Operand → List UInt8
  | .immediate value => Number.toBytes value.width value.bits
  | .token name => Number.toBytes 4 name.value.toNat
  | .switch displacements =>
      Number.toBytes 4 displacements.length ++ displacementBytes displacements
  | .none | .target _ | .localIndex _ | .argumentIndex _ => []

@[simp]
theorem length_displacementBytes (displacements : List Int32) :
    (displacementBytes displacements).length = displacements.length * 4 := by
  induction displacements with
  | nil => rfl
  | cons displacement displacements ih =>
      simp only [displacementBytes, List.flatMap_cons, List.length_append,
        Number.toBytes_length, List.length_cons] at ih ⊢
      omega

namespace Instruction

theorem reads_readDisplacements (displacements : List Int32) :
    Reads (readDisplacements displacements.length) (displacementBytes displacements)
      displacements := by
  induction displacements with
  | nil => exact Reads.pure []
  | cons displacement displacements ih =>
      have head : Reads (Cursor.readInt 4) (Number.toBytes 4 displacement.toUInt32.toNat)
          displacement.toInt := by
        rw [← Number.bmod_int32]
        exact Cursor.reads_readInt 4 displacement.toUInt32.toNat_lt
      refine head.bind ?_
      rw [Int32.ofInt_toInt]
      exact ih.map fun rest => displacement :: rest

theorem reads_readOperand {kind : OperandKind} {operand : Operand} (fits : operand.Fits kind) :
    Reads (readOperand kind) operand.bytes operand := by
  cases fits with
  | none => exact Reads.pure _
  | int8 value =>
      have number := (Cursor.reads_readInt 1 value.toUInt8.toNat_lt).map fun number =>
        Operand.immediate (.int8 (Int8.ofInt number))
      rwa [Number.bmod_int8, Int8.ofInt_toInt] at number
  | uint8 value =>
      have number := (Cursor.reads_readNat 1 value.toNat_lt).map fun number =>
        Operand.immediate (.uint8 (UInt8.ofNat number))
      rwa [UInt8.ofNat_toNat] at number
  | int16 value =>
      have number := (Cursor.reads_readInt 2 value.toUInt16.toNat_lt).map fun number =>
        Operand.immediate (.int16 (Int16.ofInt number))
      rwa [Number.bmod_int16, Int16.ofInt_toInt] at number
  | uint16 value =>
      have number := (Cursor.reads_readNat 2 value.toNat_lt).map fun number =>
        Operand.immediate (.uint16 (UInt16.ofNat number))
      rwa [UInt16.ofNat_toNat] at number
  | int32 value =>
      have number := (Cursor.reads_readInt 4 value.toUInt32.toNat_lt).map fun number =>
        Operand.immediate (.int32 (Int32.ofInt number))
      rwa [Number.bmod_int32, Int32.ofInt_toInt] at number
  | uint32 value =>
      have number := (Cursor.reads_readNat 4 value.toNat_lt).map fun number =>
        Operand.immediate (.uint32 (UInt32.ofNat number))
      rwa [UInt32.ofNat_toNat] at number
  | int64 value =>
      have number := (Cursor.reads_readInt 8 value.toUInt64.toNat_lt).map fun number =>
        Operand.immediate (.int64 (Int64.ofInt number))
      rwa [Number.bmod_int64, Int64.ofInt_toInt] at number
  | uint64 value =>
      have number := (Cursor.reads_readNat 8 value.toNat_lt).map fun number =>
        Operand.immediate (.uint64 (UInt64.ofNat number))
      rwa [UInt64.ofNat_toNat] at number
  | float32 bits =>
      have number := (Cursor.reads_readNat 4 bits.toNat_lt).map fun number =>
        Operand.immediate (.float32 (UInt32.ofNat number))
      rwa [UInt32.ofNat_toNat] at number
  | float64 bits =>
      have number := (Cursor.reads_readNat 8 bits.toNat_lt).map fun number =>
        Operand.immediate (.float64 (UInt64.ofNat number))
      rwa [UInt64.ofNat_toNat] at number
  | token name =>
      have number := (Cursor.reads_readNat 4 name.value.toNat_lt).map fun number =>
        Operand.token ⟨UInt32.ofNat number⟩
      rwa [UInt32.ofNat_toNat] at number
  | switch displacements count =>
      intro cursor more restEq
      rw [Operand.bytes, List.append_assoc] at restEq
      obtain ⟨middle, counted, middleRest, middlePosition⟩ :=
        Cursor.reads_readNat 4 count cursor _ restEq
      obtain ⟨final, ran, finalRest, finalPosition⟩ :=
        reads_readDisplacements displacements middle more middleRest
      -- The table is read only if the bytes behind its count suffice for it.
      have enough : ¬ middle.remaining < displacements.length * 4 := by
        simp [Cursor.remaining, middleRest]
      refine ⟨final, ?_, finalRest, ?_⟩
      · refine bind_eq_ok.mpr ⟨_, middle, counted, ?_⟩
        refine bind_eq_ok.mpr ⟨middle, middle, rfl, ?_⟩
        rw [if_neg enough]
        exact bind_eq_ok.mpr ⟨_, final, ran, rfl⟩
      · simp only [finalPosition, middlePosition, Operand.bytes, List.length_append]
        omega

end Instruction

/-! ## Instructions -/

/-- The codes of one byte stand below the lead byte of the longer codes. -/
theorem Opcode.plain_lt {opcode : Opcode} {byte : Nat} (codeEq : opcode.code = .plain byte) :
    byte < OpcodeBytes.lead := by
  have entry := entry?_code opcode
  rw [codeEq] at entry
  obtain ⟨inside, _⟩ := List.getElem?_eq_some_iff.mp entry
  exact Nat.lt_of_lt_of_le inside (by decide +kernel)

theorem Opcode.extended_lt {opcode : Opcode} {byte : Nat}
    (codeEq : opcode.code = .extended byte) : byte < 256 := by
  have entry := entry?_code opcode
  rw [codeEq] at entry
  obtain ⟨inside, _⟩ := List.getElem?_eq_some_iff.mp entry
  exact Nat.lt_of_lt_of_le inside (by decide +kernel)

namespace Instruction

theorem reads_byte {byte : Nat} (fits : byte < 256) :
    Reads (Cursor.readNat 1) [UInt8.ofNat byte] byte := by
  have read := Cursor.reads_readNat 1 (show byte < Nat.pow 256 1 from fits)
  rwa [Number.toBytes, Number.toBytes, Nat.mod_eq_of_lt fits] at read

theorem reads_readOpcode (start : Nat) (opcode : Opcode) :
    Reads (readOpcode start) opcode.code.bytes opcode := by
  have entry := Opcode.entry?_code opcode
  cases codeEq : opcode.code with
  | plain byte =>
      rw [codeEq] at entry
      have bound := Opcode.plain_lt codeEq
      have notLead : byte ≠ OpcodeBytes.lead := Nat.ne_of_lt bound
      change Reads _ ([UInt8.ofNat byte] ++ []) opcode
      refine (reads_byte (Nat.lt_trans bound (by decide))).bind ?_
      rw [if_neg notLead, entry]
      exact Reads.pure opcode
  | extended byte =>
      rw [codeEq] at entry
      change Reads _ ([UInt8.ofNat OpcodeBytes.lead] ++ ([UInt8.ofNat byte] ++ [])) opcode
      refine (reads_byte (by decide)).bind ?_
      rw [if_pos rfl]
      refine (reads_byte (Opcode.extended_lt codeEq)).bind ?_
      rw [entry]
      exact Reads.pure opcode

def encode (opcode : Opcode) (operand : Operand) : List UInt8 :=
  opcode.code.bytes ++ operand.bytes

/-- The instruction that the bytes of an instruction read as. -/
def placed (offset : Nat) (opcode : Opcode) (operand : Operand) : Instruction :=
  let size := (encode opcode operand).length
  { offset, size, opcode, operand, targets := targetsOf opcode.flow (offset + size) operand }

theorem encode_length_pos (opcode : Opcode) (operand : Operand) :
    0 < (encode opcode operand).length := by
  cases codeEq : opcode.code <;> simp [encode, codeEq, OpcodeBytes.bytes]

/-- Reading an encoded instruction gives the instruction at the position of the cursor. -/
theorem read_encode {opcode : Opcode} {operand : Operand} (fits : operand.Fits opcode.operand)
    {cursor : Cursor} {more : List UInt8} (restEq : cursor.rest = encode opcode operand ++ more) :
    ∃ next, read cursor = .ok (placed cursor.position opcode operand) next ∧
      next.rest = more ∧
      next.position = cursor.position + (encode opcode operand).length := by
  rw [encode, List.append_assoc] at restEq
  obtain ⟨middle, opcodeRead, middleRest, middlePosition⟩ :=
    reads_readOpcode cursor.position opcode cursor _ restEq
  obtain ⟨final, operandRead, finalRest, finalPosition⟩ :=
    reads_readOperand fits middle more middleRest
  have position : final.position = cursor.position + (encode opcode operand).length := by
    rw [finalPosition, middlePosition, encode, List.length_append, Nat.add_assoc]
  refine ⟨final, ?_, finalRest, position⟩
  refine bind_eq_ok.mpr ⟨cursor, cursor, rfl, ?_⟩
  refine bind_eq_ok.mpr ⟨opcode, middle, opcodeRead, ?_⟩
  refine bind_eq_ok.mpr ⟨operand, final, operandRead, ?_⟩
  refine bind_eq_ok.mpr ⟨final, final, rfl, ?_⟩
  rw [position, placed, Nat.add_sub_cancel_left]
  rfl

/-! ## Streams -/

def encodeAll (code : List (Opcode × Operand)) : List UInt8 :=
  code.flatMap fun (opcode, operand) => encode opcode operand

/-- A sequence of instructions, the first one at an offset. -/
def placedFrom : (offset : Nat) → List (Opcode × Operand) → List Instruction
  | _, [] => []
  | offset, (opcode, operand) :: rest =>
      placed offset opcode operand :: placedFrom (offset + (encode opcode operand).length) rest

theorem readMany_encodeAll {code : List (Opcode × Operand)}
    (fits : ∀ entry ∈ code, entry.2.Fits entry.1.operand) {count : Nat} {cursor : Cursor}
    (enough : code.length ≤ count) (restEq : cursor.rest = encodeAll code) :
    (readMany count cursor).instructions = placedFrom cursor.position code ∧
      (readMany count cursor).failure? = none := by
  induction code generalizing count cursor with
  | nil =>
      have atEnd : cursor.hasMore = false := by simp [Cursor.hasMore, restEq, encodeAll]
      cases count <;> simp [readMany, atEnd, placedFrom]
  | cons entry code ih =>
      obtain ⟨opcode, operand⟩ := entry
      cases count with
      | zero => simp at enough
      | succ count =>
          have split : cursor.rest = encode opcode operand ++ encodeAll code := by
            rw [restEq, encodeAll, List.flatMap_cons, encodeAll]
          have more : cursor.hasMore = true := by
            have size := encode_length_pos opcode operand
            cases bytes : encode opcode operand with
            | nil => simp [bytes] at size
            | cons first others => simp [Cursor.hasMore, split, bytes]
          obtain ⟨next, ran, nextRest, nextPosition⟩ :=
            read_encode (fits (opcode, operand) (by simp)) split
          obtain ⟨instructions, noFailure⟩ :=
            ih (fun entry member => fits entry (by simp [member]))
              (Nat.le_of_succ_le_succ enough) nextRest
          rw [nextPosition] at instructions
          simp only [readMany, more, ran, if_true, instructions, noFailure, placedFrom,
            and_self]

theorem length_le_encodeAll (code : List (Opcode × Operand)) :
    code.length ≤ (encodeAll code).length := by
  induction code with
  | nil => exact Nat.le_refl _
  | cons entry code ih =>
      have size := encode_length_pos entry.1 entry.2
      simp only [encodeAll, List.flatMap_cons, List.length_append, List.length_cons] at ih ⊢
      omega

/-- A sequence of encoded instructions reads as that sequence. -/
theorem decodeAll_encodeAll {code : List (Opcode × Operand)}
    (fits : ∀ entry ∈ code, entry.2.Fits entry.1.operand) :
    decodeAll (encodeAll code) = .ok (placedFrom 0 code) := by
  obtain ⟨instructions, noFailure⟩ :=
    readMany_encodeAll fits (length_le_encodeAll code)
      (rfl : (Cursor.ofBytes (encodeAll code)).rest = encodeAll code)
  simp only [decodeAll, readStream, noFailure, instructions]
  rfl

end Instruction

end Cil
