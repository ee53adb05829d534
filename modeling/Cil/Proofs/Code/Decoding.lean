import Cil.Code.MethodCode
import Cil.Proofs.Code.Reading

/-!
# What decoding gives

Decoded instructions follow each other without overlap, their operands have the forms that
their opcodes ask for, and their targets are counted from their ends.
-/

namespace Cil

open Stateful

/-- A successful action moves the cursor forward by at least a number of bytes. -/
def Advances {α : Type} (least : Nat) (action : CursorM α) : Prop :=
  ∀ cursor value next, action cursor = .ok value next →
    cursor.position + least ≤ next.position ∧ next.data = cursor.data

namespace Advances

variable {α β : Type} {least more : Nat}

theorem pure (value : α) : Advances 0 (Pure.pure value) := by
  intro cursor result next ran
  cases ran
  exact ⟨Nat.le_refl _, rfl⟩

theorem get : Advances 0 (MonadState.get : CursorM Cursor) := by
  intro cursor result next ran
  cases ran
  exact ⟨Nat.le_refl _, rfl⟩

theorem throw (error : Error) : Advances least (throw error : CursorM α) :=
  fun _ _ _ ran => absurd ran throw_ne_ok

theorem bind {first : CursorM α} {next : α → CursorM β} (firstAdvances : Advances least first)
    (nextAdvances : ∀ value, Advances more (next value)) :
    Advances (least + more) (first >>= next) := by
  intro cursor result final ran
  obtain ⟨value, middle, firstRan, nextRan⟩ := bind_eq_ok.mp ran
  obtain ⟨firstLe, firstData⟩ := firstAdvances cursor value middle firstRan
  obtain ⟨nextLe, nextData⟩ := nextAdvances value middle result final nextRan
  exact ⟨by omega, nextData.trans firstData⟩

theorem mono {action : CursorM α} (advances : Advances more action) (le : least ≤ more) :
    Advances least action := by
  intro cursor result next ran
  obtain ⟨position, data⟩ := advances cursor result next ran
  exact ⟨by omega, data⟩

theorem readBytes (count : Nat) : Advances count (Cursor.readBytes count) := by
  intro cursor result next ran
  unfold Cursor.readBytes at ran
  split at ran
  · cases ran
    exact ⟨Nat.le_refl _, rfl⟩
  · cases ran

theorem readNat (width : Nat) : Advances width (Cursor.readNat width) :=
  (readBytes width).bind fun _ => pure _

theorem readInt (width : Nat) : Advances width (Cursor.readInt width) :=
  (readNat width).bind fun _ => pure _

theorem readDisplacements (count : Nat) : Advances 0 (Instruction.readDisplacements count) := by
  induction count with
  | zero => exact pure _
  | succ count ih =>
      exact ((readInt 4).bind fun _ => ih.bind fun _ => pure _).mono (Nat.zero_le _)

theorem map {action : CursorM α} (advances : Advances least action) (change : α → β) :
    Advances 0 (do return change (← action)) :=
  (advances.bind fun _ => pure _).mono (Nat.zero_le _)

theorem readOperand (kind : OperandKind) : Advances 0 (Instruction.readOperand kind) := by
  cases kind with
  | none => exact pure _
  | int8 => exact (readInt 1).map _
  | uint8 => exact (readNat 1).map _
  | int16 => exact (readInt 2).map _
  | uint16 => exact (readNat 2).map _
  | int32 => exact (readInt 4).map _
  | uint32 => exact (readNat 4).map _
  | int64 => exact (readInt 8).map _
  | uint64 => exact (readNat 8).map _
  | float32 => exact (readNat 4).map _
  | float64 => exact (readNat 8).map _
  | token => exact (readNat 4).map _
  | switch =>
      have advances : Advances (4 + (0 + 0)) (Instruction.readOperand .switch) := by
        refine (readNat 4).bind fun count => get.bind fun cursor => ?_
        dsimp only
        split
        · exact (throw _).bind fun _ => (readDisplacements count).map _
        · exact (readDisplacements count).map _
      exact advances.mono (Nat.zero_le _)

theorem entry (known? : Option (Option Opcode)) (reserved unknown : Error) :
    Advances 0 (match known? with
      | some (some opcode) => Pure.pure opcode
      | some none => MonadExcept.throw reserved
      | none => MonadExcept.throw unknown : CursorM Opcode) := by
  split
  · exact pure _
  · exact throw _
  · exact throw _

theorem readOpcode (start : Nat) : Advances 1 (Instruction.readOpcode start) := by
  have advances : Advances (1 + 0) (Instruction.readOpcode start) := by
    refine (readNat 1).bind fun first => ?_
    split
    · exact ((readNat 1).bind fun second => entry _ _ _).mono (Nat.zero_le _)
    · exact entry _ _ _
  exact advances

end Advances

namespace Instruction

theorem lt_of_readNat {width number : Nat} {cursor next : Cursor}
    (ran : Cursor.readNat width cursor = .ok number next) : number < Nat.pow 256 width := by
  obtain ⟨bytes, middle, read, final⟩ := bind_eq_ok.mp ran
  cases final
  unfold Cursor.readBytes at read
  split at read
  · rename_i inside
    cases read
    have bound := Number.ofBytes_lt (cursor.rest.take width)
    rwa [List.length_take, Nat.min_eq_left inside] at bound
  · cases read

theorem length_of_readDisplacements {count : Nat} {cursor next : Cursor}
    {displacements : List Int32}
    (ran : readDisplacements count cursor = .ok displacements next) :
    displacements.length = count := by
  induction count generalizing cursor next displacements with
  | zero => cases ran; rfl
  | succ count ih =>
      obtain ⟨_, _, _, ran⟩ := bind_eq_ok.mp ran
      obtain ⟨rest, _, read, final⟩ := bind_eq_ok.mp ran
      cases final
      rw [List.length_cons, ih read]

/-- What decoding gives for an operand has the form that was asked for. -/
theorem fits_of_readOperand {kind : OperandKind} {cursor next : Cursor} {operand : Operand}
    (ran : readOperand kind cursor = .ok operand next) : operand.Fits kind := by
  have built {α : Type} {action : CursorM α} {build : α → Operand}
      (fits : ∀ value, (build value).Fits kind)
      (ran : (do return build (← action) : CursorM Operand) cursor = .ok operand next) :
      operand.Fits kind := by
    obtain ⟨value, middle, _, final⟩ := bind_eq_ok.mp ran
    cases final
    exact fits value
  cases kind with
  | none => cases ran; exact .none
  | int8 => exact built (fun _ => .int8 _) ran
  | uint8 => exact built (fun _ => .uint8 _) ran
  | int16 => exact built (fun _ => .int16 _) ran
  | uint16 => exact built (fun _ => .uint16 _) ran
  | int32 => exact built (fun _ => .int32 _) ran
  | uint32 => exact built (fun _ => .uint32 _) ran
  | int64 => exact built (fun _ => .int64 _) ran
  | uint64 => exact built (fun _ => .uint64 _) ran
  | float32 => exact built (fun _ => .float32 _) ran
  | float64 => exact built (fun _ => .float64 _) ran
  | token => exact built (fun _ => .token _) ran
  | switch =>
      obtain ⟨count, middle, counted, ran⟩ := bind_eq_ok.mp ran
      obtain ⟨_, _, read, ran⟩ := bind_eq_ok.mp ran
      obtain ⟨rfl, rfl⟩ := get_eq_ok.mp read
      dsimp only at ran
      split at ran
      · obtain ⟨_, _, failed, _⟩ := bind_eq_ok.mp ran
        exact absurd failed throw_ne_ok
      · obtain ⟨displacements, _, read, final⟩ := bind_eq_ok.mp ran
        cases final
        refine .switch displacements ?_
        rw [length_of_readDisplacements read]
        exact lt_of_readNat counted

/-- What is known of an instruction that was read from bytes. -/
structure WellRead (instruction : Instruction) : Prop where
  size_pos : 0 < instruction.size
  fits : instruction.operand.Fits instruction.opcode.operand
  targets : instruction.targets =
    targetsOf instruction.opcode.flow instruction.nextOffset instruction.operand

theorem wellRead_of_read {cursor next : Cursor} {instruction : Instruction}
    (ran : read cursor = .ok instruction next) :
    instruction.WellRead ∧ instruction.offset = cursor.position ∧
      instruction.nextOffset = next.position ∧ next.data = cursor.data := by
  obtain ⟨_, _, started, ran⟩ := bind_eq_ok.mp ran
  obtain ⟨rfl, rfl⟩ := get_eq_ok.mp started
  obtain ⟨opcode, middle, opcodeRan, ran⟩ := bind_eq_ok.mp ran
  obtain ⟨operand, final, operandRan, ran⟩ := bind_eq_ok.mp ran
  obtain ⟨_, _, ended, ran⟩ := bind_eq_ok.mp ran
  obtain ⟨rfl, rfl⟩ := get_eq_ok.mp ended
  cases ran
  obtain ⟨opcodeLe, opcodeData⟩ := Advances.readOpcode _ _ _ _ opcodeRan
  obtain ⟨operandLe, operandData⟩ := Advances.readOperand _ _ _ _ operandRan
  have nextEq : cursor.position + (next.position - cursor.position) = next.position := by omega
  refine ⟨⟨?_, fits_of_readOperand operandRan, ?_⟩, rfl, nextEq, operandData.trans opcodeData⟩
  · dsimp only
    omega
  · simp only [nextOffset, nextEq]

/-- The instructions of a stream stand one behind the other within the bytes. -/
structure Stands (start stop : Nat) (instructions : List Instruction) : Prop where
  wellRead : ∀ instruction ∈ instructions, instruction.WellRead
  ordered : instructions.Pairwise fun first second => first.nextOffset ≤ second.offset
  from_start : ∀ instruction ∈ instructions, start ≤ instruction.offset
  to_stop : ∀ instruction ∈ instructions, instruction.nextOffset ≤ stop

theorem stands_readMany (count : Nat) (cursor : Cursor) :
    Stands cursor.position cursor.data.length (readMany count cursor).instructions := by
  induction count generalizing cursor with
  | zero => exact ⟨by simp [readMany], by simp [readMany], by simp [readMany], by simp [readMany]⟩
  | succ count ih =>
      unfold readMany
      split
      · cases ran : read cursor with
        | error error next => exact ⟨by simp, by simp, by simp, by simp⟩
        | ok instruction next =>
            obtain ⟨wellRead, offset, nextOffset, data⟩ := wellRead_of_read ran
            have rest := ih next
            have forward : instruction.offset < instruction.nextOffset :=
              Nat.lt_add_of_pos_right wellRead.size_pos
            refine ⟨?_, ?_, ?_, ?_⟩
            · exact List.forall_mem_cons.mpr ⟨wellRead, rest.wellRead⟩
            · refine List.pairwise_cons.mpr ⟨fun later member => ?_, rest.ordered⟩
              rw [nextOffset]
              exact rest.from_start later member
            · refine List.forall_mem_cons.mpr ⟨Nat.le_of_eq offset.symm, fun later member => ?_⟩
              have := rest.from_start later member
              omega
            · refine List.forall_mem_cons.mpr ⟨?_, fun later member => ?_⟩
              · rw [nextOffset, ← data]
                exact next.position_le
              · rw [← data]
                exact rest.to_stop later member
      · exact ⟨by simp, by simp, by simp, by simp⟩

theorem stands_of_decodeAll {bytes : List UInt8} {instructions : List Instruction}
    (decoded : decodeAll bytes = .ok instructions) : Stands 0 bytes.length instructions := by
  unfold decodeAll at decoded
  dsimp only at decoded
  split at decoded
  · cases decoded
  · cases decoded
    exact stands_readMany bytes.length (Cursor.ofBytes bytes)

end Instruction

namespace MethodCode

open Instruction

/-- What is known of the code of a method that was decoded. -/
structure Decoded (code : MethodCode) : Prop where
  stands : Stands 0 code.codeSize code.instructions.toList
  /-- Branches lead to instructions. -/
  targets : ∀ instruction ∈ code.instructions.toList, ∀ target ∈ instruction.targets,
    ∃ reached ∈ code.instructions.toList, reached.offset = target
  /-- Clauses begin and end at instructions or at the end of the code. -/
  boundaries : ∀ clause ∈ code.clauses, ∀ offset ∈ clause.boundaries,
    offset = code.codeSize ∨ ∃ reached ∈ code.instructions.toList, reached.offset = offset

theorem exists_of_position? {code : MethodCode} {offset : Nat}
    (found : (code.position? offset).isSome) :
    ∃ reached ∈ code.instructions.toList, reached.offset = offset := by
  obtain ⟨index, found⟩ := Option.isSome_iff_exists.mp found
  obtain ⟨inside, holds, _⟩ := Array.findIdx?_eq_some_iff_getElem.mp found
  exact ⟨code.instructions[index], Array.getElem_mem_toList inside, by simpa using holds⟩

theorem isSome_position? {code : MethodCode} {offset : Nat}
    (reached : ∃ reached ∈ code.instructions.toList, reached.offset = offset) :
    (code.position? offset).isSome := by
  obtain ⟨instruction, member, rfl⟩ := reached
  unfold position?
  rw [Array.findIdx?_isSome]
  exact Array.any_eq_true'.mpr ⟨instruction, Array.mem_toList_iff.mp member, beq_self_eq_true _⟩

theorem Decoded.offset_lt {code : MethodCode} (decoded : code.Decoded) {instruction : Instruction}
    (member : instruction ∈ code.instructions.toList) : instruction.offset < code.codeSize := by
  have stop := decoded.stands.to_stop instruction member
  have size := (decoded.stands.wellRead instruction member).size_pos
  unfold nextOffset at stop
  omega

/-- A handler that is not empty starts with an instruction. -/
theorem Decoded.handler_entry {code : MethodCode} (decoded : code.Decoded) {clause : Clause}
    (member : clause ∈ code.clauses) (filled : clause.handlerOffset < clause.handlerEnd) :
    (code.position? clause.handlerOffset).isSome := by
  have start := decoded.boundaries clause member clause.handlerOffset (by simp [Clause.boundaries])
  have stop := decoded.boundaries clause member clause.handlerEnd (by simp [Clause.boundaries])
  have stop_le : clause.handlerEnd ≤ code.codeSize := by
    rcases stop with atEnd | ⟨reached, listed, offset⟩
    · exact Nat.le_of_eq atEnd
    · exact Nat.le_of_lt (offset ▸ decoded.offset_lt listed)
  rcases start with atEnd | reached
  · omega
  · exact isSome_position? reached

theorem decoded_of_ofBytes {bytes : List UInt8} {locals : List LocalVariable}
    {clauses : List Clause} {maxStack : Nat} {initLocals : Bool} {code : MethodCode}
    (read : ofBytes bytes locals clauses maxStack initLocals = .ok code) :
    code.Decoded ∧ decodeAll bytes = .ok code.instructions.toList ∧
      code.codeSize = bytes.length ∧ code.clauses = clauses := by
  unfold ofBytes at read
  cases decoded : decodeAll bytes with
  | error error => rw [decoded] at read; cases read
  | ok instructions =>
      rw [decoded] at read
      simp only [bind, Except.bind, validate] at read
      split at read
      · cases read
      · rename_i noStrayBranch
        split at read
        · cases read
        · rename_i noStrayBoundary
          cases read
          refine ⟨⟨?_, ?_, ?_⟩, by simp, rfl, rfl⟩
          · exact stands_of_decodeAll decoded
          · intro instruction member target targetMember
            have none := List.findSome?_eq_none_iff.mp noStrayBranch instruction member
            rw [Option.map_eq_none_iff, List.find?_eq_none] at none
            have reached := none target targetMember
            simp only [Option.isNone_iff_eq_none] at reached
            exact exists_of_position? (Option.isSome_iff_ne_none.mpr reached)
          · intro clause member offset offsetMember
            have none := List.findSome?_eq_none_iff.mp noStrayBoundary clause member
            have boundary := List.find?_eq_none.mp none offset offsetMember
            simp only [Bool.not_eq_true', Bool.not_eq_false, isBoundary, Bool.or_eq_true,
              beq_iff_eq] at boundary
            exact boundary.imp_right exists_of_position?

/-- The code of a method of a module was decoded from bytes. -/
theorem exists_ofBytes_of_ofMethod {module : Module} {method : MethodDef} {code : MethodCode}
    (read : ofMethod module method = .ok code) :
    ∃ bytes locals clauses maxStack initLocals,
      ofBytes bytes locals clauses maxStack initLocals = .ok code := by
  unfold ofMethod at read
  split at read
  · dsimp only at read
    split at read
    · obtain ⟨_, failed, _⟩ := except_bind_eq_ok.mp read
      cases failed
    · obtain ⟨body, _, read⟩ := except_bind_eq_ok.mp read
      obtain ⟨bytes, _, read⟩ := except_bind_eq_ok.mp read
      obtain ⟨locals, _, read⟩ := except_bind_eq_ok.mp read
      exact ⟨_, _, _, _, _, read⟩
  · cases read

theorem decoded_of_ofMethod {module : Module} {method : MethodDef} {code : MethodCode}
    (read : ofMethod module method = .ok code) : code.Decoded := by
  obtain ⟨_, _, _, _, _, read⟩ := exists_ofBytes_of_ofMethod read
  exact (decoded_of_ofBytes read).1

end MethodCode

end Cil
