import Cil.Proofs.Code.Decoding
import Cil.Proofs.Code.FailedSteps
import Cil.Proofs.Code.Layout
import Mathlib.Data.List.Forall2
import Mathlib.Data.List.Nodup

/-!
# Decoding and emitting undo each other

Every instruction that is read from a stream determines the bytes it was read from, so
emitting the instructions of a stream again gives the stream.  In the other direction, the
code of emitted instructions reads as these instructions, whatever operands they carry.

Both directions go through the mnemonics: instructions are emitted by name, and every
mnemonic names one opcode.
-/

namespace Cil

open Stateful

/-! ## Mnemonics and codes -/

namespace Opcode

theorem mem_all (opcode : Opcode) : opcode ∈ all := by
  have entry := entry?_code opcode
  cases codeEq : opcode.code with
  | plain byte =>
      rw [codeEq] at entry
      exact List.mem_append_left _
        (List.mem_filterMap.mpr ⟨some opcode, List.mem_of_getElem? entry, rfl⟩)
  | extended byte =>
      rw [codeEq] at entry
      exact List.mem_append_right _
        (List.mem_filterMap.mpr ⟨some opcode, List.mem_of_getElem? entry, rfl⟩)

/-- Whether numbers are distinct, and none of them is a place of a bit that is set. -/
def areApart (seen : Nat) : List Nat → Bool
  | [] => true
  | number :: rest => !seen.testBit number && areApart (seen ||| 1 <<< number) rest

theorem nodup_of_areApart {numbers : List Nat} {seen : Nat} (apart : areApart seen numbers) :
    numbers.Nodup ∧ ∀ number ∈ numbers, seen.testBit number = false := by
  induction numbers generalizing seen with
  | nil => simp
  | cons number rest ih =>
      obtain ⟨new, others⟩ := Bool.and_eq_true_iff.mp apart
      obtain ⟨nodup, unseen⟩ := ih others
      have later : ∀ other ∈ rest, other ≠ number ∧ seen.testBit other = false := by
        intro other member
        have bits := unseen other member
        rw [Nat.testBit_or, Bool.or_eq_false_iff] at bits
        refine ⟨?_, bits.1⟩
        rintro rfl
        simp [Nat.testBit_shiftLeft] at bits
      exact ⟨List.nodup_cons.mpr ⟨fun member => (later number member).1 rfl, nodup⟩,
        List.forall_mem_cons.mpr ⟨by simpa using new, fun other member => (later other member).2⟩⟩

/-- A number by which mnemonics are told apart. -/
def mnemonicKey (mnemonic : String) : Nat :=
  mnemonic.toByteArray.data.toList.foldl (fun key byte => key * 256 + byte.toNat) 0 % 3683

theorem mnemonic_injective {first second : Opcode} (same : first.mnemonic = second.mnemonic) :
    first = second := by
  have nodup : (all.map fun opcode => mnemonicKey opcode.mnemonic).Nodup :=
    (@nodup_of_areApart _ 0 (by decide +kernel)).1
  exact List.inj_on_of_nodup_map nodup first.mem_all second.mem_all (congrArg mnemonicKey same)

theorem mnemonic_of_ofMnemonic? {mnemonic : String} {opcode : Opcode}
    (found : ofMnemonic? mnemonic = some opcode) : opcode.mnemonic = mnemonic := by
  simpa using List.find?_some found

/-- Every instruction is found under its mnemonic. -/
theorem ofMnemonic?_mnemonic (opcode : Opcode) : ofMnemonic? opcode.mnemonic = some opcode := by
  have isFound : (ofMnemonic? opcode.mnemonic).isSome :=
    List.find?_isSome.mpr ⟨opcode, opcode.mem_all, beq_self_eq_true _⟩
  obtain ⟨found, isFound⟩ := Option.isSome_iff_exists.mp isFound
  rw [isFound, mnemonic_injective (mnemonic_of_ofMnemonic? isFound)]

/-- An instruction stands in the tables at its own code only. -/
theorem code_of_entry? {code : OpcodeBytes} {opcode : Opcode}
    (entry : entry? code = some (some opcode)) : opcode.code = code := by
  cases code with
  | plain byte =>
      have each : ∀ entry ∈ plainTable.zipIdx, ∀ opcode ∈ entry.1,
          opcode.code = .plain entry.2 := by decide +kernel
      exact each (some opcode, byte) (List.mk_mem_zipIdx_iff_getElem?.mpr entry) opcode rfl
  | extended byte =>
      have each : ∀ entry ∈ extendedTable.zipIdx, ∀ opcode ∈ entry.1,
          opcode.code = .extended entry.2 := by decide +kernel
      exact each (some opcode, byte) (List.mk_mem_zipIdx_iff_getElem?.mpr entry) opcode rfl

end Opcode

/-! ## What reading takes off the cursor -/

/-- What a successful reading step takes off the cursor is what its result is written as. -/
def Consumes {α : Type} (action : CursorM α) (bytes : α → List UInt8) : Prop :=
  ∀ cursor value next, action cursor = .ok value next → cursor.rest = bytes value ++ next.rest

namespace Number

theorem toBytes_mod (width number : Nat) :
    toBytes width (number % Nat.pow 256 width) = toBytes width number := by
  rw [← ofBytes_toBytes]
  have inverse := toBytes_ofBytes (toBytes width number)
  rwa [toBytes_length] at inverse

end Number

namespace Consumes

variable {α β : Type}

theorem map {action : CursorM α} {bytes : α → List UInt8} {image : β → List UInt8}
    (consumes : Consumes action bytes) {change : α → β}
    (written : ∀ value, image (change value) = bytes value) :
    Consumes (do return change (← action)) image := by
  intro cursor result next ran
  obtain ⟨value, middle, read, final⟩ := bind_eq_ok.mp ran
  cases final
  rw [written]
  exact consumes cursor value _ read

theorem readNat (width : Nat) : Consumes (Cursor.readNat width) (Number.toBytes width) := by
  intro cursor number next ran
  obtain ⟨bytes, middle, read, final⟩ := bind_eq_ok.mp ran
  cases final
  unfold Cursor.readBytes at read
  split at read
  · rename_i inside
    cases read
    have written := Number.toBytes_ofBytes (cursor.rest.take width)
    rw [List.length_take, Nat.min_eq_left inside] at written
    rw [written]
    exact (List.take_append_drop width cursor.rest).symm
  · cases read

theorem readInt (width : Nat) : Consumes (Cursor.readInt width) fun number =>
    Number.toBytes width (number % (Nat.pow 256 width : Nat)).toNat := by
  refine (readNat width).map fun number => ?_
  rw [Int.bmod_emod, ← Int.natCast_emod, Int.toNat_natCast, Number.toBytes_mod]

theorem readDisplacements (count : Nat) :
    Consumes (Instruction.readDisplacements count) displacementBytes := by
  induction count with
  | zero =>
      intro cursor displacements next ran
      cases ran
      rfl
  | succ count ih =>
      intro cursor displacements next ran
      obtain ⟨number, middle, numberRead, ran⟩ := bind_eq_ok.mp ran
      obtain ⟨rest, final, restRead, ran⟩ := bind_eq_ok.mp ran
      cases ran
      rw [readInt 4 cursor number middle numberRead, ih middle rest _ restRead,
        ← List.append_assoc]
      rfl

theorem readOperand (kind : OperandKind) :
    Consumes (Instruction.readOperand kind) Operand.bytes := by
  cases kind with
  | none =>
      intro cursor operand next ran
      cases ran
      rfl
  | int8 => exact (readInt 1).map fun _ => rfl
  | uint8 => exact (readNat 1).map fun number => Number.toBytes_mod 1 number
  | int16 => exact (readInt 2).map fun _ => rfl
  | uint16 => exact (readNat 2).map fun number => Number.toBytes_mod 2 number
  | int32 => exact (readInt 4).map fun _ => rfl
  | uint32 => exact (readNat 4).map fun number => Number.toBytes_mod 4 number
  | int64 => exact (readInt 8).map fun _ => rfl
  | uint64 => exact (readNat 8).map fun number => Number.toBytes_mod 8 number
  | float32 => exact (readNat 4).map fun number => Number.toBytes_mod 4 number
  | float64 => exact (readNat 8).map fun number => Number.toBytes_mod 8 number
  | token => exact (readNat 4).map fun number => Number.toBytes_mod 4 number
  | switch =>
      intro cursor operand next ran
      obtain ⟨count, middle, counted, ran⟩ := bind_eq_ok.mp ran
      obtain ⟨_, _, read, ran⟩ := bind_eq_ok.mp ran
      obtain ⟨rfl, rfl⟩ := get_eq_ok.mp read
      dsimp only at ran
      split at ran
      · obtain ⟨_, _, failed, _⟩ := bind_eq_ok.mp ran
        exact absurd failed throw_ne_ok
      · obtain ⟨displacements, final, listed, ran⟩ := bind_eq_ok.mp ran
        cases ran
        rw [readNat 4 cursor count middle counted,
          readDisplacements count middle displacements _ listed, ← List.append_assoc,
          Operand.bytes, Instruction.length_of_readDisplacements listed]

/-- A table entry that reading accepts is the instruction with the code that was looked up. -/
theorem entry {code : OpcodeBytes} {reserved unknown : Error} {opcode : Opcode}
    {cursor next : Cursor} (ran : (match Opcode.entry? code with
      | some (some opcode) => Pure.pure opcode
      | some none => MonadExcept.throw reserved
      | none => MonadExcept.throw unknown : CursorM Opcode) cursor = .ok opcode next) :
    opcode.code = code ∧ next = cursor := by
  rcases found : Opcode.entry? code with _ | _ | known
  · rw [found] at ran
    exact absurd ran throw_ne_ok
  · rw [found] at ran
    exact absurd ran throw_ne_ok
  · rw [found] at ran
    cases ran
    exact ⟨Opcode.code_of_entry? found, rfl⟩

theorem readOpcode (start : Nat) :
    Consumes (Instruction.readOpcode start) fun opcode => opcode.code.bytes := by
  intro cursor opcode next ran
  obtain ⟨first, middle, firstRead, ran⟩ := bind_eq_ok.mp ran
  have firstTaken := readNat 1 cursor first middle firstRead
  have firstLt : first < 256 := Instruction.lt_of_readNat firstRead
  split at ran
  · rename_i leads
    obtain ⟨second, final, secondRead, ran⟩ := bind_eq_ok.mp ran
    have secondTaken := readNat 1 middle second final secondRead
    have secondLt : second < 256 := Instruction.lt_of_readNat secondRead
    obtain ⟨codeEq, rfl⟩ := entry ran
    simp [firstTaken, secondTaken, codeEq, leads, Number.toBytes, OpcodeBytes.bytes,
      OpcodeBytes.lead, Nat.mod_eq_of_lt secondLt]
  · obtain ⟨codeEq, rfl⟩ := entry ran
    simp [firstTaken, codeEq, Number.toBytes, OpcodeBytes.bytes, Nat.mod_eq_of_lt firstLt]

theorem read : Consumes Instruction.read fun instruction =>
    Instruction.encode instruction.opcode instruction.operand := by
  intro cursor instruction next ran
  obtain ⟨_, _, started, ran⟩ := bind_eq_ok.mp ran
  obtain ⟨rfl, rfl⟩ := get_eq_ok.mp started
  obtain ⟨opcode, middle, opcodeRan, ran⟩ := bind_eq_ok.mp ran
  obtain ⟨operand, final, operandRan, ran⟩ := bind_eq_ok.mp ran
  obtain ⟨_, _, ended, ran⟩ := bind_eq_ok.mp ran
  obtain ⟨rfl, rfl⟩ := get_eq_ok.mp ended
  cases ran
  rw [readOpcode _ cursor opcode middle opcodeRan,
    readOperand opcode.operand middle operand next operandRan]
  exact (List.append_assoc _ _ _).symm

end Consumes

namespace Instruction

/-- The opcodes and operands of instructions. -/
def parts (instructions : List Instruction) : List (Opcode × Operand) :=
  instructions.map fun instruction => (instruction.opcode, instruction.operand)

theorem encodeAll_readMany {count : Nat} (cursor : Cursor) (enough : cursor.rest.length ≤ count)
    (noFailure : (readMany count cursor).failure? = none) :
    encodeAll (parts (readMany count cursor).instructions) = cursor.rest := by
  induction count generalizing cursor with
  | zero =>
      rw [List.eq_nil_of_length_eq_zero (Nat.le_zero.mp enough)]
      rfl
  | succ count ih =>
      unfold readMany at noFailure ⊢
      split at noFailure
      · rename_i more
        rw [if_pos more]
        cases ran : read cursor with
        | error failure next => simp [ran] at noFailure
        | ok instruction next =>
            rw [ran] at noFailure
            have taken : cursor.rest =
                encode instruction.opcode instruction.operand ++ next.rest :=
              Consumes.read cursor instruction next ran
            have size := encode_length_pos instruction.opcode instruction.operand
            have shorter : next.rest.length ≤ count := by
              have lengths := congrArg List.length taken
              rw [List.length_append] at lengths
              omega
            rw [taken]
            exact congrArg _ (ih next shorter noFailure)
      · rename_i ended
        rw [if_neg ended]
        simp only [Cursor.hasMore, Bool.not_eq_true, Bool.not_eq_false', List.isEmpty_iff] at ended
        rw [ended]
        rfl

/-- A stream that decodes is what its instructions are written as. -/
theorem encodeAll_of_decodeAll {bytes : List UInt8} {instructions : List Instruction}
    (decoded : decodeAll bytes = .ok instructions) : encodeAll (parts instructions) = bytes := by
  unfold decodeAll at decoded
  dsimp only at decoded
  split at decoded
  · cases decoded
  · rename_i noFailure
    cases decoded
    exact encodeAll_readMany (Cursor.ofBytes bytes) (Nat.le_refl _) noFailure

end Instruction

/-! ## Code without labels -/

namespace Layout

variable {draft : Draft} {emitted : List Emitted}

/-- Instructions whose operands are in place. -/
def plainItems (code : List (Opcode × Operand)) : List Item :=
  code.map fun (opcode, operand) => .bytes (Instruction.encode opcode operand)

theorem firstShortenable_plainItems (draft : Draft) (index offset : Nat)
    (code : List (Opcode × Operand)) :
    firstShortenable draft index (placedFrom offset (plainItems code)) = .ok none := by
  induction code generalizing index offset with
  | nil => rfl
  | cons entry code ih => exact ih (index + 1) _

theorem shorten_plainItems (rounds : Nat) (code : List (Opcode × Operand))
    (labels : List (String × Mark)) :
    shorten rounds ⟨plainItems code, labels⟩ = .ok ⟨plainItems code, labels⟩ := by
  cases rounds with
  | zero => rfl
  | succ rounds =>
      rw [shorten, Draft.placed, firstShortenable_plainItems]
      rfl

theorem forM_branchBytes_plainItems (draft : Draft) (offset : Nat)
    (code : List (Opcode × Operand)) :
    (placedFrom offset (plainItems code)).forM (fun item => discard (branchBytes draft item)) =
      .ok () := by
  induction code generalizing offset with
  | nil => rfl
  | cons entry code ih => exact ih _

theorem mapM_itemBytes_plainItems (draft : Draft) (offset : Nat)
    (code : List (Opcode × Operand)) :
    (placedFrom offset (plainItems code)).mapM (itemBytes draft) =
      .ok (code.map fun (opcode, operand) => Instruction.encode opcode operand) := by
  induction code generalizing offset with
  | nil => rfl
  | cons entry code ih =>
      rw [plainItems, List.map_cons, placedFrom, List.mapM_cons]
      change (do
        let rest ← (placedFrom _ (plainItems code)).mapM (itemBytes draft)
        return Instruction.encode entry.1 entry.2 :: rest) = _
      rw [ih]
      rfl

theorem bytes_plainItems (code : List (Opcode × Operand)) (labels : List (String × Mark)) :
    Draft.bytes ⟨plainItems code, labels⟩ = .ok (Instruction.encodeAll code) := by
  rw [Draft.bytes, Draft.placed, forM_branchBytes_plainItems, mapM_itemBytes_plainItems]
  rfl

end Layout

namespace Encoder

/-- An encoder that has begun nothing but instructions with their operands in place. -/
structure HoldsPlain (encoder : Encoder) (code : List (Opcode × Operand)) : Prop where
  items : encoder.items.toList = Layout.plainItems code
  openBlocks : encoder.openBlocks = []
  clauses : encoder.clauses = #[]

theorem HoldsPlain.branchesToEnd {encoder : Encoder} {code : List (Opcode × Operand)}
    (holds : encoder.HoldsPlain code) : encoder.branchesToEnd = false := by
  rw [Encoder.branchesToEnd, ← Array.any_toList, holds.items, Layout.plainItems, List.any_map]
  simp

/-- Code without labels is laid out as it was emitted. -/
theorem HoldsPlain.finish {encoder : Encoder} {code : List (Opcode × Operand)}
    (holds : encoder.HoldsPlain code) :
    ∃ finished final, finish encoder = .ok finished final ∧
      finished.code = Instruction.encodeAll code := by
  have drafted : (if encoder.shortens then Layout.shorten Layout.maxRounds
        ⟨encoder.items.toList, encoder.labels.toList⟩
      else .ok ⟨encoder.items.toList, encoder.labels.toList⟩) =
      .ok ⟨Layout.plainItems code, encoder.labels.toList⟩ := by
    rw [holds.items, Layout.shorten_plainItems, ite_self]
  have terminated : terminate encoder = .ok () encoder := by
    rw [terminate, get_bind_run, holds.branchesToEnd]
    rfl
  let labels := encoder.labels.toList.map fun entry =>
    (entry.1, offsetOf (Layout.plainItems code) entry.2)
  refine ⟨⟨Instruction.encodeAll code, encoder.maxDepth, labels, []⟩, encoder, ?_, rfl⟩
  rw [Encoder.finish, get_bind_run, holds.openBlocks]
  refine bind_eq_ok.mpr ⟨(), encoder, terminated, ?_⟩
  rw [get_bind_run]
  refine bind_eq_ok.mpr ⟨_, encoder, ofExcept_eq_ok.mpr ⟨drafted, rfl⟩, ?_⟩
  refine bind_eq_ok.mpr ⟨_, encoder, ofExcept_eq_ok.mpr ⟨Layout.bytes_plainItems _ _, rfl⟩, ?_⟩
  rw [holds.clauses]
  rfl

theorem HoldsPlain.empty (shortens : Bool) : HoldsPlain { shortens } [] :=
  ⟨rfl, rfl, rfl⟩

theorem HoldsPlain.append {before after : Encoder} {code : List (Opcode × Operand)}
    {opcode : Opcode} {operand : Operand} (holds : before.HoldsPlain code)
    (appended : Appends before after [.plain opcode operand]) :
    after.HoldsPlain (code ++ [(opcode, operand)]) where
  items := by
    rw [appended.items, holds.items, Layout.plainItems, Layout.plainItems, List.map_append]
    rfl
  openBlocks := appended.openBlocks.trans holds.openBlocks
  clauses := appended.clauses.trans holds.clauses

/-! ## Emitting by name -/

theorem emitNamed_mnemonic (opcode : Opcode) (operand? : Option Operand) :
    emitNamed opcode.mnemonic operand? = emit opcode operand? := by
  rw [emitNamed, opcodeNamed, Opcode.ofMnemonic?_mnemonic]
  rfl

theorem emitNamed_eq_ok {mnemonic : String} {operand? : Option Operand} {before after : Encoder}
    {result : Unit} (ran : emitNamed mnemonic operand? before = .ok result after) :
    ∃ opcode, opcode.mnemonic = mnemonic ∧ emit opcode operand? before = .ok result after := by
  obtain ⟨opcode, _, named, ran⟩ := bind_eq_ok.mp ran
  unfold opcodeNamed at named
  cases known : Opcode.ofMnemonic? mnemonic with
  | none =>
      rw [known] at named
      exact absurd named throw_ne_ok
  | some found =>
      rw [known] at named
      cases named
      exact ⟨opcode, Opcode.mnemonic_of_ofMnemonic? known, ran⟩

/-- The operand that a read instruction is emitted with: none where it reads as none. -/
def operandOf (instruction : Instruction) : Option Operand :=
  if instruction.operand = .none then none else some instruction.operand

/-- An instruction of a stream is emitted under its mnemonic. -/
theorem emitDecoded_eq_emitNamed (instruction : Instruction) :
    emitDecoded instruction = emitNamed instruction.mnemonic (operandOf instruction) :=
  (emitNamed_mnemonic instruction.opcode _).symm

/-! ## Emitting a stream again -/

theorem operandBytes_of_fits {kind : OperandKind} {instruction : Instruction}
    (fits : instruction.operand.Fits kind) :
    ∃ bytes, operandBytes kind (operandOf instruction) = .ok bytes := by
  unfold operandOf
  generalize instruction.operand = operand at fits
  cases fits with
  | switch displacements count =>
      have short : displacements.length < wordBound := count
      simp [operandBytes, short]
  | _ => exact ⟨_, rfl⟩

/-- An instruction of a stream takes more from the stack than there is. -/
def Underflows (instructions : List Instruction) (error : Error) : Prop :=
  ∃ instruction ∈ instructions, ∃ depth : Int, depth < 0 ∧
    error = .malformed (.atInstruction instruction.mnemonic
      (.stackUnderflow depth instruction.opcode.pops instruction.opcode.pushes))

/-- Nothing but the height of the stack keeps a read instruction from being emitted. -/
theorem underflows_of_emitDecoded {instruction : Instruction} {before after : Encoder}
    {error : Error} (fits : instruction.operand.Fits instruction.opcode.operand)
    (failed : emitDecoded instruction before = .error error after) :
    Underflows [instruction] error := by
  obtain ⟨bytes, encoded⟩ := operandBytes_of_fits fits
  have pushes : pushInstruction instruction.opcode (operandOf instruction) =
      push (.bytes (instruction.opcode.code.bytes ++ bytes)) := by
    rw [pushInstruction, encoded]
  change emit instruction.opcode (operandOf instruction) before = _ at failed
  rw [emit, pushes] at failed
  obtain failed | ⟨_, pushed, _, failed⟩ := bind_eq_error.mp failed
  · cases failed
  obtain failed | ⟨_, tracked, _, failed⟩ := bind_eq_error.mp failed
  · obtain ⟨_, depth, below, _, rfl⟩ := trackStack_eq_error failed
    exact ⟨instruction, by simp, depth.toInt, Int16.lt_iff_toInt_lt.mp below, rfl⟩
  · cases flow : instruction.opcode.flow <;> rw [flow] at failed <;> cases failed

theorem forM_emitDecoded {instructions : List Instruction}
    (fits : ∀ instruction ∈ instructions,
      instruction.operand.Fits instruction.opcode.operand)
    {before : Encoder} {code : List (Opcode × Operand)} (holds : before.HoldsPlain code) :
    (∃ error after, instructions.forM emitDecoded before = .error error after ∧
      Underflows instructions error) ∨
    ∃ after, instructions.forM emitDecoded before = .ok () after ∧
      after.HoldsPlain (code ++ Instruction.parts instructions) := by
  induction instructions generalizing before code with
  | nil => exact .inr ⟨before, rfl, by simpa [Instruction.parts] using holds⟩
  | cons instruction rest ih =>
      have firstFits := fits instruction (by simp)
      cases ran : emitDecoded instruction before with
      | error error after =>
          obtain ⟨_, member, underflow⟩ := underflows_of_emitDecoded firstFits ran
          obtain rfl := List.mem_singleton.mp member
          exact .inl ⟨error, after, bind_eq_error.mpr (.inl ran), _, by simp, underflow⟩
      | ok result middle =>
          obtain ⟨error, after, failed, failing, member, underflow⟩ | ⟨after, done, holdsAfter⟩ :=
            ih (fun other member => fits other (by simp [member]))
              (holds.append (appends_of_emitDecoded firstFits ran))
          · exact .inl ⟨error, after, bind_eq_error.mpr (.inr ⟨_, middle, ran, failed⟩), failing,
              by simp [member], underflow⟩
          · refine .inr ⟨after, bind_eq_ok.mpr ⟨_, middle, ran, done⟩, ?_⟩
            simpa [Instruction.parts] using holdsAfter

/-! ## Reading what was emitted -/

/-- What an operand reads as once it is written: itself, where the index of a local or of an
argument becomes a number. -/
inductive ReadsAs : Option Operand → Operand → Prop
  | absent : ReadsAs none .none
  | same (operand : Operand) : ReadsAs (some operand) operand
  | shortLocal (index : UInt16) (short : index.toNat < 256) :
      ReadsAs (some (.localIndex index)) (.immediate (.uint8 index.toUInt8))
  | shortArgument (index : UInt16) (short : index.toNat < 256) :
      ReadsAs (some (.argumentIndex index)) (.immediate (.uint8 index.toUInt8))
  | longLocal (index : UInt16) :
      ReadsAs (some (.localIndex index)) (.immediate (.uint16 index))
  | longArgument (index : UInt16) :
      ReadsAs (some (.argumentIndex index)) (.immediate (.uint16 index))

theorem readsAs_readBack {kind : OperandKind} {operand? : Option Operand} {bytes : List UInt8}
    (encoded : operandBytes kind operand? = .ok bytes) :
    ReadsAs operand? (readBack kind operand?) := by
  have short {index : UInt16} {written failure : Except Error (List UInt8)}
      (refused : failure ≠ .ok bytes)
      (chosen : (if index.toNat < 256 then written else failure) = .ok bytes) :
      index.toNat < 256 := by
    by_contra wide
    rw [if_neg wide] at chosen
    exact refused chosen
  unfold readBack
  split
  · exact .shortLocal _ (short (by nofun) encoded)
  · exact .shortArgument _ (short (by nofun) encoded)
  · exact .longLocal _
  · exact .longArgument _
  · cases operand? with
    | none => exact .absent
    | some operand => exact .same operand

theorem operandBytes_of_emit {opcode : Opcode} {operand? : Option Operand}
    {before after : Encoder} {result : Unit}
    (ran : emit opcode operand? before = .ok result after) :
    ∃ bytes, operandBytes opcode.operand operand? = .ok bytes := by
  obtain ⟨_, _, pushed, _⟩ := bind_eq_ok.mp ran
  unfold pushInstruction at pushed
  cases encoded : operandBytes opcode.operand operand? with
  | ok bytes => exact ⟨bytes, rfl⟩
  | error error =>
      rw [encoded] at pushed
      obtain ⟨_, _, _, failed⟩ := bind_eq_ok.mp pushed
      exact absurd failed throw_ne_ok

/-- An instruction stands for a call that emitted it. -/
def StandsFor (call : String × Option Operand) (opcode : Opcode) (operand : Operand) : Prop :=
  opcode.mnemonic = call.1 ∧ ReadsAs call.2 operand

theorem forM_emitNamed {calls : List (String × Option Operand)} {before after : Encoder}
    {code : List (Opcode × Operand)} (holds : before.HoldsPlain code)
    (ran : (calls.forM fun (mnemonic, operand?) => emitNamed mnemonic operand?) before =
      .ok () after) :
    ∃ emitted, after.HoldsPlain (code ++ emitted) ∧
      (∀ entry ∈ emitted, entry.2.Fits entry.1.operand) ∧
      List.Forall₂ (fun call entry => StandsFor call entry.1 entry.2) calls emitted := by
  induction calls generalizing before code with
  | nil =>
      cases ran
      exact ⟨[], by simpa using holds, by simp, .nil⟩
  | cons call rest ih =>
      obtain ⟨mnemonic, operand?⟩ := call
      obtain ⟨_, middle, callRan, ran⟩ := bind_eq_ok.mp ran
      obtain ⟨opcode, named, emitRan⟩ := emitNamed_eq_ok callRan
      obtain ⟨bytes, encoded⟩ := operandBytes_of_emit emitRan
      have appended := appends_of_emit emitRan
      obtain ⟨emitted, holdsAfter, fits, stands⟩ := ih (holds.append appended) ran
      refine ⟨(opcode, readBack opcode.operand operand?) :: emitted, ?_, ?_, ?_⟩
      · simpa using holdsAfter
      · exact List.forall_mem_cons.mpr ⟨(operandBytes_eq_ok encoded).1, fits⟩
      · exact .cons ⟨named, readsAs_readBack encoded⟩ stands

theorem forall₂_placedFrom {calls : List (String × Option Operand)}
    {emitted : List (Opcode × Operand)} (offset : Nat)
    (stands : List.Forall₂ (fun call entry => StandsFor call entry.1 entry.2) calls emitted) :
    List.Forall₂ (fun call instruction =>
        StandsFor call instruction.opcode instruction.operand) calls
      (Instruction.placedFrom offset emitted) := by
  induction stands generalizing offset with
  | nil => exact .nil
  | cons first _ ih => exact .cons first (ih _)

namespace Streamed

/-- Loads a zero, switches over one displacement, branches, and stores `-2` in local 300. -/
def bytes : List UInt8 :=
  [0x16, 0x45, 1, 0, 0, 0, 0, 0, 0, 0, 0x2B, 0, 0x20, 0xFE, 0xFF, 0xFF, 0xFF, 0xFE, 0x0E,
    0x2C, 0x01, 0x2A]

def calls : List (String × Option Operand) :=
  [("ldc.i4.0", none), ("switch", some (.switch [0])), ("br.s", some (.immediate (.int8 0))),
    ("ldc.i4", some (.immediate (.int32 (-2)))), ("stloc", some (.localIndex 300)),
    ("ret", none)]

def instructions : List Instruction := (Instruction.readStream bytes).instructions

theorem decoded : Instruction.decodeAll bytes = .ok instructions := by
  have noFailure : (Instruction.readStream bytes).failure? = none := by decide +kernel
  rw [Instruction.decodeAll, noFailure]
  rfl

def succeeds (step : EncoderM Unit) : Bool :=
  match step {} with
  | .ok _ _ => true
  | .error _ _ => false

theorem exists_of_succeeds {step : EncoderM Unit} (checked : succeeds step = true) :
    ∃ after, step {} = .ok () after := by
  unfold succeeds at checked
  cases ran : step {} with
  | ok result after => exact ⟨after, rfl⟩
  | error error after =>
      rw [ran] at checked
      cases checked

end Streamed

end Encoder

end Cil
