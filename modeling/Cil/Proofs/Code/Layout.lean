import Cil.Code.MethodCode
import Cil.Proofs.Code.Emission

/-!
# What laid out code reads as

Laying out emitted code gives every label the offset of its place and every branch the
displacement to its label.  The bytes read as the emitted instructions, one for one.
-/

namespace Cil

open Stateful
open MonadExcept (ofExcept)

/-! ## Sizes -/

theorem sizeOfItems_append (first second : List Item) :
    sizeOfItems (first ++ second) = sizeOfItems first + sizeOfItems second := by
  induction first with
  | nil => simp [sizeOfItems]
  | cons item first ih => simp [sizeOfItems, ih, Nat.add_assoc]

theorem offsetOf_le (items : List Item) (mark : Mark) :
    offsetOf items mark ≤ sizeOfItems items := by
  have parts := sizeOfItems_append (items.take mark) (items.drop mark)
  rw [List.take_append_drop] at parts
  unfold offsetOf
  omega

theorem offsetOf_mono (items : List Item) {first second : Mark} (le : first ≤ second) :
    offsetOf items first ≤ offsetOf items second := by
  have parts := offsetOf_le (items.take second) first
  rw [offsetOf, List.take_take, Nat.min_eq_left le] at parts
  exact parts

/-! ## Displacements -/

/-- A displacement counts as its machine word does, modulo the size of the word. -/
theorem toUInt64_emod (displacement : Int64) :
    (displacement.toUInt64.toNat : Int) % 0x10000000000000000 =
      displacement.toInt % 0x10000000000000000 := by
  rw [show displacement.toInt = Int.bmod displacement.toUInt64.toNat 0x10000000000000000 from
    BitVec.toInt_eq_toNat_bmod displacement.toBitVec]
  exact Int.bmod_emod.symm

/-- A displacement that is kept in full leads to its target. -/
theorem reached_eq {next target : Nat} {displacement : Int64}
    (exact : displacement.toInt = (target : Int) - next) (targetLt : target < 0x80000000) :
    (next + displacement.toUInt64.toNat) % 0x10000000000000000 = target := by
  have wide := toUInt64_emod displacement
  omega

/-- The displacement of a branch as it is written in an operand of a form. -/
def displaced (kind : OperandKind) (displacement : Int) : Immediate :=
  match kind with
  | .int8 => .int8 (Int8.ofInt displacement)
  | _ => .int32 (Int32.ofInt displacement)

theorem reached_of_int8 {next target : Nat} (targetLt : target < 0x80000000)
    (short : Layout.isShort ((target : Int) - next)) :
    (next + (displaced .int8 ((target : Int) - next)).toWord.toNat) % 0x10000000000000000 =
      target := by
  simp only [Layout.isShort, Bool.and_eq_true, decide_eq_true_eq] at short
  refine reached_eq ?_ targetLt
  rw [Int8.toInt_toInt64]
  exact Int8.toInt_ofInt_of_le (by omega) (by omega)

theorem reached_of_int32 {next target : Nat} (nextLt : next < 0x80000000)
    (targetLt : target < 0x80000000) :
    (next + (Int32.ofInt ((target : Int) - next)).toInt64.toUInt64.toNat) %
      0x10000000000000000 = target := by
  refine reached_eq ?_ targetLt
  rw [Int32.toInt_toInt64]
  exact Int32.toInt_ofInt_of_le (by omega) (by omega)

/-! ## Emitted instructions in place -/

namespace Emitted

def labels : Emitted → List String
  | plain .. => []
  | branch _ label => [label]
  | switch labels => labels

/-- The instruction at an offset, its labels being at the given targets. -/
def resolve (target : String → Nat) (offset : Nat) (emitted : Emitted) : Opcode × Operand :=
  let displacement (label : String) : Int :=
    (target label : Int) - ((offset + emitted.item.size : Nat) : Int)
  match emitted with
  | plain opcode operand => (opcode, operand)
  | branch opcode label => (opcode, .immediate (displaced opcode.operand (displacement label)))
  | switch labels => (.switch, .switch (labels.map fun label => Int32.ofInt (displacement label)))

/-- The operand of a branch is a displacement. -/
theorem operand_of_branch {opcode : Opcode} (isBranch : opcode.flow.isSingleBranch) :
    opcode.operand = .int8 ∨ opcode.operand = .int32 := by
  cases opcode <;> first | exact .inl rfl | exact .inr rfl | cases isBranch

theorem fits_resolve {emitted : Emitted} (proper : emitted.Proper) (target : String → Nat)
    (offset : Nat) :
    (emitted.resolve target offset).2.Fits (emitted.resolve target offset).1.operand := by
  cases emitted with
  | plain opcode operand => exact proper
  | branch opcode label =>
      rcases operand_of_branch proper with kind | kind
      · simp only [resolve, kind]
        exact .int8 _
      · simp only [resolve, kind]
        exact .int32 _
  | switch labels =>
      refine .switch _ ?_
      rw [List.length_map]
      exact proper

/-- An emitted instruction takes as many bytes as its item says. -/
theorem length_encode_resolve {emitted : Emitted} (proper : emitted.Proper)
    (target : String → Nat) (offset : Nat) :
    (Instruction.encode (emitted.resolve target offset).1
      (emitted.resolve target offset).2).length = emitted.item.size := by
  cases emitted with
  | plain opcode operand => rfl
  | branch opcode label =>
      rcases operand_of_branch proper with kind | kind <;>
        simp [resolve, item, Item.size, Instruction.encode, Operand.bytes, displaced,
          Immediate.width, kind, OperandKind.size?]
  | switch labels =>
      have one : Opcode.switch.code.bytes.length = 1 := rfl
      simp only [resolve, item, Item.size, Instruction.encode, Operand.bytes, List.length_append,
        one, Number.toBytes_length, length_displacementBytes, List.length_map]
      omega

def instruction (target : String → Nat) (offset : Nat) (emitted : Emitted) : Instruction :=
  Instruction.placed offset (emitted.resolve target offset).1 (emitted.resolve target offset).2

/-- A branch in place leads to its labels. -/
def Leads (target : String → Nat) (offset : Nat) (emitted : Emitted) : Prop :=
  (∀ opcode operand, emitted ≠ .plain opcode operand) →
    (emitted.instruction target offset).targets = emitted.labels.map target

theorem targets_instruction {emitted : Emitted} (proper : emitted.Proper)
    (target : String → Nat) (offset : Nat) :
    (emitted.instruction target offset).targets =
      Instruction.targetsOf (emitted.resolve target offset).1.flow
        (offset + emitted.item.size) (emitted.resolve target offset).2 := by
  rw [← length_encode_resolve proper target offset]
  rfl

/-- The instructions that emitted code reads as, from an offset on. -/
def instructionsFrom (target : String → Nat) : (offset : Nat) → List Emitted → List Instruction
  | _, [] => []
  | offset, emitted :: rest =>
      emitted.instruction target offset ::
        instructionsFrom target (offset + emitted.item.size) rest

theorem instructionsFrom_append (target : String → Nat) (offset : Nat)
    (first second : List Emitted) :
    instructionsFrom target offset (first ++ second) =
      instructionsFrom target offset first ++
        instructionsFrom target (offset + sizeOfItems (first.map item)) second := by
  induction first generalizing offset with
  | nil => rfl
  | cons emitted first ih =>
      simp only [List.cons_append, instructionsFrom, ih, List.map_cons, sizeOfItems,
        Nat.add_assoc]

/-- All branches of emitted code lead to their labels. -/
def LeadsFrom (target : String → Nat) : (offset : Nat) → List Emitted → Prop
  | _, [] => True
  | offset, emitted :: rest =>
      emitted.Leads target offset ∧ LeadsFrom target (offset + emitted.item.size) rest

theorem leadsFrom_append {target : String → Nat} {offset : Nat} {first second : List Emitted} :
    LeadsFrom target offset (first ++ second) ↔ LeadsFrom target offset first ∧
      LeadsFrom target (offset + sizeOfItems (first.map item)) second := by
  induction first generalizing offset with
  | nil => simp [LeadsFrom, sizeOfItems]
  | cons emitted first ih =>
      simp only [List.cons_append, LeadsFrom, ih, List.map_cons, sizeOfItems, and_assoc,
        Nat.add_assoc]

/-- The opcodes and operands of emitted code, from an offset on. -/
def resolveFrom (target : String → Nat) : (offset : Nat) → List Emitted →
    List (Opcode × Operand)
  | _, [] => []
  | offset, emitted :: rest =>
      emitted.resolve target offset :: resolveFrom target (offset + emitted.item.size) rest

theorem placedFrom_resolveFrom {emitted : List Emitted}
    (proper : ∀ instruction ∈ emitted, instruction.Proper) (target : String → Nat)
    (offset : Nat) :
    Instruction.placedFrom offset (resolveFrom target offset emitted) =
      instructionsFrom target offset emitted := by
  induction emitted generalizing offset with
  | nil => rfl
  | cons first rest ih =>
      have size := length_encode_resolve (proper first (by simp)) target offset
      simp only [resolveFrom, Instruction.placedFrom, instructionsFrom, instruction, size,
        ih fun instruction member => proper instruction (by simp [member])]

theorem fits_resolveFrom {emitted : List Emitted}
    (proper : ∀ instruction ∈ emitted, instruction.Proper) (target : String → Nat)
    (offset : Nat) :
    ∀ entry ∈ resolveFrom target offset emitted, entry.2.Fits entry.1.operand := by
  induction emitted generalizing offset with
  | nil => simp [resolveFrom]
  | cons first rest ih =>
      exact List.forall_mem_cons.mpr ⟨fits_resolve (proper first (by simp)) target offset,
        ih (fun instruction member => proper instruction (by simp [member])) _⟩

theorem length_encodeAll_resolveFrom {emitted : List Emitted}
    (proper : ∀ instruction ∈ emitted, instruction.Proper) (target : String → Nat)
    (offset : Nat) :
    (Instruction.encodeAll (resolveFrom target offset emitted)).length =
      sizeOfItems (emitted.map item) := by
  induction emitted generalizing offset with
  | nil => rfl
  | cons first rest ih =>
      have size := length_encode_resolve (proper first (by simp)) target offset
      simp only [resolveFrom, Instruction.encodeAll, List.flatMap_cons, List.length_append, size,
        List.map_cons, sizeOfItems] at ih ⊢
      rw [ih fun instruction member => proper instruction (by simp [member])]

end Emitted

/-! ## Bytes -/

namespace Layout

def Draft.target (draft : Draft) (label : String) : Nat :=
  match draft.labels.lookup label with
  | some mark => offsetOf draft.items mark
  | none => 0

theorem Draft.offsetOfLabel_eq_ok {draft : Draft} {label : String} {offset : Nat}
    (found : draft.offsetOfLabel label = .ok offset) :
    offset = draft.target label ∧ ∃ mark, draft.labels.lookup label = some mark := by
  unfold offsetOfLabel at found
  unfold target
  cases known : draft.labels.lookup label with
  | none => rw [known] at found; cases found
  | some mark =>
      rw [known] at found
      cases found
      exact ⟨rfl, mark, rfl⟩

theorem checkPosition_eq_ok {position : Nat} {failure : Malformation} {result : Unit}
    (checked : checkPosition position failure = .ok result) : position < 0x80000000 := by
  unfold checkPosition at checked
  split at checked
  · assumption
  · cases checked

/-- A branch that can be laid out leads to its label. -/
theorem branchBytes_eq_ok {draft : Draft} {opcode : Opcode} {label : String}
    (proper : (Emitted.branch opcode label).Proper) {offset : Nat} {bytes : List UInt8}
    (laid : branchBytes draft (offset, .branch opcode label) = .ok bytes) :
    let emitted := Emitted.branch opcode label
    bytes = Instruction.encode (emitted.resolve draft.target offset).1
        (emitted.resolve draft.target offset).2 ∧
      emitted.Leads draft.target offset ∧
      ∃ mark, draft.labels.lookup label = some mark := by
  obtain ⟨target, found, laid⟩ := except_bind_eq_ok.mp laid
  obtain ⟨rfl, defined⟩ := Draft.offsetOfLabel_eq_ok found
  obtain ⟨_, targetChecked, laid⟩ := except_bind_eq_ok.mp laid
  obtain ⟨_, nextChecked, laid⟩ := except_bind_eq_ok.mp laid
  have targetLt := checkPosition_eq_ok targetChecked
  have nextLt := checkPosition_eq_ok nextChecked
  have leads (reached : ((offset + (Item.branch opcode label).size) +
      (displaced opcode.operand ((draft.target label : Int) -
        ((offset + (Item.branch opcode label).size : Nat) : Int))).toWord.toNat) %
          0x10000000000000000 = draft.target label) :
      (Emitted.branch opcode label).Leads draft.target offset := by
    intro _
    have single : opcode.flow.isSingleBranch = true := proper
    rw [Emitted.targets_instruction proper]
    simp only [Emitted.resolve, Instruction.targetsOf, single, if_true, Emitted.labels,
      List.map_cons, List.map_nil]
    exact congrArg (fun reached => [reached]) reached
  rcases Emitted.operand_of_branch proper with kind | kind
  · simp only [kind] at laid leads
    split at laid
    · rename_i short
      cases laid
      refine ⟨?_, leads (reached_of_int8 targetLt short), defined⟩
      simp [Emitted.resolve, kind, displaced, Instruction.encode, Operand.bytes, Immediate.width,
        Immediate.bits, Emitted.item, Number.toBytes]
    · cases laid
  · simp only [kind] at laid leads
    cases laid
    refine ⟨?_, leads (reached_of_int32 nextLt targetLt), defined⟩
    simp [Emitted.resolve, kind, displaced, Instruction.encode, Operand.bytes, Immediate.width,
      Immediate.bits, Emitted.item]

/-- A switch that can be laid out leads to its labels. -/
theorem switchBytes_eq_ok {draft : Draft} {labels : List String}
    (proper : (Emitted.switch labels).Proper) {offset : Nat} {bytes : List UInt8}
    (laid : itemBytes draft (offset, .switch labels) = .ok bytes) :
    let emitted := Emitted.switch labels
    bytes = Instruction.encode (emitted.resolve draft.target offset).1
        (emitted.resolve draft.target offset).2 ∧
      emitted.Leads draft.target offset ∧
      ∀ label ∈ labels, ∃ mark, draft.labels.lookup label = some mark := by
  obtain ⟨_, nextChecked, laid⟩ := except_bind_eq_ok.mp laid
  have nextLt := checkPosition_eq_ok nextChecked
  obtain ⟨displacements, ran, laid⟩ := except_bind_eq_ok.mp laid
  have resolved (label : String) (result : List UInt8)
      (ran : (do
        let target ← draft.offsetOfLabel label
        checkPosition target .labelTooFar
        return Number.toBytes 4 (Int32.ofInt ((target : Int) -
          ((offset + (Item.switch labels).size : Nat) : Int))).toUInt32.toNat :
            Except Error (List UInt8)) = .ok result) :
      result = Number.toBytes 4 (Int32.ofInt ((draft.target label : Int) -
          ((offset + (Item.switch labels).size : Nat) : Int))).toUInt32.toNat ∧
        draft.target label < 0x80000000 ∧ ∃ mark, draft.labels.lookup label = some mark := by
    obtain ⟨target, found, ran⟩ := except_bind_eq_ok.mp ran
    obtain ⟨rfl, defined⟩ := Draft.offsetOfLabel_eq_ok found
    obtain ⟨_, targetChecked, final⟩ := except_bind_eq_ok.mp ran
    cases final
    exact ⟨rfl, checkPosition_eq_ok targetChecked, defined⟩
  obtain ⟨rfl, each⟩ := except_mapM_eq_ok (fun label result ran => (resolved label result ran).1)
    ran
  cases laid
  refine ⟨?_, fun _ => ?_, fun label member => (resolved label _ (each label member)).2.2⟩
  · simp [Emitted.resolve, Instruction.encode, Operand.bytes, displacementBytes,
      List.flatMap_def, Emitted.item, Function.comp_def]
  · have isSwitch : Opcode.switch.flow = .switch := rfl
    rw [Emitted.targets_instruction proper]
    simp only [Emitted.resolve, Instruction.targetsOf, isSwitch, if_true, List.map_map]
    exact List.map_congr_left fun label member =>
      reached_of_int32 nextLt (resolved label _ (each label member)).2.1

theorem itemBytes_eq_ok {draft : Draft} {emitted : Emitted} (proper : emitted.Proper)
    {offset : Nat} {bytes : List UInt8}
    (laid : itemBytes draft (offset, emitted.item) = .ok bytes) :
    bytes = Instruction.encode (emitted.resolve draft.target offset).1
        (emitted.resolve draft.target offset).2 ∧
      emitted.Leads draft.target offset ∧
      ∀ label ∈ emitted.labels, ∃ mark, draft.labels.lookup label = some mark := by
  cases emitted with
  | plain opcode operand =>
      cases laid
      exact ⟨rfl, fun branches => absurd rfl (branches opcode operand), by simp [Emitted.labels]⟩
  | branch opcode label =>
      obtain ⟨bytesEq, leads, defined⟩ := branchBytes_eq_ok proper laid
      exact ⟨bytesEq, leads, by simpa [Emitted.labels] using defined⟩
  | switch labels => exact switchBytes_eq_ok proper laid

theorem mapM_itemBytes_eq_ok {draft : Draft} {emitted : List Emitted}
    (proper : ∀ instruction ∈ emitted, instruction.Proper) {offset : Nat}
    {bytes : List (List UInt8)}
    (laid : (placedFrom offset (emitted.map Emitted.item)).mapM (itemBytes draft) = .ok bytes) :
    bytes.flatten = Instruction.encodeAll (Emitted.resolveFrom draft.target offset emitted) ∧
      Emitted.LeadsFrom draft.target offset emitted ∧
      ∀ instruction ∈ emitted, ∀ label ∈ instruction.labels,
        ∃ mark, draft.labels.lookup label = some mark := by
  induction emitted generalizing offset bytes with
  | nil => cases laid; exact ⟨rfl, trivial, by simp⟩
  | cons first rest ih =>
      rw [List.map_cons, placedFrom, List.mapM_cons] at laid
      obtain ⟨firstBytes, firstLaid, laid⟩ := except_bind_eq_ok.mp laid
      obtain ⟨restBytes, restLaid, final⟩ := except_bind_eq_ok.mp laid
      cases final
      obtain ⟨firstEq, firstLeads, firstDefined⟩ :=
        itemBytes_eq_ok (proper first (by simp)) firstLaid
      obtain ⟨restEq, restLeads, restDefined⟩ :=
        ih (fun instruction member => proper instruction (by simp [member])) restLaid
      refine ⟨?_, ⟨firstLeads, restLeads⟩, List.forall_mem_cons.mpr ⟨firstDefined, restDefined⟩⟩
      rw [List.flatten_cons, restEq, firstEq]
      rfl

/-- What laid out code is: it reads as the emitted instructions, its branches lead to their
labels, and these are defined. -/
structure Draft.LaidOut (draft : Draft) (emitted : List Emitted) (code : List UInt8) : Prop where
  decoded : Instruction.decodeAll code = .ok (Emitted.instructionsFrom draft.target 0 emitted)
  leads : Emitted.LeadsFrom draft.target 0 emitted
  defined : ∀ instruction ∈ emitted, ∀ label ∈ instruction.labels,
    ∃ mark, draft.labels.lookup label = some mark
  size : code.length = sizeOfItems draft.items

theorem bytes_eq_ok {draft : Draft} {emitted : List Emitted}
    (items : draft.items = emitted.map Emitted.item)
    (proper : ∀ instruction ∈ emitted, instruction.Proper) {code : List UInt8}
    (laid : draft.bytes = .ok code) : draft.LaidOut emitted code := by
  obtain ⟨_, _, laid⟩ := except_bind_eq_ok.mp laid
  obtain ⟨bytes, each, final⟩ := except_bind_eq_ok.mp laid
  cases final
  rw [Draft.placed, items] at each
  obtain ⟨codeEq, leads, defined⟩ := mapM_itemBytes_eq_ok proper each
  refine ⟨?_, leads, defined, ?_⟩
  · rw [codeEq, Instruction.decodeAll_encodeAll (Emitted.fits_resolveFrom proper _ _),
      Emitted.placedFrom_resolveFrom proper]
  · rw [codeEq, items]
    exact Emitted.length_encodeAll_resolveFrom proper _ _

end Layout

/-! ## Finished code -/

namespace Encoder

/-- The return that ends code that a branch leaves at its end. -/
def ending (encoder : Encoder) : List Emitted :=
  if encoder.branchesToEnd then [.plain .ret .none] else []

theorem appends_of_terminate {before after : Encoder} {result : Unit}
    (ran : terminate before = .ok result after) : Appends before after before.ending := by
  obtain ⟨_, _, read, ran⟩ := bind_eq_ok.mp ran
  obtain ⟨rfl, rfl⟩ := get_eq_ok.mp read
  unfold ending
  split at ran
  · rename_i leaves
    rw [if_pos leaves]
    exact appends_of_emit ran
  · rename_i stays
    rw [if_neg stays]
    cases ran
    exact .refl before

/-- What finishing code does: it ends the code, shortens branches if it may, and lays the code
out. -/
theorem finish_eq_ok {before after : Encoder} {emitted : List Emitted} {code : EmittedCode}
    (items : before.items.toList = emitted.map Emitted.item)
    (proper : ∀ instruction ∈ emitted, instruction.Proper)
    (ran : finish before = .ok code after) :
    before.openBlocks = [] ∧
      (∀ instruction ∈ emitted ++ before.ending, instruction.Proper) ∧
      ∃ draft : Layout.Draft,
        (if before.shortens then
            Layout.shorten Layout.maxRounds
              ⟨(emitted ++ before.ending).map Emitted.item, before.labels.toList⟩
          else .ok ⟨(emitted ++ before.ending).map Emitted.item, before.labels.toList⟩) =
          .ok draft ∧
        draft.bytes = .ok code.code ∧
        code.labels = draft.labels.map (fun (label, mark) => (label, offsetOf draft.items mark)) ∧
        code.clauses = before.clauses.toList.map (Layout.clauseOf draft.items) := by
  obtain ⟨_, _, read, ran⟩ := bind_eq_ok.mp ran
  obtain ⟨rfl, rfl⟩ := get_eq_ok.mp read
  cases blocks : before.openBlocks with
  | cons block others =>
      rw [blocks] at ran
      obtain ⟨_, _, _, ran⟩ := bind_eq_ok.mp ran
      obtain ⟨_, _, failed, _⟩ := bind_eq_ok.mp ran
      exact absurd failed throw_ne_ok
  | nil =>
      rw [blocks] at ran
      dsimp only at ran
      obtain ⟨_, ended, terminateRan, ran⟩ := bind_eq_ok.mp ran
      obtain ⟨_, _, read, ran⟩ := bind_eq_ok.mp ran
      obtain ⟨rfl, rfl⟩ := get_eq_ok.mp read
      obtain ⟨draft, _, draftRan, ran⟩ := bind_eq_ok.mp ran
      obtain ⟨bytes, _, bytesRan, ran⟩ := bind_eq_ok.mp ran
      obtain ⟨_, _, checked, ran⟩ := bind_eq_ok.mp ran
      cases ran
      obtain ⟨drafted, rfl⟩ := ofExcept_eq_ok.mp draftRan
      obtain ⟨laid, rfl⟩ := ofExcept_eq_ok.mp bytesRan
      -- What is laid out is the emitted code with the return behind it.
      have terminated := appends_of_terminate terminateRan
      have endedItems : ended.items.toList = (emitted ++ before.ending).map Emitted.item := by
        rw [terminated.items, items, List.map_append]
      rw [terminated.shortens, endedItems, terminated.labels] at drafted
      refine ⟨rfl, fun instruction member => ?_, draft, drafted, laid, rfl, ?_⟩
      · exact (List.mem_append.mp member).elim (proper instruction)
          (terminated.proper instruction)
      · rw [terminated.clauses]

/-- Without shortening, finished code is the emitted code, with a return behind it if a branch
leads to its end. -/
theorem finish_long_eq_ok {before after : Encoder} {emitted : List Emitted} {code : EmittedCode}
    (items : before.items.toList = emitted.map Emitted.item)
    (proper : ∀ instruction ∈ emitted, instruction.Proper) (long : before.shortens = false)
    (ran : finish before = .ok code after) :
    let draft : Layout.Draft :=
      { items := (emitted ++ before.ending).map Emitted.item, labels := before.labels.toList }
    before.openBlocks = [] ∧ draft.LaidOut (emitted ++ before.ending) code.code ∧
      code.clauses = before.clauses.toList.map (Layout.clauseOf draft.items) := by
  obtain ⟨closed, endedProper, draft, drafted, laid, _, clauses⟩ := finish_eq_ok items proper ran
  rw [long] at drafted
  cases drafted
  exact ⟨closed, Layout.bytes_eq_ok rfl endedProper laid, clauses⟩

end Encoder

end Cil
