import Cil.Proofs.Code.Decoding
import Cil.Proofs.Code.Requests

/-!
# Finished code as a method

Finished code is decoded again as the code of a method, which asks that branches lead to
instructions and that clauses have their boundaries at them.  Boundaries and branches never fail
that: code that a branch leaves at its end is ended with a return.  A switch is not looked at
there, so a label that only a switch leads to may stand at the end of the code.
-/

namespace Cil

open Stateful

/-- In lists that are related element by element, each element on the right has one on the
left. -/
theorem exists_of_forall₂ {α β : Type} {relation : α → β → Prop} {first : List α}
    {second : List β} (related : List.Forall₂ relation first second) {right : β}
    (member : right ∈ second) : ∃ left ∈ first, relation left right := by
  induction related with
  | nil => cases member
  | cons head _ ih =>
      obtain rfl | later := List.mem_cons.mp member
      · exact ⟨_, List.mem_cons_self, head⟩
      · obtain ⟨left, listed, holds⟩ := ih later
        exact ⟨left, List.mem_cons_of_mem _ listed, holds⟩

/-! ## Methods that are accepted -/

namespace MethodCode

variable {code : MethodCode}

theorem exists_of_strayBranch? {offset target : Nat}
    (stray : code.strayBranch? = some (offset, target)) :
    ∃ instruction ∈ code.instructions.toList, target ∈ instruction.targets ∧
      code.position? target = none := by
  obtain ⟨instruction, member, found⟩ := List.exists_of_findSome?_eq_some stray
  obtain ⟨other, found, same⟩ := Option.map_eq_some_iff.mp found
  cases same
  exact ⟨instruction, member, List.mem_of_find?_eq_some found,
    by simpa using List.find?_some found⟩

theorem strayBoundary?_eq_none
    (inside : ∀ clause ∈ code.clauses, ∀ offset ∈ clause.boundaries, code.isBoundary offset) :
    code.strayBoundary? = none := by
  refine List.findSome?_eq_none_iff.mpr fun clause member =>
    List.find?_eq_none.mpr fun offset listed => ?_
  simp [inside clause member offset listed]

end MethodCode

/-! ## Labels of instructions -/

namespace Emitted.ReadsAs

variable {shortens : Bool} {labels : List (String × Nat)} {emitted : Emitted}
  {instruction : Instruction}

/-- An instruction that does not branch has no targets. -/
theorem targets_eq_nil {opcode : Opcode} {operand : Operand}
    (reads : ReadsAs shortens labels (.plain opcode operand) instruction)
    (wellRead : instruction.WellRead) (direct : opcode.flow.isBranch = false) :
    instruction.targets = [] := by
  cases reads with
  | plain sameOpcode sameOperand =>
      simp only [Flow.isBranch, Bool.or_eq_false_iff, beq_eq_false_iff_ne] at direct
      rw [wellRead.targets, sameOpcode]
      unfold Instruction.targetsOf
      dsimp only
      split
      · rw [if_neg (by simp [direct.1])]
      · rw [if_neg direct.2]
      · rfl

/-- The labels of an instruction are where it leads to. -/
theorem mem_targets {target : Nat} {label : String}
    (reads : ReadsAs shortens labels emitted instruction) (listed : label ∈ emitted.labels)
    (known : labels.lookup label = some target) : target ∈ instruction.targets := by
  cases reads with
  | plain => cases listed
  | branch _ defined leads =>
      obtain rfl := List.mem_singleton.mp listed
      rw [leads]
      exact List.mem_singleton.mpr (Option.some.inj (known.symm.trans defined))
  | @switch names _ _ leads =>
      have among : some target ∈ names.map fun label => labels.lookup label :=
        List.mem_map.mpr ⟨label, listed, known⟩
      rw [← leads] at among
      simpa using among

/-- An instruction that branches by its labels leads nowhere else. -/
theorem exists_label {target : Nat} (reads : ReadsAs shortens labels emitted instruction)
    (wellRead : instruction.WellRead)
    (direct : ∀ opcode operand, emitted = .plain opcode operand → opcode.flow.isBranch = false)
    (leads : target ∈ instruction.targets) :
    ∃ label ∈ emitted.labels, labels.lookup label = some target := by
  cases emitted with
  | plain opcode operand =>
      rw [reads.targets_eq_nil wellRead (direct opcode operand rfl)] at leads
      cases leads
  | branch opcode label =>
      cases reads with
      | branch _ defined leadsTo =>
          rw [leadsTo] at leads
          obtain rfl := List.mem_singleton.mp leads
          exact ⟨label, List.mem_singleton.mpr rfl, defined⟩
  | switch names =>
      cases reads with
      | switch _ leadsTo =>
          have among := List.mem_map_of_mem (f := some) leads
          rw [leadsTo] at among
          exact List.mem_map.mp among

end Emitted.ReadsAs

/-! ## Filters of clauses -/

theorem Clause.contains_filter_of_kind {clause : Clause} (isFilter : clause.kind = .filterClause) :
    clause.flags.contains ClauseFlags.filter := by
  by_contra other
  rw [kind, if_neg other] at isFilter
  split at isFilter
  · cases isFilter
  · split at isFilter <;> cases isFilter

namespace Encoder

/-- Handlers that are run by a filter have one. -/
abbrev Filtered : Blocks → Prop :=
  Blocks.Each fun flags filterStart? _ =>
    flags.contains ClauseFlags.filter → filterStart?.isSome

theorem filtered_of_foldlM {commands : List Command} {outline final : Outline}
    (filtered : Filtered outline.blocks)
    (added : commands.foldlM Outline.add outline = some final) : Filtered final.blocks := by
  induction commands generalizing outline with
  | nil =>
      cases added
      exact filtered
  | cons command commands ih =>
      rw [List.foldlM_cons] at added
      obtain ⟨next, step, rest⟩ := Option.bind_eq_some_iff.mp added
      refine ih ?_ rest
      cases command with
      | region event =>
          obtain ⟨blocks, acts, rfl⟩ := Option.map_eq_some_iff.mp step
          refine Blocks.each_of_act filtered ?_ (fun _ _ kept => kept) acts
          intro flags isFilter begins
          cases event <;> cases begins <;> simp +decide
      | _ =>
          cases step
          exact filtered

/-! ## Finished code -/

/-- The ends of the ranges of finished code fit into 32 bits. -/
theorem ends_le_of_checkClause {items : List Item} {marked : MarkedClause}
    (checked : Layout.checkClause items marked = .ok ()) :
    let clause := Layout.clauseOf items marked
    clause.tryOffset + clause.tryLength ≤ Clause.lastOffset ∧
      clause.handlerOffset + clause.handlerLength ≤ Clause.lastOffset := by
  unfold Layout.checkClause at checked
  dsimp only at checked
  split at checked
  · rename_i fits
    have bound : wordBound = 0x100000000 := rfl
    simp only [List.cons_append, List.nil_append, List.all_cons, Bool.and_eq_true,
      decide_eq_true_eq] at fits
    simp only [Layout.clauseOf, Clause.lastOffset]
    omega
  · cases checked

namespace Finished

variable {shortens : Bool} {outline : Outline} {code : EmittedCode}
  {instructions : List Instruction}

/-- Behind the last instruction the code ends; no instruction starts there. -/
theorem offset_lt (finished : Finished shortens outline code instructions)
    {instruction : Instruction} (member : instruction ∈ instructions) :
    instruction.offset < code.code.length := by
  have stands := Instruction.stands_of_decodeAll finished.decoded
  have stop := stands.to_stop instruction member
  have size := (stands.wellRead instruction member).size_pos
  unfold Instruction.nextOffset at stop
  omega

theorem startOf_eq (code : EmittedCode) (instructions : List Instruction) (mark : Mark) :
    (∃ instruction ∈ instructions, instructions[mark]? = some instruction ∧
      code.startOf instructions mark = instruction.offset) ∨
    instructions.length ≤ mark ∧ code.startOf instructions mark = code.code.length := by
  unfold EmittedCode.startOf
  cases place : instructions[mark]? with
  | some instruction =>
      exact .inl ⟨instruction, List.mem_of_getElem? place, rfl, rfl⟩
  | none => exact .inr ⟨List.getElem?_eq_none_iff.mp place, rfl⟩

/-- No label that a branch leads to stands at the end of the code. -/
theorem lookup_ne_length (finished : Finished shortens outline code instructions)
    (within : ∀ entry ∈ outline.labels, entry.2 ≤ outline.here) {opcode : Opcode}
    {label : String} (branches : .branch opcode label ∈ outline.emitted) :
    code.labels.lookup label ≠ some code.code.length := by
  intro atEnd
  rw [finished.labels, lookup_map_offset] at atEnd
  obtain ⟨mark, known, start⟩ := Option.map_eq_some_iff.mp atEnd
  have le : mark ≤ outline.emitted.length := by
    obtain ⟨earlier, later, same, _⟩ := List.lookup_eq_some_iff.mp known
    exact within (label, mark) (by simp [same])
  obtain ⟨instruction, member, _, same⟩ | ⟨behind, _⟩ := startOf_eq code instructions mark
  · have := finished.offset_lt member
    omega
  have count : outline.emitted.length ≤ mark := by
    rw [← finished.reads.length_eq, Outline.terminated, List.length_append] at behind
    exact Nat.le_trans (Nat.le_add_right _ _) behind
  -- The label stands behind all instructions, and then a return was put behind them.
  have leaves : outline.leavesAtEnd := by
    refine List.any_eq_true.mpr ⟨_, branches, ?_⟩
    simp only [known, Outline.here, Nat.le_antisymm le count, beq_self_eq_true]
  rw [← finished.reads.length_eq, Outline.terminated, if_pos leaves, List.length_append,
    List.length_singleton] at behind
  exact Nat.not_succ_le_self _ (Nat.le_trans behind le)

/-- A stray branch is a switch to a label at the end of the code. -/
theorem exists_switch_of_stray (finished : Finished shortens outline code instructions)
    (within : ∀ entry ∈ outline.labels, entry.2 ≤ outline.here)
    (direct : ∀ opcode operand, .plain opcode operand ∈ outline.emitted →
      opcode.flow.isBranch = false)
    {instruction : Instruction} {target : Nat} (member : instruction ∈ instructions)
    (leads : target ∈ instruction.targets)
    (stray : ∀ reached ∈ instructions, reached.offset ≠ target) :
    target = code.code.length ∧ ∃ labels, .switch labels ∈ outline.emitted ∧
      ∃ label ∈ labels, code.labels.lookup label = some target := by
  have wellRead := (Instruction.stands_of_decodeAll finished.decoded).wellRead _ member
  obtain ⟨emitted, emittedMember, reads⟩ := exists_of_forall₂ finished.reads member
  have asked : emitted ∈ outline.emitted ∨ emitted = .plain .ret .none := by
    refine (List.mem_append.mp emittedMember).imp_right fun ending => ?_
    split at ending
    · exact List.mem_singleton.mp ending
    · cases ending
  obtain ⟨label, listed, known⟩ := reads.exists_label wellRead (fun opcode operand plain => by
    subst plain
    obtain asked | ending := asked
    · exact direct opcode operand asked
    · cases ending
      rfl) leads
  have atEnd : target = code.code.length := by
    rw [finished.labels, lookup_map_offset] at known
    obtain ⟨mark, _, rfl⟩ := Option.map_eq_some_iff.mp known
    obtain ⟨reached, reachedMember, _, same⟩ | ⟨_, same⟩ := startOf_eq code instructions mark
    · exact absurd same.symm (stray reached reachedMember)
    · exact same
  refine ⟨atEnd, ?_⟩
  cases emitted with
  | plain => cases listed
  | branch opcode other =>
      obtain rfl := List.mem_singleton.mp listed
      obtain asked | ending := asked
      · exact absurd (atEnd ▸ known) (finished.lookup_ne_length within asked)
      · cases ending
  | switch labels =>
      obtain asked | ending := asked
      · exact ⟨labels, asked, label, listed, known⟩
      · cases ending

/-- Clauses have their boundaries at instructions or at the end of the code. -/
theorem boundary_eq_startOf (finished : Finished shortens outline code instructions)
    (filtered : Filtered outline.blocks)
    (fits : ∀ clause ∈ code.clauses,
      clause.tryOffset + clause.tryLength ≤ Clause.lastOffset ∧
        clause.handlerOffset + clause.handlerLength ≤ Clause.lastOffset)
    {clause : Clause} (member : clause ∈ code.clauses) {offset : Nat}
    (listed : offset ∈ clause.boundaries) :
    ∃ mark, offset = code.startOf instructions mark := by
  obtain ⟨marked, markedMember, lies⟩ := exists_of_forall₂ finished.clauses member
  obtain ⟨tryFits, handlerFits⟩ := fits clause member
  simp only [Clause.boundaries, List.cons_append, List.nil_append, List.mem_cons,
    Clause.tryEnd, Clause.handlerEnd, Nat.min_eq_left tryFits, Nat.min_eq_left handlerFits]
    at listed
  rcases listed with rfl | rfl | rfl | rfl | filters
  · exact ⟨_, lies.tryStart⟩
  · exact ⟨_, lies.tryEnd⟩
  · exact ⟨_, lies.handlerStart⟩
  · exact ⟨_, lies.handlerEnd⟩
  · split at filters
    · rename_i isFilter
      have flagged := Clause.contains_filter_of_kind isFilter
      rw [lies.flags] at flagged
      obtain ⟨mark, start⟩ :=
        Option.isSome_iff_exists.mp (filtered.finished marked markedMember flagged)
      obtain rfl := List.mem_singleton.mp filters
      exact ⟨mark, lies.filterStart mark start⟩
    · cases filters

/-! ## The method that finished code makes -/

/-- The method of finished code, before it is checked. -/
def method (code : EmittedCode) (instructions : List Instruction) (locals : List LocalVariable)
    (initLocals : Bool) : MethodCode :=
  { instructions := instructions.toArray, locals, clauses := code.clauses
    maxStack := code.maxStack, initLocals, codeSize := code.code.length }

variable (locals : List LocalVariable) (initLocals : Bool)

theorem ofBytes_eq (finished : Finished shortens outline code instructions) :
    MethodCode.ofBytes code.code locals code.clauses code.maxStack initLocals =
      (method code instructions locals initLocals).validate := by
  rw [MethodCode.ofBytes, finished.decoded]
  rfl

theorem isSome_position? {reached : Instruction} (member : reached ∈ instructions) :
    ((method code instructions locals initLocals).position? reached.offset).isSome :=
  MethodCode.isSome_position? ⟨reached, by simpa [method] using member, rfl⟩

/-- No clause of finished code has a boundary inside an instruction. -/
theorem strayBoundary?_eq_none (finished : Finished shortens outline code instructions)
    (filtered : Filtered outline.blocks)
    (fits : ∀ clause ∈ code.clauses,
      clause.tryOffset + clause.tryLength ≤ Clause.lastOffset ∧
        clause.handlerOffset + clause.handlerLength ≤ Clause.lastOffset) :
    (method code instructions locals initLocals).strayBoundary? = none := by
  refine MethodCode.strayBoundary?_eq_none fun clause member offset listed => ?_
  obtain ⟨mark, rfl⟩ := finished.boundary_eq_startOf filtered fits member listed
  obtain ⟨reached, reachedMember, _, same⟩ | ⟨_, atEnd⟩ := startOf_eq code instructions mark
  · rw [same, MethodCode.isBoundary, isSome_position? locals initLocals reachedMember,
      Bool.or_true]
  · simp [MethodCode.isBoundary, atEnd, method]

variable {locals : List LocalVariable} {initLocals : Bool}

/-- A branch of finished code that is stray is a switch to a label at the end of the code. -/
theorem exists_switch_of_strayBranch? (finished : Finished shortens outline code instructions)
    (within : ∀ entry ∈ outline.labels, entry.2 ≤ outline.here)
    (direct : ∀ opcode operand, .plain opcode operand ∈ outline.emitted →
      opcode.flow.isBranch = false) {offset target : Nat}
    (stray : (method code instructions locals initLocals).strayBranch? = some (offset, target)) :
    target = code.code.length ∧ ∃ labels, .switch labels ∈ outline.emitted ∧
      ∃ label ∈ labels, code.labels.lookup label = some target := by
  obtain ⟨instruction, member, leads, missing⟩ := MethodCode.exists_of_strayBranch? stray
  refine finished.exists_switch_of_stray within direct (by simpa [method] using member) leads ?_
  rintro reached listed rfl
  have found : ((method code instructions locals initLocals).position? reached.offset).isSome :=
    isSome_position? locals initLocals listed
  rw [missing] at found
  cases found

/-- Where finished code is accepted, no switch leads to its end. -/
theorem lookup_ne_of_accepted (finished : Finished shortens outline code instructions)
    (accepted : MethodCode.ofBytes code.code locals code.clauses code.maxStack initLocals =
      .ok (method code instructions locals initLocals)) {labels : List String}
    (switches : .switch labels ∈ outline.emitted) {label : String} (listed : label ∈ labels) :
    code.labels.lookup label ≠ some code.code.length := by
  intro atEnd
  obtain ⟨instruction, member, reads⟩ :=
    exists_of_forall₂ finished.reads.flip (List.mem_append_left _ switches)
  obtain ⟨reached, reachedMember, offset⟩ :=
    (MethodCode.decoded_of_ofBytes accepted).1.targets instruction (by simpa [method])
      _ (reads.mem_targets listed atEnd)
  have inside := finished.offset_lt (by simpa [method] using reachedMember)
  exact absurd offset (Nat.ne_of_lt inside)

end Finished

/-! ## What is accepted -/

namespace Request

/-- Branches and switches are emitted by their labels only. -/
def ByLabel : Request → Prop
  | ask (.emit opcode _) | ask (.emitCall opcode _ _ _) => opcode.flow.isBranch = false
  | _ => True

theorem direct_of_byLabel {request : Request} (byLabel : request.ByLabel) {command : Command}
    (asks : request.command? = some command) {opcode : Opcode} {operand : Operand}
    (plain : Outline.instruction? command = some (.plain opcode operand)) :
    opcode.flow.isBranch = false := by
  cases request <;> cases asks
  cases command <;> cases plain <;> exact byLabel

end Request

/-- The instructions of an outline are those that the requests ask for. -/
theorem mem_emitted_iff {requests : List Request} {outline : Outline}
    (outlined : Outline.ofCommands (requests.filterMap Request.command?) = some outline)
    {emitted : Emitted} :
    emitted ∈ outline.emitted ↔ ∃ request ∈ requests, ∃ command,
      request.command? = some command ∧ Outline.instruction? command = some emitted := by
  rw [Outline.emitted_of_foldlM outlined]
  simp only [Outline.empty, List.nil_append, List.mem_filterMap]
  constructor
  · rintro ⟨command, ⟨request, member, asks⟩, plain⟩
    exact ⟨request, member, command, asks, plain⟩
  · rintro ⟨request, member, command, asks, plain⟩
    exact ⟨command, ⟨request, member, asks⟩, plain⟩

theorem mem_switch_iff {requests : List Request} {outline : Outline}
    (outlined : Outline.ofCommands (requests.filterMap Request.command?) = some outline)
    {labels : List String} :
    Emitted.switch labels ∈ outline.emitted ↔ Request.ask (.emitSwitch labels) ∈ requests := by
  rw [mem_emitted_iff outlined]
  constructor
  · rintro ⟨request, member, command, asks, switches⟩
    cases request <;> cases asks
    cases command <;> cases switches
    exact member
  · exact fun member => ⟨_, member, _, rfl, rfl⟩

theorem ends_le_of_assemble {requests : List Request} {code : EmittedCode} {final : Encoder}
    (ran : assemble requests {} = .ok code final) :
    ∀ clause ∈ code.clauses, clause.tryOffset + clause.tryLength ≤ Clause.lastOffset ∧
      clause.handlerOffset + clause.handlerLength ≤ Clause.lastOffset := by
  obtain ⟨_, done, _, finishRan⟩ := bind_eq_ok.mp ran
  obtain ⟨ended, _, _, items, clauses, checked⟩ := exists_terminate_of_finish finishRan
  intro clause member
  rw [clauses] at member
  obtain ⟨marked, listed, rfl⟩ := List.mem_map.mp member
  exact ends_le_of_checkClause (checked marked listed)

/-- Finished code whose branches and switches were emitted by their labels is accepted as the
code of a method if and only if no switch leads to the end of the code; a switch that does is
the only reason to refuse it. -/
theorem accepted_iff {requests : List Request} {code : EmittedCode} {final : Encoder}
    (byLabel : ∀ request ∈ requests, request.ByLabel)
    (ran : assemble requests {} = .ok code final) (locals : List LocalVariable)
    (initLocals : Bool) :
    ((∃ method,
        MethodCode.ofBytes code.code locals code.clauses code.maxStack initLocals = .ok method) ↔
      ∀ labels, Request.ask (.emitSwitch labels) ∈ requests → ∀ label ∈ labels,
        code.labels.lookup label ≠ some code.code.length) ∧
    ∀ error,
      MethodCode.ofBytes code.code locals code.clauses code.maxStack initLocals = .error error →
      ∃ offset, error = .malformed (.branchTarget offset code.code.length) := by
  obtain ⟨shortens, outline, instructions, outlined, finished⟩ := finished_of_assemble ran
  have within : ∀ entry ∈ outline.labels, entry.2 ≤ outline.here :=
    Outline.labels_of_foldlM (by simp [Outline.empty]) outlined
  have filtered : Filtered outline.blocks :=
    filtered_of_foldlM ⟨by simp [Outline.empty], by simp [Outline.empty]⟩ outlined
  have direct (opcode : Opcode) (operand : Operand)
      (plain : .plain opcode operand ∈ outline.emitted) : opcode.flow.isBranch = false := by
    obtain ⟨request, member, command, asks, asked⟩ := (mem_emitted_iff outlined).mp plain
    exact Request.direct_of_byLabel (byLabel request member) asks asked
  have bounded :=
    finished.strayBoundary?_eq_none locals initLocals filtered (ends_le_of_assemble ran)
  have checks := finished.ofBytes_eq locals initLocals
  rw [MethodCode.validate, bounded] at checks
  cases stray : (Finished.method code instructions locals initLocals).strayBranch? with
  | none =>
      rw [stray] at checks
      refine ⟨iff_of_true ⟨_, checks⟩ fun labels switches label listed => ?_,
        fun error refused => ?_⟩
      · exact finished.lookup_ne_of_accepted checks ((mem_switch_iff outlined).mpr switches) listed
      · rw [checks] at refused
        cases refused
  | some found =>
      obtain ⟨offset, target⟩ := found
      obtain ⟨rfl, labels, switches, label, listed, known⟩ :=
        finished.exists_switch_of_strayBranch? within direct stray
      rw [stray] at checks
      rw [checks]
      constructor
      · constructor
        · rintro ⟨method, accepted⟩
          cases accepted
        · intro ends
          exact absurd known (ends labels ((mem_switch_iff outlined).mp switches) label listed)
      · rintro _ ⟨⟩
        exact ⟨offset, rfl⟩

/-! ## Jumps to the end of the code -/

namespace JumpsToEnd

/-- A switch to the end of the code, or a branch to it and a switch. -/
def requests (branches : Bool) : List Request :=
  [.ask (.emit .ldcI40 none), .ask (.emitSwitch ["end"])] ++
    (if branches then [.ask (.emitBranch .br "end")] else []) ++ [.ask (.defineLabel "end")]

theorem byLabel (branches : Bool) : ∀ request ∈ requests branches, request.ByLabel := by
  have direct : Opcode.ldcI40.flow.isBranch = false := rfl
  cases branches <;> simp [requests, Request.ByLabel, direct]

/-- A return that a branch has put behind the label of a switch is where the switch leads to. -/
theorem accepts_branch :
    ∃ code final, assemble (requests true) {} = .ok code final ∧
      (∀ request ∈ requests true, request.ByLabel) ∧
      ((∃ method, MethodCode.ofBytes code.code [] code.clauses code.maxStack false = .ok method) ↔
        ∀ labels, Request.ask (.emitSwitch labels) ∈ requests true → ∀ label ∈ labels,
          code.labels.lookup label ≠ some code.code.length) ∧
      ∃ method, MethodCode.ofBytes code.code [] code.clauses code.maxStack false = .ok method := by
  have found : (assembled? (requests true)).isSome := by decide +kernel
  obtain ⟨code, found⟩ := Option.isSome_iff_exists.mp found
  obtain ⟨final, ran⟩ := assemble_of_assembled? found
  have inside : (assembled? (requests true)).all fun code =>
      code.labels.lookup "end" != some code.code.length := by decide +kernel
  rw [found] at inside
  have accepted := (accepted_iff (byLabel true) ran [] false).1
  refine ⟨code, final, ran, byLabel true, accepted, accepted.mpr ?_⟩
  intro labels switches label listed
  obtain rfl : labels = ["end"] := by simpa [requests] using switches
  obtain rfl := List.mem_singleton.mp listed
  simpa using inside

/-- Why code is refused as the code of a method. -/
def refusal? (code : EmittedCode) : Option Error :=
  match MethodCode.ofBytes code.code [] code.clauses code.maxStack false with
  | .ok _ => none
  | .error error => some error

/-- A switch to the end of the code is all that leads there, and the code is refused. -/
theorem refuses_switch :
    ∃ code final, assemble (requests false) {} = .ok code final ∧
      (∀ request ∈ requests false, request.ByLabel) ∧
      refusal? code = some (.malformed (.branchTarget 1 10)) := by
  have found : assembled? (requests false) =
      some ⟨[0x16, 0x45, 1, 0, 0, 0, 0, 0, 0, 0], 1, [("end", 10)], []⟩ := by decide +kernel
  obtain ⟨final, ran⟩ := assemble_of_assembled? found
  exact ⟨_, final, ran, byLabel false, by decide +kernel⟩

end JumpsToEnd

end Encoder

end Cil
