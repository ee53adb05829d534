import Cil.Proofs.Code.Shortening
import Cil.Proofs.Isolation.Places
import Mathlib.Data.List.Nodup

/-!
# What commands are encoded as

Commands ask an encoder for instructions, labels and exception blocks.  Whether branches are
shortened or not, the finished code reads as the instructions asked for, every branch leads to
where its label was defined, and every clause lies where its block was begun and ended.
-/

namespace Cil

open Stateful

namespace Encoder

/-- A call of an encoder. -/
inductive Command
  | emit (opcode : Opcode) (operand? : Option Operand)
  | emitCall (opcode : Opcode) (operand? : Option Operand) (arguments : Nat) (hasResult : Bool)
  | emitBranch (opcode : Opcode) (label : String)
  | emitSwitch (labels : List String)
  | defineLabel (label : String)
  | region (event : RegionEvent)

def Command.perform : Command → EncoderM Unit
  | emit opcode operand? => Encoder.emit opcode operand?
  | emitCall opcode operand? arguments hasResult =>
      Encoder.emitCall opcode operand? arguments hasResult
  | emitBranch opcode label => Encoder.emitBranch opcode label
  | emitSwitch labels => Encoder.emitSwitch labels
  | defineLabel label => Encoder.defineLabel label
  | region event => Regions.perform event

/-- Carries out commands and finishes the code. -/
def encode (shortens : Bool) (commands : List Command) : EncoderM EmittedCode := do
  setShortening shortens
  commands.forM Command.perform
  finish

/-- What commands ask for: instructions, and how many of them stand in front of the labels and
the boundaries of clauses. -/
structure Outline where
  emitted : List Emitted
  labels : List (String × Mark)
  blocks : Blocks

namespace Outline

/-- The instruction that a command asks for. -/
def instruction? : Command → Option Emitted
  | .emit opcode operand? | .emitCall opcode operand? _ _ =>
      some (.plain opcode (readBack opcode.operand operand?))
  | .emitBranch opcode label => some (.branch opcode label)
  | .emitSwitch labels => some (.switch labels)
  | .defineLabel _ | .region _ => none

def here (outline : Outline) : Mark := outline.emitted.length

def add (outline : Outline) : Command → Option Outline
  | .defineLabel label => some { outline with labels := outline.labels ++ [(label, outline.here)] }
  | .region event =>
      (Blocks.act outline.here outline.blocks event).map fun blocks => { outline with blocks }
  | command => some { outline with emitted := outline.emitted ++ (instruction? command).toList }

def empty : Outline := ⟨[], [], ⟨[], []⟩⟩

def ofCommands (commands : List Command) : Option Outline :=
  commands.foldlM add empty

/-- Whether a branch leads to the end of the code. -/
def leavesAtEnd (outline : Outline) : Bool :=
  outline.emitted.any fun
    | .branch _ label => outline.labels.lookup label == some outline.here
    | _ => false

/-- All instructions, with a return behind them if a branch leads there. -/
def terminated (outline : Outline) : List Emitted :=
  outline.emitted ++ if outline.leavesAtEnd then [.plain .ret .none] else []

end Outline

/-! ## Following the commands -/

/-- An encoder holds what an outline says. -/
structure Follows (encoder : Encoder) (outline : Outline) : Prop where
  items : encoder.items.toList = outline.emitted.map Emitted.item
  proper : ∀ instruction ∈ outline.emitted, instruction.Proper
  labels : encoder.labels.toList = outline.labels
  distinct : (outline.labels.map (·.1)).Nodup
  blocks : encoder.blocks = outline.blocks

namespace Follows

variable {before after : Encoder} {outline : Outline} {result : Unit}

theorem here (follows : Follows before outline) : before.here = outline.here := by
  simpa [Encoder.here, Outline.here] using congrArg List.length follows.items

theorem appends {emitted : List Emitted} (follows : Follows before outline)
    (appended : Appends before after emitted) :
    Follows after { outline with emitted := outline.emitted ++ emitted } where
  items := by rw [appended.items, follows.items, List.map_append]
  proper instruction member :=
    (List.mem_append.mp member).elim (follows.proper instruction) (appended.proper instruction)
  labels := by rw [appended.labels, follows.labels]
  distinct := follows.distinct
  blocks := by
    rw [← follows.blocks]
    simp [Encoder.blocks, appended.openBlocks, appended.clauses]

theorem step {command : Command} (follows : Follows before outline)
    (ran : command.perform before = .ok result after) :
    ∃ next, outline.add command = some next ∧ Follows after next ∧
      after.shortens = before.shortens := by
  cases command with
  | emit opcode operand? =>
      have appended := appends_of_emit ran
      exact ⟨_, rfl, follows.appends appended, appended.shortens⟩
  | emitCall opcode operand? arguments hasResult =>
      have appended := appends_of_emitCall ran
      exact ⟨_, rfl, follows.appends appended, appended.shortens⟩
  | emitBranch opcode label =>
      have appended := appends_of_emitBranch ran
      exact ⟨_, rfl, follows.appends appended, appended.shortens⟩
  | emitSwitch labels =>
      have appended := appends_of_emitSwitch ran
      exact ⟨_, rfl, follows.appends appended, appended.shortens⟩
  | defineLabel label =>
      obtain ⟨fresh, labels, items, shortens, blocks⟩ := defineLabel_eq_ok ran
      rw [follows.labels] at fresh labels
      rw [follows.here] at labels
      refine ⟨_, rfl, ⟨?_, follows.proper, labels, ?_, blocks.trans follows.blocks⟩, shortens⟩
      · rw [items]
        exact follows.items
      · rw [List.map_append]
        exact List.Nodup.append follows.distinct (List.nodup_singleton label)
          (List.disjoint_singleton.mpr fresh)
  | region event =>
      obtain ⟨acts, same⟩ := perform_eq_ok ran
      rw [follows.here, follows.blocks] at acts
      refine ⟨{ outline with blocks := after.blocks }, by rw [Outline.add, acts, Option.map_some],
        ⟨?_, follows.proper, ?_, follows.distinct, rfl⟩, same.shortens⟩
      · rw [same.items]
        exact follows.items
      · rw [same.labels]
        exact follows.labels

/-- An encoder that carries out commands holds what they ask for. -/
theorem run {commands : List Command} (follows : Follows before outline)
    (ran : commands.forM Command.perform before = .ok result after) :
    ∃ final, commands.foldlM Outline.add outline = some final ∧ Follows after final ∧
      after.shortens = before.shortens := by
  induction commands generalizing before outline with
  | nil =>
      obtain ⟨_, rfl⟩ := pure_eq_ok.mp ran
      exact ⟨outline, rfl, follows, rfl⟩
  | cons command commands ih =>
      obtain ⟨_, middle, stepRan, ran⟩ := bind_eq_ok.mp ran
      obtain ⟨next, added, followsNext, shortensNext⟩ := follows.step stepRan
      obtain ⟨final, rest, followsFinal, shortens⟩ := ih followsNext ran
      refine ⟨final, ?_, followsFinal, shortens.trans shortensNext⟩
      rw [List.foldlM_cons, added]
      exact rest

theorem ending_eq (follows : Follows before outline) :
    outline.emitted ++ before.ending = outline.terminated := by
  have lookup (label : String) :
      before.labelMark? label = outline.labels.lookup label := by
    rw [← follows.labels, labelMark?, ← Array.find?_toList]
    induction before.labels.toList with
    | nil => rfl
    | cons first rest ih =>
        obtain ⟨name, mark⟩ := first
        rw [List.find?_cons, List.lookup_cons]
        by_cases isName : label = name
        · simp [isName]
        · rw [beq_false_of_ne isName, beq_false_of_ne (Ne.symm isName)]
          exact ih
  have leaves : before.branchesToEnd = outline.leavesAtEnd := by
    rw [branchesToEnd, ← Array.any_toList, follows.items, Outline.leavesAtEnd, List.any_map]
    congr 1
    funext emitted
    cases emitted <;> simp [Emitted.item, lookup, follows.here]
  rw [ending, leaves, Outline.terminated]

end Follows

end Encoder

/-! ## Boundaries in order -/

/-- The boundaries of a block come one after the other. -/
structure OpenBlock.Begun (here : Mark) (block : OpenBlock) : Prop where
  start : block.tryStart ≤ here
  stop : ∀ mark, block.tryEnd? = some mark → block.tryStart ≤ mark
  handler : ∀ pending, block.current? = some pending → ∀ mark,
    pending.handlerStart? = some mark → block.tryStart ≤ mark ∧ mark ≤ here

/-- The boundaries of a clause come one after the other. -/
structure MarkedClause.Ascends (clause : MarkedClause) : Prop where
  guarded : clause.tryStart ≤ clause.tryEnd
  handled : clause.handlerStart ≤ clause.handlerEnd

/-- The boundaries of all blocks come one after the other. -/
structure Blocks.Ascend (here : Mark) (blocks : Blocks) : Prop where
  opened : ∀ block ∈ blocks.opened, block.Begun here
  finished : ∀ clause ∈ blocks.finished, clause.Ascends

theorem OpenBlock.Begun.close {here : Mark} {block : OpenBlock} (begun : block.Begun here)
    {closed : List MarkedClause} (closes : block.close here = some closed) :
    ∀ clause ∈ closed, clause.Ascends := by
  obtain ⟨tryStart, tryEnd?, current?⟩ := block
  rcases current? with _ | ⟨flags, class?, filterStart?, handlerStart?⟩
  · cases closes
    simp
  · cases handlerStart? with
    | none => cases closes
    | some handlerStart =>
        cases closes
        obtain ⟨after, before⟩ := begun.handler _ rfl handlerStart rfl
        have guarded : tryStart ≤ tryEnd?.getD handlerStart := by
          cases tryEnd? with
          | none => exact after
          | some stop => exact begun.stop stop rfl
        exact List.forall_mem_singleton.mpr ⟨guarded, before⟩

namespace Blocks

variable {here : Mark} {blocks next : Blocks}

theorem Ascend.later {there : Mark} (ascend : blocks.Ascend here) (le : here ≤ there) :
    blocks.Ascend there where
  opened block member :=
    have begun := ascend.opened block member
    ⟨Nat.le_trans begun.start le, begun.stop, fun pending current mark started =>
      have inside := begun.handler pending current mark started
      ⟨inside.1, Nat.le_trans inside.2 le⟩⟩
  finished := ascend.finished

theorem ascend_of_startHandler {flags : ClauseFlags} {class? : Option Token} {isFilter : Bool}
    (ascend : blocks.Ascend here)
    (started : blocks.startHandler flags class? isFilter here = some next) :
    next.Ascend here := by
  obtain ⟨opened, finished⟩ := blocks
  cases opened with
  | nil => cases started
  | cons block outer =>
      obtain ⟨closed, closes, rfl⟩ := Option.map_eq_some_iff.mp started
      obtain ⟨begun, others⟩ := List.forall_mem_cons.mp ascend.opened
      have ended :
          OpenBlock.Begun here { block with tryEnd? := some (block.tryEnd?.getD here) } := by
        refine ⟨begun.start, fun mark isEnd => ?_, begun.handler⟩
        cases stop : block.tryEnd? with
        | none =>
            rw [stop] at isEnd
            cases isEnd
            exact begun.start
        | some mark =>
            rw [stop] at isEnd
            cases isEnd
            exact begun.stop mark stop
      refine ⟨List.forall_mem_cons.mpr ⟨⟨begun.start, ended.stop, ?_⟩, others⟩,
        List.forall_mem_append.mpr ⟨ascend.finished, ended.close closes⟩⟩
      rintro _ ⟨⟩ mark isStart
      cases isFilter <;> cases isStart
      exact ⟨begun.start, Nat.le_refl here⟩

theorem ascend_of_startFiltered (ascend : blocks.Ascend here)
    (started : blocks.startFiltered here = some next) : next.Ascend here := by
  obtain ⟨opened, finished⟩ := blocks
  cases opened with
  | nil => cases started
  | cons block outer =>
      obtain ⟨tryStart, tryEnd?, current?⟩ := block
      cases current? with
      | none => cases started
      | some pending =>
          simp only [startFiltered] at started
          split at started
          · cases started
            obtain ⟨begun, others⟩ := List.forall_mem_cons.mp ascend.opened
            refine ⟨List.forall_mem_cons.mpr ⟨⟨begun.start, begun.stop, ?_⟩, others⟩,
              ascend.finished⟩
            rintro _ ⟨⟩ mark ⟨⟩
            exact ⟨begun.start, Nat.le_refl here⟩
          · cases started

theorem ascend_of_endBlock (ascend : blocks.Ascend here)
    (ended : blocks.endBlock here = some next) : next.Ascend here := by
  obtain ⟨opened, finished⟩ := blocks
  cases opened with
  | nil => cases ended
  | cons block outer =>
      simp only [endBlock] at ended
      split at ended
      · cases ended
      · obtain ⟨closed, closes, rfl⟩ := Option.map_eq_some_iff.mp ended
        obtain ⟨begun, others⟩ := List.forall_mem_cons.mp ascend.opened
        exact ⟨others, List.forall_mem_append.mpr ⟨ascend.finished, begun.close closes⟩⟩

theorem ascend_of_act {event : RegionEvent} (ascend : blocks.Ascend here)
    (acts : act here blocks event = some next) : next.Ascend here := by
  cases event with
  | beginTry =>
      cases acts
      exact ⟨List.forall_mem_cons.mpr ⟨⟨Nat.le_refl here, by simp, by simp⟩, ascend.opened⟩,
        ascend.finished⟩
  | beginCatch exceptionClass => exact ascend_of_startHandler ascend acts
  | beginFilter => exact ascend_of_startHandler ascend acts
  | beginFilteredHandler => exact ascend_of_startFiltered ascend acts
  | beginFinally => exact ascend_of_startHandler ascend acts
  | beginFault => exact ascend_of_startHandler ascend acts
  | endTry => exact ascend_of_endBlock ascend acts

end Blocks

namespace Encoder

theorem Outline.ascend_of_add {outline next : Outline} {command : Command}
    (ascend : outline.blocks.Ascend outline.here) (added : outline.add command = some next) :
    next.blocks.Ascend next.here := by
  have grown (emitted : List Emitted) :
      outline.here ≤ (outline.emitted ++ emitted).length := by
    rw [List.length_append]
    exact Nat.le_add_right _ _
  cases command with
  | region event =>
      obtain ⟨blocks, acts, rfl⟩ := Option.map_eq_some_iff.mp added
      exact Blocks.ascend_of_act ascend acts
  | defineLabel label =>
      cases added
      exact ascend
  | _ =>
      cases added
      exact ascend.later (grown _)

theorem Outline.ascend_of_foldlM {commands : List Command} {outline final : Outline}
    (ascend : outline.blocks.Ascend outline.here)
    (added : commands.foldlM Outline.add outline = some final) :
    final.blocks.Ascend final.here := by
  induction commands generalizing outline with
  | nil =>
      cases added
      exact ascend
  | cons command commands ih =>
      rw [List.foldlM_cons] at added
      obtain ⟨next, step, rest⟩ := Option.bind_eq_some_iff.mp added
      exact ih (Outline.ascend_of_add ascend step) rest

end Encoder

/-! ## Finished code -/

/-- Where the instruction with a number starts; behind the last one the code ends. -/
def EmittedCode.startOf (code : EmittedCode) (instructions : List Instruction) (mark : Mark) :
    Nat :=
  (instructions[mark]?.map (·.offset)).getD code.code.length

/-- What an emitted instruction reads as, its labels being at offsets.  A branch may have
become short if branches are shortened. -/
inductive Emitted.ReadsAs (shortens : Bool) (labels : List (String × Nat)) :
    Emitted → Instruction → Prop
  | plain {opcode : Opcode} {operand : Operand} {instruction : Instruction}
      (sameOpcode : instruction.opcode = opcode) (sameOperand : instruction.operand = operand) :
      ReadsAs shortens labels (.plain opcode operand) instruction
  | branch {opcode : Opcode} {label : String} {target : Nat} {instruction : Instruction}
      (form : instruction.opcode = opcode ∨
        shortens = true ∧ opcode.shortForm? = some instruction.opcode)
      (defined : labels.lookup label = some target) (leads : instruction.targets = [target]) :
      ReadsAs shortens labels (.branch opcode label) instruction
  | switch {cases : List String} {instruction : Instruction}
      (sameOpcode : instruction.opcode = .switch)
      (leads : instruction.targets.map some = cases.map fun label => labels.lookup label) :
      ReadsAs shortens labels (.switch cases) instruction

structure MarkedClause.LiesAt (start : Mark → Nat) (marked : MarkedClause) (clause : Clause) :
    Prop where
  flags : clause.flags = marked.flags
  class? : clause.class? = marked.class?
  tryStart : clause.tryOffset = start marked.tryStart
  tryEnd : clause.tryOffset + clause.tryLength = start marked.tryEnd
  handlerStart : clause.handlerOffset = start marked.handlerStart
  handlerEnd : clause.handlerOffset + clause.handlerLength = start marked.handlerEnd
  filterStart : ∀ mark, marked.filterStart? = some mark → clause.filterOffset = start mark

namespace Encoder

/-- Finished code is what an outline asks for. -/
structure Finished (shortens : Bool) (outline : Outline) (code : EmittedCode)
    (instructions : List Instruction) : Prop where
  decoded : Instruction.decodeAll code.code = .ok instructions
  reads : List.Forall₂ (Emitted.ReadsAs shortens code.labels) outline.terminated instructions
  labels : code.labels =
    outline.labels.map fun (label, mark) => (label, code.startOf instructions mark)
  distinct : (code.labels.map (·.1)).Nodup
  clauses : List.Forall₂ (MarkedClause.LiesAt (code.startOf instructions))
    outline.blocks.finished code.clauses

end Encoder

namespace Emitted

theorem getElem?_instructionsFrom (target : String → Nat) (offset : Nat) (emitted : List Emitted)
    (mark : Mark) :
    (instructionsFrom target offset emitted)[mark]? =
      emitted[mark]?.map (instruction target (offset + offsetOf (emitted.map item) mark)) := by
  induction emitted generalizing offset mark with
  | nil => rfl
  | cons first rest ih =>
      cases mark with
      | zero => simp [instructionsFrom, offsetOf, sizeOfItems]
      | succ mark =>
          simp [instructionsFrom, ih, offsetOf, sizeOfItems, Nat.add_assoc]

end Emitted

namespace Layout

/-- Marks turn into the starts of the instructions at them. -/
theorem Draft.LaidOut.startOf_eq {draft : Draft} {emitted : List Emitted} {code : EmittedCode}
    (laidOut : draft.LaidOut emitted code.code) (items : draft.items = emitted.map Emitted.item)
    (mark : Mark) :
    code.startOf (Emitted.instructionsFrom draft.target 0 emitted) mark =
      offsetOf draft.items mark := by
  rw [EmittedCode.startOf, Emitted.getElem?_instructionsFrom, laidOut.size, items]
  cases place : emitted[mark]? with
  | some instruction =>
      rw [Option.map_some, Option.map_some, Option.getD_some, Nat.zero_add]
      rfl
  | none =>
      have behind : (emitted.map Emitted.item).length ≤ mark := by
        simpa using place
      rw [offsetOf, List.take_of_length_le behind]
      rfl

/-- Emitted code, some branches of which became short, reads as it was emitted. -/
theorem readsAs_of_leadsFrom {shortens : Bool} {draft : Draft} {labels : List (String × Nat)}
    {emitted shortened : List Emitted} {offset : Nat}
    (exchanged : Emitted.AllShortened emitted shortened)
    (kept : shortens = false → shortened = emitted)
    (leads : Emitted.LeadsFrom draft.target offset shortened)
    (defined : ∀ instruction ∈ shortened, ∀ label ∈ instruction.labels,
      labels.lookup label = some (draft.target label)) :
    List.Forall₂ (Emitted.ReadsAs shortens labels) emitted
      (Emitted.instructionsFrom draft.target offset shortened) := by
  induction exchanged generalizing offset with
  | nil => exact .nil
  | @cons first second rest others head tail ih =>
      obtain ⟨leadsFirst, leadsRest⟩ := leads
      obtain ⟨definedFirst, definedRest⟩ := List.forall_mem_cons.mp defined
      refine .cons ?_ (ih (fun long => (List.cons.inj (kept long)).2) leadsRest definedRest)
      have reads (opcode short : Opcode) (label : String) (isSecond : second = .branch short label)
          (form : short = opcode ∨ shortens = true ∧ opcode.shortForm? = some short) :
          Emitted.ReadsAs shortens labels (.branch opcode label)
            (second.instruction draft.target offset) := by
        subst isSecond
        exact .branch form (definedFirst label (List.mem_singleton.mpr rfl)) (leadsFirst (by simp))
      -- A short form stands only where branches are shortened: no short form has one itself.
      cases head with
      | short label isShort =>
          refine reads _ _ label rfl (.inr ⟨?_, isShort⟩)
          cases shortens with
          | true => rfl
          | false =>
              have same := (List.cons.inj (kept rfl)).1
              cases same
              rw [(Opcode.shortForm?_eq_some isShort).1] at isShort
              cases isShort
      | same =>
          cases first with
          | plain opcode operand => exact .plain rfl rfl
          | branch opcode label => exact reads opcode opcode label rfl (.inl rfl)
          | switch names =>
              refine .switch rfl ?_
              rw [leadsFirst (by simp), Emitted.labels, List.map_map]
              exact List.map_congr_left fun label member => (definedFirst label member).symm

end Layout

namespace Encoder

theorem lookup_map_offset {labels : List (String × Mark)} (place : Mark → Nat) (label : String) :
    (labels.map fun (label, mark) => (label, place mark)).lookup label =
      (labels.lookup label).map place := by
  induction labels with
  | nil => rfl
  | cons first rest ih =>
      rw [List.map_cons, List.lookup_cons, List.lookup_cons, ih]
      cases label == first.1 <;> rfl

theorem liesAt_clauseOf {items : List Item} {marked : MarkedClause} (ascends : marked.Ascends)
    {start : Mark → Nat} (starts : ∀ mark, start mark = offsetOf items mark) :
    marked.LiesAt start (Layout.clauseOf items marked) where
  flags := rfl
  class? := rfl
  tryStart := (starts _).symm
  tryEnd := by
    have := offsetOf_mono items ascends.guarded
    simp only [Layout.clauseOf, starts]
    omega
  handlerStart := (starts _).symm
  handlerEnd := by
    have := offsetOf_mono items ascends.handled
    simp only [Layout.clauseOf, starts]
    omega
  filterStart mark isFilter := by
    simp only [Layout.clauseOf, isFilter, starts]

/-- Finishing the code of an encoder gives code that is what the encoder holds. -/
theorem finished_of_finish {done final : Encoder} {outline : Outline} {code : EmittedCode}
    (follows : Follows done outline) (ascend : outline.blocks.Ascend outline.here)
    (ran : finish done = .ok code final) :
    ∃ instructions, outline.blocks.opened = [] ∧
      Finished done.shortens outline code instructions := by
  obtain ⟨closed, proper, draft, drafted, laid, labels, clauses⟩ :=
    finish_eq_ok follows.items follows.proper ran
  rw [follows.ending_eq, follows.labels] at drafted
  rw [follows.ending_eq] at proper
  -- From here on the code is the same for both settings, up to the branches exchanged.
  obtain ⟨shortened, exchanged, kept, items, sameLabels⟩ :
      ∃ shortened, Emitted.AllShortened outline.terminated shortened ∧
        (done.shortens = false → shortened = outline.terminated) ∧
        draft.items = shortened.map Emitted.item ∧ draft.labels = outline.labels := by
    cases short : done.shortens with
    | true =>
        rw [short] at drafted
        obtain ⟨shortened, exchanged, items, sameLabels⟩ := Layout.shorten_eq_ok rfl drafted
        exact ⟨shortened, exchanged, nofun, items, sameLabels⟩
    | false =>
        rw [short] at drafted
        cases drafted
        exact ⟨_, Emitted.allShortened_refl _, fun _ => rfl, rfl, rfl⟩
  have laidOut := Layout.bytes_eq_ok items (exchanged.proper proper) laid
  have starts := laidOut.startOf_eq items
  refine ⟨_, ?_, laidOut.decoded, ?_, ?_, ?_, ?_⟩
  · rw [← follows.blocks]
    exact closed
  · refine Layout.readsAs_of_leadsFrom exchanged kept laidOut.leads ?_
    intro instruction member label isLabel
    obtain ⟨mark, known⟩ := laidOut.defined instruction member label isLabel
    rw [labels, lookup_map_offset, Layout.Draft.target, known]
    rfl
  · simp only [labels, sameLabels, starts]
  · rw [labels, sameLabels, List.map_map]
    exact follows.distinct
  · have finished : done.clauses.toList = outline.blocks.finished :=
      congrArg Blocks.finished follows.blocks
    rw [clauses, finished, List.forall₂_map_right_iff, List.forall₂_same]
    exact fun marked member => liesAt_clauseOf (ascend.finished marked member) starts

/-- Finished code reads as what its commands ask for, shortened or not. -/
theorem finished_of_encode {shortens : Bool} {commands : List Command} {code : EmittedCode}
    {final : Encoder} (ran : encode shortens commands {} = .ok code final) :
    ∃ outline instructions, Outline.ofCommands commands = some outline ∧
      outline.blocks.opened = [] ∧ Finished shortens outline code instructions := by
  obtain ⟨_, set, setRan, ran⟩ := bind_eq_ok.mp ran
  obtain ⟨_, done, performed, finishRan⟩ := bind_eq_ok.mp ran
  have start : Follows set Outline.empty ∧ set.shortens = shortens := by
    rw [← modify_eq_ok.mp setRan]
    exact ⟨⟨rfl, by simp [Outline.empty], rfl, .nil, rfl⟩, rfl⟩
  obtain ⟨outline, outlined, follows, sameShortens⟩ := start.1.run performed
  have ascend : outline.blocks.Ascend outline.here :=
    Outline.ascend_of_foldlM ⟨by simp [Outline.empty], by simp [Outline.empty]⟩ outlined
  obtain ⟨instructions, closed, finished⟩ := finished_of_finish follows ascend finishRan
  rw [sameShortens, start.2] at finished
  exact ⟨outline, instructions, outlined, closed, finished⟩

end Encoder

/-! ## Long and short branches -/

/-- Two instructions that differ at most in the form of a branch.  Branches lead to the same
instructions, by number. -/
inductive Instruction.SameButForm (longStart shortStart : Mark → Nat) (long short : Instruction) :
    Prop
  | plain (sameOpcode : short.opcode = long.opcode) (sameOperand : short.operand = long.operand)
  | branch (form : short.opcode = long.opcode ∨ long.opcode.shortForm? = some short.opcode)
      (marks : List Mark) (longLeads : long.targets = marks.map longStart)
      (shortLeads : short.targets = marks.map shortStart)

namespace Emitted

theorem targets_eq_of_lookup {labels : List (String × Mark)} {place : Mark → Nat}
    {names : List String} {targets : List Nat}
    (leads : targets.map some = names.map fun label => (labels.lookup label).map place) :
    targets = (names.filterMap fun label => labels.lookup label).map place := by
  induction names generalizing targets with
  | nil => simpa using leads
  | cons name names ih =>
      cases targets with
      | nil => cases leads
      | cons target targets =>
          obtain ⟨isTarget, rest⟩ := List.cons.inj leads
          obtain ⟨mark, known, rfl⟩ := Option.map_eq_some_iff.mp isTarget.symm
          rw [List.filterMap_cons, known, ih rest]
          rfl

variable {outlined : List (String × Mark)} {longStart shortStart : Mark → Nat}
  {emitted : Emitted} {long short : Instruction}

theorem ReadsAs.sameButForm
    (longReads : ReadsAs false (outlined.map fun (label, mark) => (label, longStart mark))
      emitted long)
    (shortReads : ReadsAs true (outlined.map fun (label, mark) => (label, shortStart mark))
      emitted short) :
    long.SameButForm longStart shortStart short := by
  cases longReads with
  | plain longOpcode longOperand =>
      cases shortReads with
      | plain shortOpcode shortOperand =>
          exact .plain (shortOpcode.trans longOpcode.symm) (shortOperand.trans longOperand.symm)
  | @branch opcode label _ _ longForm longDefined longLeads =>
      cases shortReads with
      | branch shortForm shortDefined shortLeads =>
          have isLong : long.opcode = opcode := by simpa using longForm
          rw [Encoder.lookup_map_offset] at longDefined shortDefined
          refine .branch ?_ ([label].filterMap fun label => outlined.lookup label)
            (targets_eq_of_lookup ?_) (targets_eq_of_lookup ?_)
          · rw [isLong]
            exact shortForm.imp id And.right
          · simp [longLeads, longDefined]
          · simp [shortLeads, shortDefined]
  | @switch names _ longOpcode longLeads =>
      cases shortReads with
      | switch shortOpcode shortLeads =>
          simp only [Encoder.lookup_map_offset] at longLeads shortLeads
          exact .branch (.inl (shortOpcode.trans longOpcode.symm)) _
            (targets_eq_of_lookup longLeads) (targets_eq_of_lookup shortLeads)

theorem sameButForm_of_reads {code : List Emitted} {longs shorts : List Instruction}
    (longReads : List.Forall₂
      (ReadsAs false (outlined.map fun (label, mark) => (label, longStart mark))) code longs)
    (shortReads : List.Forall₂
      (ReadsAs true (outlined.map fun (label, mark) => (label, shortStart mark))) code shorts) :
    List.Forall₂ (Instruction.SameButForm longStart shortStart) longs shorts := by
  induction longReads generalizing shorts with
  | nil =>
      cases shortReads
      exact .nil
  | cons head _ ih =>
      cases shortReads with
      | cons shortHead shortTail => exact .cons (head.sameButForm shortHead) (ih shortTail)

end Emitted

namespace Encoder

namespace GuardedLoop

/-- A loop in a guarded range, with a filter, and a switch behind it that may leave the code at
its end. -/
def commands : List Command :=
  [ .region .beginTry, .defineLabel "top", .emit .ldarg0 none, .emitBranch .brtrue "top",
    .emitBranch .leave "behind", .region .beginFilter, .emit .pop none, .emit .ldcI41 none,
    .emit .endfilter none, .region .beginFilteredHandler, .emit .pop none,
    .emitBranch .leave "behind", .region .endTry, .defineLabel "behind", .emit .ldarg0 none,
    .emitSwitch ["behind", "end"], .emitBranch .br "end", .defineLabel "end" ]

def code? (shortens : Bool) : Option EmittedCode :=
  match encode shortens commands {} with
  | .ok code _ => some code
  | .error _ _ => none

theorem encode_of_code? {shortens : Bool} {code : EmittedCode}
    (found : code? shortens = some code) :
    ∃ final, encode shortens commands {} = .ok code final := by
  unfold code? at found
  split at found
  · cases found
    exact ⟨_, by assumption⟩
  · cases found

end GuardedLoop

end Encoder

end Cil
