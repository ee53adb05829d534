import Cil.Proofs.Code.Encoding
import Cil.Proofs.Code.FailedSteps

/-!
# Requests to an encoder

A request is a command, a height that the stack is said to have, or leave to shorten branches.
Every operation of an encoder is a request, or fails before it has done anything.  Finished code
holds what the commands among the requests ask for.
-/

namespace Cil

open Stateful

namespace Encoder

/-- What an encoder is asked to do. -/
inductive Request
  | ask (command : Command)
  | setDepth (depth : Int16)
  | setShortening (enabled : Bool)

namespace Request

def perform : Request → EncoderM Unit
  | ask command => command.perform
  | setDepth depth => Encoder.setDepth depth
  | setShortening enabled => Encoder.setShortening enabled

def command? : Request → Option Command
  | ask command => some command
  | setDepth _ | setShortening _ => none

end Request

/-- Carries out requests and finishes the code. -/
def assemble (requests : List Request) : EncoderM EmittedCode := do
  requests.forM Request.perform
  finish

/-- The code of requests, if they succeed. -/
def assembled? (requests : List Request) : Option EmittedCode :=
  match assemble requests {} with
  | .ok code _ => some code
  | .error _ _ => none

theorem assemble_of_assembled? {requests : List Request} {code : EmittedCode}
    (found : assembled? requests = some code) :
    ∃ final, assemble requests {} = .ok code final := by
  unfold assembled? at found
  split at found
  · cases found
    exact ⟨_, by assumption⟩
  · cases found

/-! ## Operations -/

theorem exists_emit_of_emitIndexed (short long : Opcode) (index : UInt16) :
    ∃ opcode operand?, emitIndexed short long index = emit opcode operand? := by
  unfold emitIndexed
  split
  · exact ⟨_, _, rfl⟩
  · exact ⟨_, _, rfl⟩

/-- An operation carries out a command, unless nothing is known by its mnemonic. -/
theorem Operation.perform_eq (operation : Operation) :
    (∃ command : Command, operation.perform = command.perform) ∨
      ∃ mnemonic, operation.perform = throw (.invalidMnemonic mnemonic) := by
  have named (mnemonic : String) {next : Opcode → EncoderM Unit} (asks : Opcode → Command)
      (same : ∀ opcode, next opcode = (asks opcode).perform) :
      (∃ command : Command, (opcodeNamed mnemonic >>= next) = command.perform) ∨
        ∃ name, (opcodeNamed mnemonic >>= next) = throw (.invalidMnemonic name) := by
    unfold opcodeNamed
    cases Opcode.ofMnemonic? mnemonic with
    | some opcode => exact .inl ⟨asks opcode, same opcode⟩
    | none => exact .inr ⟨mnemonic, rfl⟩
  have emits {action : EncoderM Unit}
      (emitted : ∃ opcode operand?, action = Encoder.emit opcode operand?) :
      ∃ command : Command, action = command.perform := by
    obtain ⟨opcode, operand?, same⟩ := emitted
    exact ⟨.emit opcode operand?, same⟩
  cases operation with
  | emit mnemonic operand? => exact named mnemonic (.emit · operand?) fun _ => rfl
  | emitDecoded instruction => exact .inl (emits ⟨_, _, rfl⟩)
  | emitBranch mnemonic label => exact named mnemonic (.emitBranch · label) fun _ => rfl
  | emitSwitch labels => exact .inl ⟨.emitSwitch labels, rfl⟩
  | emitCall mnemonic operand? arguments hasResult =>
      exact named mnemonic (.emitCall · operand? arguments hasResult) fun _ => rfl
  | loadArgument index =>
      refine .inl (emits ?_)
      simp only [perform, emitLoadArgument]
      split <;> first | exact ⟨_, _, rfl⟩ | exact exists_emit_of_emitIndexed _ _ _
  | loadLocal index =>
      refine .inl (emits ?_)
      simp only [perform, emitLoadLocal]
      split <;> first | exact ⟨_, _, rfl⟩ | exact exists_emit_of_emitIndexed _ _ _
  | storeLocal index =>
      refine .inl (emits ?_)
      simp only [perform, emitStoreLocal]
      split <;> first | exact ⟨_, _, rfl⟩ | exact exists_emit_of_emitIndexed _ _ _
  | storeArgument index => exact .inl (emits (exists_emit_of_emitIndexed _ _ _))
  | loadArgumentAddress index => exact .inl (emits (exists_emit_of_emitIndexed _ _ _))
  | loadLocalAddress index => exact .inl (emits (exists_emit_of_emitIndexed _ _ _))
  | constant value =>
      refine .inl (emits ?_)
      simp only [perform, emitConstant]
      split
      case h_11 => split <;> exact ⟨_, _, rfl⟩
      all_goals exact ⟨_, _, rfl⟩
  | defineLabel label => exact .inl ⟨.defineLabel label, rfl⟩
  | beginBlock => exact .inl ⟨.region .beginTry, rfl⟩
  | beginCatch exceptionClass => exact .inl ⟨.region (.beginCatch exceptionClass), rfl⟩
  | beginFilter => exact .inl ⟨.region .beginFilter, rfl⟩
  | beginFilteredHandler => exact .inl ⟨.region .beginFilteredHandler, rfl⟩
  | beginFinally => exact .inl ⟨.region .beginFinally, rfl⟩
  | beginFault => exact .inl ⟨.region .beginFault, rfl⟩
  | endBlock => exact .inl ⟨.region .endTry, rfl⟩

/-- Operations that succeed do what requests do. -/
theorem exists_requests {operations : List Operation} {before after : Encoder} {result : Unit}
    (ran : operations.forM Operation.perform before = .ok result after) :
    ∃ requests : List Request, requests.length = operations.length ∧
      requests.forM Request.perform before = .ok result after := by
  induction operations generalizing before with
  | nil => exact ⟨[], rfl, ran⟩
  | cons operation operations ih =>
      obtain ⟨_, middle, first, rest⟩ := bind_eq_ok.mp ran
      obtain ⟨requests, length, performed⟩ := ih rest
      obtain ⟨command, same⟩ | ⟨mnemonic, fails⟩ := operation.perform_eq
      · refine ⟨.ask command :: requests, by simp [length], ?_⟩
        rw [same] at first
        exact bind_eq_ok.mpr ⟨_, middle, first, performed⟩
      · rw [fails] at first
        exact absurd first throw_ne_ok

/-! ## What requests ask for -/

namespace Outline

variable {outline final : Outline}

/-- The instructions of an outline are those that its commands ask for. -/
theorem emitted_of_foldlM {commands : List Command}
    (added : commands.foldlM add outline = some final) :
    final.emitted = outline.emitted ++ commands.filterMap instruction? := by
  induction commands generalizing outline with
  | nil =>
      cases added
      simp
  | cons command commands ih =>
      rw [List.foldlM_cons] at added
      obtain ⟨next, step, rest⟩ := Option.bind_eq_some_iff.mp added
      have appended : next.emitted = outline.emitted ++ (instruction? command).toList := by
        cases command with
        | region event =>
            obtain ⟨blocks, _, rfl⟩ := Option.map_eq_some_iff.mp step
            simp [instruction?]
        | defineLabel label =>
            cases step
            simp [instruction?]
        | _ =>
            cases step
            rfl
      rw [ih rest, appended, List.append_assoc, List.filterMap_cons]
      cases instruction? command <;> rfl

/-- Labels stand no further than the end. -/
theorem labels_of_foldlM {commands : List Command}
    (within : ∀ entry ∈ outline.labels, entry.2 ≤ outline.here)
    (added : commands.foldlM add outline = some final) :
    ∀ entry ∈ final.labels, entry.2 ≤ final.here := by
  induction commands generalizing outline with
  | nil =>
      cases added
      exact within
  | cons command commands ih =>
      rw [List.foldlM_cons] at added
      obtain ⟨next, step, rest⟩ := Option.bind_eq_some_iff.mp added
      refine ih ?_ rest
      cases command with
      | region event =>
          obtain ⟨blocks, _, rfl⟩ := Option.map_eq_some_iff.mp step
          exact within
      | defineLabel label =>
          cases step
          exact List.forall_mem_append.mpr
            ⟨within, List.forall_mem_singleton.mpr (Nat.le_refl _)⟩
      | _ =>
          cases step
          intro entry member
          refine Nat.le_trans (within entry member) ?_
          simp [here]

end Outline

end Encoder

/-! ## Handlers -/

/-- The flags of the handler that an event begins, and whether a filter begins with it. -/
def RegionEvent.handler? : RegionEvent → Option (ClauseFlags × Bool)
  | .beginCatch _ => some (ClauseFlags.exception, false)
  | .beginFilter => some (ClauseFlags.filter, true)
  | .beginFinally => some (ClauseFlags.finallyBlock, false)
  | .beginFault => some (ClauseFlags.fault, false)
  | .beginTry | .beginFilteredHandler | .endTry => none

/-- Of every handler that has begun its flags, its filter and its start have a property. -/
structure Blocks.Each (holds : ClauseFlags → Option Mark → Option Mark → Prop) (blocks : Blocks) :
    Prop where
  opened : ∀ block ∈ blocks.opened, ∀ pending, block.current? = some pending →
    holds pending.flags pending.filterStart? pending.handlerStart?
  finished : ∀ clause ∈ blocks.finished,
    holds clause.flags clause.filterStart? (some clause.handlerStart)

namespace Blocks

variable {holds : ClauseFlags → Option Mark → Option Mark → Prop} {here : Mark}
  {blocks next : Blocks}

theorem each_of_close {block : OpenBlock} {closed : List MarkedClause}
    (each : ∀ pending, block.current? = some pending →
      holds pending.flags pending.filterStart? pending.handlerStart?)
    (closes : block.close here = some closed) :
    ∀ clause ∈ closed, holds clause.flags clause.filterStart? (some clause.handlerStart) := by
  obtain ⟨tryStart, tryEnd?, current?⟩ := block
  rcases current? with _ | ⟨flags, class?, filterStart?, handlerStart?⟩
  · cases closes
    simp
  · cases handlerStart? with
    | none => cases closes
    | some handlerStart =>
        cases closes
        exact List.forall_mem_singleton.mpr (each _ rfl)

theorem each_of_startHandler {flags : ClauseFlags} {class? : Option Token} {isFilter : Bool}
    (begun : holds flags (if isFilter then some here else none)
      (if isFilter then none else some here))
    (each : blocks.Each holds)
    (started : blocks.startHandler flags class? isFilter here = some next) : next.Each holds := by
  obtain ⟨opened, finished⟩ := blocks
  cases opened with
  | nil => cases started
  | cons block outer =>
      obtain ⟨closed, closes, rfl⟩ := Option.map_eq_some_iff.mp started
      obtain ⟨first, others⟩ := List.forall_mem_cons.mp each.opened
      have ended : ∀ pending, { block with tryEnd? := some (block.tryEnd?.getD here) }.current? =
          some pending → holds pending.flags pending.filterStart? pending.handlerStart? := first
      refine ⟨List.forall_mem_cons.mpr ⟨?_, others⟩,
        List.forall_mem_append.mpr ⟨each.finished, each_of_close ended closes⟩⟩
      rintro _ ⟨⟩
      exact begun

/-- An event keeps a property of the handlers if the handler that it begins has it, and a filter
keeps it when its handler starts. -/
theorem each_of_act {event : RegionEvent} (each : blocks.Each holds)
    (begun : ∀ flags isFilter, event.handler? = some (flags, isFilter) →
      holds flags (if isFilter then some here else none) (if isFilter then none else some here))
    (handled : event = .beginFilteredHandler → ∀ filterStart?,
      holds ClauseFlags.filter filterStart? none →
        holds ClauseFlags.filter filterStart? (some here))
    (acts : act here blocks event = some next) : next.Each holds := by
  obtain ⟨opened, finished⟩ := blocks
  cases event with
  | beginTry =>
      cases acts
      exact ⟨List.forall_mem_cons.mpr ⟨nofun, each.opened⟩, each.finished⟩
  | beginCatch exceptionClass => exact each_of_startHandler (begun _ _ rfl) each acts
  | beginFilter => exact each_of_startHandler (begun _ _ rfl) each acts
  | beginFinally => exact each_of_startHandler (begun _ _ rfl) each acts
  | beginFault => exact each_of_startHandler (begun _ _ rfl) each acts
  | beginFilteredHandler =>
      cases opened with
      | nil => cases acts
      | cons block outer =>
          obtain ⟨tryStart, tryEnd?, current?⟩ := block
          rcases current? with _ | ⟨flags, class?, filterStart?, handlerStart?⟩
          · cases acts
          · simp only [act, startFiltered] at acts
            split at acts
            · rename_i isFilter
              obtain ⟨rfl, rfl⟩ := isFilter
              cases acts
              obtain ⟨first, others⟩ := List.forall_mem_cons.mp each.opened
              refine ⟨List.forall_mem_cons.mpr ⟨?_, others⟩, each.finished⟩
              rintro _ ⟨⟩
              exact handled rfl filterStart? (first _ rfl)
            · cases acts
  | endTry =>
      cases opened with
      | nil => cases acts
      | cons block outer =>
          simp only [act, endBlock] at acts
          split at acts
          · cases acts
          · obtain ⟨closed, closes, rfl⟩ := Option.map_eq_some_iff.mp acts
            obtain ⟨first, others⟩ := List.forall_mem_cons.mp each.opened
            exact ⟨others,
              List.forall_mem_append.mpr ⟨each.finished, each_of_close first closes⟩⟩

end Blocks

namespace Encoder

/-! ## Following requests -/

theorem setDepth_eq_ok {depth : Int16} {before after : Encoder} {result : Unit}
    (ran : setDepth depth before = .ok result after) :
    after = { before with depth, maxDepth := max before.maxDepth depth.toInt.toNat } :=
  (modify_eq_ok.mp ran).symm

/-- An encoder that carries out requests holds what their commands ask for. -/
theorem Follows.requests {requests : List Request} {before after : Encoder} {outline : Outline}
    {result : Unit} (follows : Follows before outline)
    (ran : requests.forM Request.perform before = .ok result after) :
    ∃ final, (requests.filterMap Request.command?).foldlM Outline.add outline = some final ∧
      Follows after final := by
  induction requests generalizing before outline with
  | nil =>
      obtain ⟨_, rfl⟩ := pure_eq_ok.mp ran
      exact ⟨outline, rfl, follows⟩
  | cons request requests ih =>
      obtain ⟨_, middle, first, rest⟩ := bind_eq_ok.mp ran
      cases request with
      | ask command =>
          obtain ⟨next, added, followsNext, _⟩ := follows.step first
          obtain ⟨final, addedRest, followsFinal⟩ := ih followsNext rest
          refine ⟨final, ?_, followsFinal⟩
          change (command :: requests.filterMap Request.command?).foldlM _ _ = _
          rw [List.foldlM_cons, added]
          exact addedRest
      | setDepth depth =>
          have kept : Follows middle outline := by
            rw [setDepth_eq_ok first]
            exact ⟨follows.items, follows.proper, follows.labels, follows.distinct, follows.blocks⟩
          exact ih kept rest
      | setShortening enabled =>
          have kept : Follows middle outline := by
            rw [← modify_eq_ok.mp first]
            exact ⟨follows.items, follows.proper, follows.labels, follows.distinct, follows.blocks⟩
          exact ih kept rest

theorem follows_empty : Follows {} Outline.empty :=
  ⟨rfl, by simp [Outline.empty], rfl, .nil, rfl⟩

/-! ## Finishing -/

theorem checkClause_of_forM {items : List Item} {clauses : List MarkedClause}
    (checked : clauses.forM (Layout.checkClause items) = .ok ()) :
    ∀ marked ∈ clauses, Layout.checkClause items marked = .ok () := by
  induction clauses with
  | nil => simp
  | cons clause clauses ih =>
      obtain ⟨_, first, rest⟩ := except_bind_eq_ok.mp checked
      exact List.forall_mem_cons.mpr ⟨first, ih rest⟩

/-- Code is finished once it has its end: its maximum is known then, and its clauses fit. -/
theorem exists_terminate_of_finish {before after : Encoder} {code : EmittedCode}
    (ran : finish before = .ok code after) :
    ∃ ended, terminate before = .ok () ended ∧ code.maxStack = ended.maxDepth ∧
      ∃ items, code.clauses = ended.clauses.toList.map (Layout.clauseOf items) ∧
        ∀ marked ∈ ended.clauses.toList, Layout.checkClause items marked = .ok () := by
  obtain ⟨_, _, read, ran⟩ := bind_eq_ok.mp ran
  obtain ⟨rfl, rfl⟩ := get_eq_ok.mp read
  cases blocks : before.openBlocks with
  | cons block others =>
      rw [blocks] at ran
      obtain ⟨_, _, _, ran⟩ := bind_eq_ok.mp ran
      obtain ⟨_, _, failed, _⟩ := bind_eq_ok.mp ran
      exact absurd failed throw_ne_ok
  | nil =>
      rw [blocks] at ran
      dsimp only at ran
      obtain ⟨_, ended, terminateRan, ran⟩ := bind_eq_ok.mp ran
      obtain ⟨_, _, read, ran⟩ := bind_eq_ok.mp ran
      obtain ⟨rfl, rfl⟩ := get_eq_ok.mp read
      obtain ⟨draft, _, draftRan, ran⟩ := bind_eq_ok.mp ran
      obtain ⟨bytes, _, bytesRan, ran⟩ := bind_eq_ok.mp ran
      obtain ⟨_, _, checkRan, ran⟩ := bind_eq_ok.mp ran
      cases ran
      obtain ⟨_, rfl⟩ := ofExcept_eq_ok.mp draftRan
      obtain ⟨_, rfl⟩ := ofExcept_eq_ok.mp bytesRan
      obtain ⟨checked, rfl⟩ := ofExcept_eq_ok.mp checkRan
      exact ⟨ended, terminateRan, rfl, draft.items, rfl, checkClause_of_forM checked⟩

/-- Finished code is what the commands among the requests ask for. -/
theorem finished_of_assemble {requests : List Request} {code : EmittedCode} {final : Encoder}
    (ran : assemble requests {} = .ok code final) :
    ∃ shortens outline instructions,
      Outline.ofCommands (requests.filterMap Request.command?) = some outline ∧
        Finished shortens outline code instructions := by
  obtain ⟨_, done, performed, finishRan⟩ := bind_eq_ok.mp ran
  obtain ⟨outline, outlined, follows⟩ := follows_empty.requests performed
  have ascend : outline.blocks.Ascend outline.here :=
    Outline.ascend_of_foldlM ⟨by simp [Outline.empty], by simp [Outline.empty]⟩ outlined
  obtain ⟨instructions, _, finished⟩ := finished_of_finish follows ascend finishRan
  exact ⟨_, outline, instructions, outlined, finished⟩

end Encoder

end Cil
