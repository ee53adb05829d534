import Cil.Proofs.Code.Layout
import Cil.Proofs.Isolation.Pieces
import Cil.Proofs.Isolation.Replay

/-!
# Emitting a method

The instructions of a method become pieces of code, one behind the other.  Labels stand in
front of the pieces of branch targets, and the events of exception regions happen there too.
-/

namespace Cil

open Stateful

namespace Encoder

variable {before after : Encoder} {result : Unit}

/-- What is left of defining a label once the height of the stack is known. -/
def placeLabel (label : String) (size : Nat) : EncoderM Unit := do
  modify fun encoder => { encoder with unreachable := false }
  if wordBound ≤ size then throw (.malformed .labelDefinedTooFar)
  modify fun encoder => { encoder with labels := encoder.labels.push (label, encoder.here) }

/-- A label stands at the end of the code, whatever happened to the height of the stack. -/
theorem placeLabel_eq_ok {label : String} {size : Nat} {tracked : Encoder}
    (appends : Appends before tracked [])
    (ran : placeLabel label size tracked = .ok result after) :
    after.labels.toList = before.labels.toList ++ [(label, before.here)] ∧
      after.items = before.items ∧ after.shortens = before.shortens ∧
      after.blocks = before.blocks := by
  obtain ⟨_, reached, entered, ran⟩ := bind_eq_ok.mp ran
  obtain rfl := modify_eq_ok.mp entered
  dsimp only at ran
  split at ran
  · obtain ⟨_, _, failed, _⟩ := bind_eq_ok.mp ran
    exact absurd failed throw_ne_ok
  obtain rfl := modify_eq_ok.mp ran
  have items : tracked.items = before.items := by
    simpa using congrArg List.toArray appends.items
  refine ⟨?_, items, appends.shortens, ?_⟩
  · simp [appends.labels, here, items]
  · simp [blocks, appends.openBlocks, appends.clauses]

/-- A label that is defined was not defined before, and stands at the end of the code. -/
theorem defineLabel_eq_ok {label : String} (ran : defineLabel label before = .ok result after) :
    label ∉ before.labels.toList.map (·.1) ∧
      after.labels.toList = before.labels.toList ++ [(label, before.here)] ∧
      after.items = before.items ∧ after.shortens = before.shortens ∧
      after.blocks = before.blocks := by
  obtain ⟨_, _, read, ran⟩ := bind_eq_ok.mp ran
  obtain ⟨rfl, rfl⟩ := get_eq_ok.mp read
  dsimp only at ran
  split at ran
  · obtain ⟨_, _, failed, _⟩ := bind_eq_ok.mp ran
    exact absurd failed throw_ne_ok
  rename_i isNew
  have fresh : label ∉ before.labels.toList.map (·.1) := by
    intro member
    obtain ⟨defined, listed, rfl⟩ := List.mem_map.mp member
    obtain ⟨found, isFound⟩ : ∃ found, before.labels.find? (·.1 == defined.1) = some found :=
      Option.isSome_iff_exists.mp (Array.find?_isSome.mpr ⟨defined, by simpa using listed, by simp⟩)
    simp [labelMark?, isFound] at isNew
  refine ⟨fresh, ?_⟩
  have tracked {change : Encoder → Encoder}
      (ran : (do modify change; placeLabel label before.size : EncoderM Unit) before =
        .ok result after)
      (kept : Appends before (change before) []) :
      after.labels.toList = before.labels.toList ++ [(label, before.here)] ∧
        after.items = before.items ∧ after.shortens = before.shortens ∧
        after.blocks = before.blocks := by
    obtain ⟨_, middle, changed, ran⟩ := bind_eq_ok.mp ran
    obtain rfl := modify_eq_ok.mp changed
    exact placeLabel_eq_ok kept ran
  -- The height that branches recorded only decides what is tracked before the label is placed.
  cases known : before.labelDepth? label with
  | some expected =>
      rw [known] at ran
      dsimp only at ran
      split at ran
      · exact tracked ran ⟨by simp, by simp, rfl, rfl, rfl, rfl⟩
      · split at ran
        · obtain ⟨_, _, failed, _⟩ := bind_eq_ok.mp ran
          exact absurd failed throw_ne_ok
        · exact placeLabel_eq_ok (.refl before) ran
  | none =>
      rw [known] at ran
      dsimp only at ran
      split at ran
      · exact tracked ran ⟨by simp, by simp, rfl, rfl, rfl, rfl⟩
      · exact tracked ran ⟨by simp, by simp, rfl, rfl, rfl, rfl⟩

end Encoder

namespace Instrumentation

/-! ## Pieces in a row -/

abbrev Pieces := List (Instruction × List Emitted)

/-- The code that a row of pieces makes. -/
def codeOf (pieces : Pieces) : List Emitted :=
  pieces.flatMap (·.2)

def labelsOf (targets : List Nat) : (start : Mark) → Pieces → List (String × Mark)
  | _, [] => []
  | start, (instruction, emitted) :: rest =>
      (if targets.contains instruction.offset then [(labelAt instruction.offset, start)]
        else []) ++ labelsOf targets (start + emitted.length) rest

/-- What the events in front of pieces do to the open blocks. -/
def replay (clauses : List Clause) : (start : Mark) → Pieces → Blocks → Option Blocks
  | _, [], blocks => some blocks
  | start, (instruction, emitted) :: rest, blocks =>
      (blocks.replayAt clauses instruction.offset start).bind
        (replay clauses (start + emitted.length) rest)

/-- Each instruction becomes a piece of its own, the marks being handed on. -/
inductive Trace (subject : Subject) (isolation : IsolationRun) (scope : Scope) :
    Option Token → Pieces → Prop
  | nil (constraint? : Option Token) : Trace subject isolation scope constraint? []
  | cons {constraint? : Option Token} {instruction : Instruction} {emitted : List Emitted}
      {rest : Pieces} (piece : Piece subject isolation scope constraint? instruction emitted)
      (trace : Trace subject isolation scope (waiting constraint? instruction) rest) :
      Trace subject isolation scope constraint? ((instruction, emitted) :: rest)

/-- What emitting a row of instructions does. -/
structure Progress (subject : Subject) (isolation : IsolationRun) (clauses : List Clause)
    (targets : List Nat) (before after : Draft) (pieces : Pieces) : Prop where
  items : after.encoder.items.toList =
    before.encoder.items.toList ++ (codeOf pieces).map Emitted.item
  proper : ∀ instruction ∈ codeOf pieces, instruction.Proper
  shortens : after.encoder.shortens = before.encoder.shortens
  labels : after.encoder.labels.toList =
    before.encoder.labels.toList ++ labelsOf targets before.encoder.here pieces
  distinct : (before.encoder.labels.toList.map (·.1)).Nodup →
    (after.encoder.labels.toList.map (·.1)).Nodup
  blocks : replay clauses before.encoder.here pieces before.encoder.blocks =
    some after.encoder.blocks
  invariant : Invariant subject isolation after
  scope : ∃ added, after.scope.entries = before.scope.entries ++ added
  trace : Trace subject isolation after.scope before.constraint? pieces

theorem Piece.mono {subject : Subject} {isolation : IsolationRun} {scope wider : Scope}
    {constraint? : Option Token} {instruction : Instruction} {emitted : List Emitted}
    (piece : Piece subject isolation scope constraint? instruction emitted)
    (widens : ∃ added, wider.entries = scope.entries ++ added) :
    Piece subject isolation wider constraint? instruction emitted := by
  cases piece with
  | argument isAccess isIndex accesses => exact .argument isAccess isIndex accesses
  | dropped isDropped => exact .dropped isDropped
  | forwarded isCall operand known forwards constrained =>
      exact .forwarded isCall operand known forwards constrained
  | stub operand known replaced isKind standsFor constrained =>
      exact .stub operand known replaced isKind (standsFor.mono widens) constrained
  | branch isBranch targets unmarked => exact .branch isBranch targets unmarked
  | switch isSwitch unmarked => exact .switch isSwitch unmarked
  | plain noArgument kept noCall noBranch unmarked =>
      exact .plain noArgument kept noCall noBranch unmarked

section Runs

variable {subject : Subject} {isolation : IsolationRun} {clauses : List Clause}
  {targets : List Nat} {before after : Draft}

theorem Progress.refl (invariant : Invariant subject isolation before) :
    Progress subject isolation clauses targets before before [] :=
  ⟨by simp [codeOf], by simp [codeOf], rfl, by simp [labelsOf], id, rfl, invariant,
    ⟨#[], by simp⟩, .nil _⟩

theorem Progress.cons {middle : Draft} {instruction : Instruction} {emitted : List Emitted}
    {pieces : Pieces}
    (first : Progress subject isolation clauses targets before middle [(instruction, emitted)])
    (waits : middle.constraint? = waiting before.constraint? instruction)
    (rest : Progress subject isolation clauses targets middle after pieces) :
    Progress subject isolation clauses targets before after ((instruction, emitted) :: pieces) := by
  have code : codeOf ((instruction, emitted) :: pieces) = emitted ++ codeOf pieces := rfl
  have single : codeOf [(instruction, emitted)] = emitted := by simp [codeOf]
  have items := first.items
  have proper := first.proper
  rw [single] at items proper
  have here : middle.encoder.here = before.encoder.here + emitted.length := by
    have := congrArg List.length items
    simpa [Encoder.here] using this
  refine ⟨?_, ?_, rest.shortens.trans first.shortens, ?_, fun distinct =>
    rest.distinct (first.distinct distinct), ?_, rest.invariant, ?_, ?_⟩
  · rw [rest.items, items, code, List.map_append, List.append_assoc]
  · rw [code]
    exact fun item member => (List.mem_append.mp member).elim (proper item) (rest.proper item)
  · rw [rest.labels, first.labels, here, List.append_assoc]
    simp [labelsOf]
  · have one := first.blocks
    unfold replay at one ⊢
    cases acted : before.encoder.blocks.replayAt clauses instruction.offset
        before.encoder.here with
    | none =>
        rw [acted] at one
        cases one
    | some blocks =>
        rw [acted] at one
        obtain rfl : blocks = middle.encoder.blocks := Option.some.inj one
        rw [← here]
        exact rest.blocks
  · obtain ⟨firstAdded, firstScope⟩ := first.scope
    obtain ⟨restAdded, restScope⟩ := rest.scope
    exact ⟨firstAdded ++ restAdded, by rw [restScope, firstScope, Array.append_assoc]⟩
  · cases first.trace with
    | cons piece _ =>
        refine .cons (piece.mono rest.scope) ?_
        rw [← waits]
        exact rest.trace

/-- Emits what an instruction becomes, with the events and the label in front of it. -/
def emitPlaced (clauses : List Clause) (targets : List Nat) (instruction : Instruction) :
    InstrumentM Unit := do
  emitting (Regions.apply clauses instruction.offset)
  if targets.contains instruction.offset then
    emitting (Encoder.defineLabel (labelAt instruction.offset))
  emitInstruction instruction

theorem progress_of_emitPlaced {instruction : Instruction} {result : Unit}
    (wellRead : instruction.WellRead) (invariant : Invariant subject isolation before)
    (ran : emitPlaced clauses targets instruction subject before = .ok result after) :
    ∃ emitted,
      Progress subject isolation clauses targets before after [(instruction, emitted)] ∧
        after.constraint? = waiting before.constraint? instruction := by
  obtain ⟨_, replayed, replayRan, ran⟩ := bind_ok ran
  obtain ⟨applied, replayedEq⟩ := emitting_ok replayRan
  obtain ⟨blocks, replayedSame⟩ := Encoder.apply_eq_ok applied
  obtain ⟨labelled, labelledEq, labels, items, shortens, sameBlocks, distinct, ran⟩ :
      ∃ labelled : Draft, labelled = { before with encoder := labelled.encoder } ∧
        labelled.encoder.labels.toList = before.encoder.labels.toList ++
          (if targets.contains instruction.offset then
            [(labelAt instruction.offset, before.encoder.here)] else []) ∧
        labelled.encoder.items = before.encoder.items ∧
        labelled.encoder.shortens = before.encoder.shortens ∧
        labelled.encoder.blocks = replayed.encoder.blocks ∧
        ((before.encoder.labels.toList.map (·.1)).Nodup →
          (labelled.encoder.labels.toList.map (·.1)).Nodup) ∧
        emitInstruction instruction subject labelled = .ok result after := by
    split at ran
    · rename_i isTarget
      obtain ⟨_, labelled, labelRan, ran⟩ := bind_ok ran
      obtain ⟨defined, labelledEq⟩ := emitting_ok labelRan
      obtain ⟨fresh, labels, items, shortens, sameBlocks⟩ := Encoder.defineLabel_eq_ok defined
      rw [replayedSame.labels] at fresh labels
      rw [replayedSame.here] at labels
      refine ⟨labelled, by rw [labelledEq, replayedEq], ?_, items.trans replayedSame.items,
        shortens.trans replayedSame.shortens, sameBlocks, fun distinct => ?_, ran⟩
      · rw [if_pos isTarget, labels]
      · rw [labels, List.map_append]
        refine List.nodup_append.mpr ⟨distinct, by simp, fun defined member new isNew => ?_⟩
        obtain rfl : new = labelAt instruction.offset := by simpa using isNew
        rintro rfl
        exact fresh member
    · rename_i noTarget
      refine ⟨replayed, replayedEq, ?_, replayedSame.items, replayedSame.shortens, rfl, ?_, ran⟩
      · rw [if_neg noTarget, List.append_nil, replayedSame.labels]
      · rw [replayedSame.labels]
        exact id
  -- Labels and events touch neither the run nor the dynamic tokens.
  have labelledInvariant : Invariant subject isolation labelled := by
    rw [labelledEq]
    exact ⟨invariant.stubs, invariant.shims, invariant.config, invariant.tokens⟩
  obtain ⟨emitted, emits, piece, waits⟩ :=
    becomes_of_emitInstruction wellRead labelledInvariant ran
  have sameConstraint : labelled.constraint? = before.constraint? := by rw [labelledEq]
  have sameScope : labelled.scope = before.scope := by rw [labelledEq]
  have single : codeOf [(instruction, emitted)] = emitted := by simp [codeOf]
  rw [sameConstraint] at piece waits
  refine ⟨emitted, ⟨?_, ?_, emits.appends.shortens.trans shortens, ?_, ?_, ?_, emits.invariant,
    ?_, .cons piece (.nil _)⟩, waits⟩
  · rw [single, emits.appends.items, items]
  · rw [single]
    exact emits.appends.proper
  · rw [emits.appends.labels, labels]
    simp [labelsOf]
  · rw [emits.appends.labels]
    exact distinct
  · have kept : after.encoder.blocks = labelled.encoder.blocks := by
      simp [Encoder.blocks, emits.appends.openBlocks, emits.appends.clauses]
    unfold replay
    rw [blocks, kept, sameBlocks]
    rfl
  · rw [← sameScope]
    exact emits.scope

/-- Emitting a row of instructions emits their pieces. -/
theorem progress_of_forM {instructions : List Instruction} {result : Unit}
    (wellRead : ∀ instruction ∈ instructions, instruction.WellRead)
    (invariant : Invariant subject isolation before)
    (ran : instructions.forM (emitPlaced clauses targets) subject before = .ok result after) :
    ∃ pieces : Pieces, pieces.map (·.1) = instructions ∧
      Progress subject isolation clauses targets before after pieces := by
  induction instructions generalizing before with
  | nil =>
      obtain ⟨_, rfl⟩ := pure_eq_ok.mp ran
      exact ⟨[], rfl, .refl invariant⟩
  | cons instruction instructions ih =>
      obtain ⟨_, middle, firstRan, ran⟩ := bind_ok ran
      obtain ⟨emitted, first, waits⟩ :=
        progress_of_emitPlaced (wellRead instruction (by simp)) invariant firstRan
      obtain ⟨pieces, mapped, rest⟩ :=
        ih (fun other member => wellRead other (by simp [member])) first.invariant ran
      exact ⟨(instruction, emitted) :: pieces, by rw [List.map_cons, mapped],
        first.cons waits rest⟩

end Runs

/-! ## Whole methods -/

def targetsOf (code : MethodCode) : List Nat :=
  code.instructions.toList.flatMap (·.targets)

/-- Pieces with what is laid out behind them. -/
def layoutOf (code : MethodCode) (pieces : Pieces) (ending : List Emitted) : Layout.Draft :=
  { items := (codeOf pieces ++ ending).map Emitted.item
    labels := labelsOf (targetsOf code) 0 pieces }

/-- What the code of a method becomes. -/
structure Emission (subject : Subject) (isolation : IsolationRun) (code : MethodCode)
    (scope : Scope) (emitted : EmittedCode) (pieces : Pieces) (ending : List Emitted) : Prop where
  instructions : pieces.map (·.1) = code.instructions.toList
  trace : Trace subject isolation scope none pieces
  proper : ∀ instruction ∈ codeOf pieces, instruction.Proper
  distinct : ((labelsOf (targetsOf code) 0 pieces).map (·.1)).Nodup
  /-- Only a branch to the end of the code asks for a return behind it. -/
  ends : ending = [] ∨ ending = [.plain .ret .none] ∧
    ∃ opcode label, .branch opcode label ∈ codeOf pieces ∧
      (label, (codeOf pieces).length) ∈ labelsOf (targetsOf code) 0 pieces
  laidOut : (layoutOf code pieces ending).LaidOut (codeOf pieces ++ ending) emitted.code
  clauses : ∃ finished,
    ((replay code.clauses 0 pieces ⟨[], []⟩).bind fun blocks =>
      blocks.replayAt code.clauses code.codeSize (codeOf pieces).length) = some ⟨[], finished⟩ ∧
      emitted.clauses = finished.map (Layout.clauseOf (layoutOf code pieces ending).items)

theorem ends_of_ending {encoder : Encoder} {emitted : List Emitted}
    (items : encoder.items.toList = emitted.map Emitted.item) :
    encoder.ending = [] ∨ encoder.ending = [.plain .ret .none] ∧
      ∃ opcode label, .branch opcode label ∈ emitted ∧
        (label, emitted.length) ∈ encoder.labels.toList := by
  unfold Encoder.ending
  split
  · rename_i leaves
    refine Or.inr ⟨rfl, ?_⟩
    obtain ⟨item, member, leads⟩ := Array.any_eq_true'.mp leaves
    rw [← Array.mem_toList_iff, items] at member
    obtain ⟨instruction, listed, rfl⟩ := List.mem_map.mp member
    cases instruction with
    | plain opcode operand => cases leads
    | switch labels => cases leads
    | branch opcode label =>
        obtain ⟨defined, found, atEnd⟩ := Option.map_eq_some_iff.mp (beq_iff_eq.mp leads)
        have here : encoder.here = emitted.length := by
          simpa [Encoder.here] using congrArg List.length items
        have same : defined.1 = label := by simpa using Array.find?_some found
        refine ⟨opcode, label, listed, ?_⟩
        rw [← here, ← atEnd, ← same]
        exact Array.mem_toList_iff.mpr (Array.mem_of_find?_eq_some found)
  · exact Or.inl rfl

/-- Emitting a method emits the pieces of its instructions and lays them out. -/
theorem emission_of_emitCode {subject : Subject} {isolation : IsolationRun} {code : MethodCode}
    {before after : Draft} {emitted : EmittedCode}
    (wellRead : ∀ instruction ∈ code.instructions.toList, instruction.WellRead)
    (invariant : Invariant subject isolation before) (start : before.encoder = {})
    (unmarked : before.constraint? = none)
    (ran : emitCode code subject before = .ok emitted after) :
    ∃ pieces ending, Emission subject isolation code after.scope emitted pieces ending := by
  obtain ⟨_, set, setRan, ran⟩ := bind_ok ran
  obtain ⟨shortening, setEq⟩ := emitting_ok setRan
  obtain ⟨_, middle, rowRan, ran⟩ := bind_ok ran
  obtain ⟨_, replayed, replayRan, ran⟩ := bind_ok ran
  obtain ⟨finishRan, afterEq⟩ := emitting_ok ran
  obtain ⟨applied, replayedEq⟩ := emitting_ok replayRan
  obtain ⟨blocks, replayedSame⟩ := Encoder.apply_eq_ok applied
  have setEncoder := modify_eq_ok.mp shortening
  have setInvariant : Invariant subject isolation set := by
    rw [setEq]
    exact ⟨invariant.stubs, invariant.shims, invariant.config, invariant.tokens⟩
  obtain ⟨pieces, instructions, progress⟩ := progress_of_forM wellRead setInvariant rowRan
  rw [start] at setEncoder
  have items : middle.encoder.items.toList = (codeOf pieces).map Emitted.item := by
    rw [progress.items, ← setEncoder]
    simp
  have labels : middle.encoder.labels.toList = labelsOf (targetsOf code) 0 pieces := by
    rw [progress.labels, ← setEncoder]
    exact List.nil_append _
  have here : middle.encoder.here = (codeOf pieces).length := by
    simpa [Encoder.here] using congrArg List.length items
  have long : replayed.encoder.shortens = false := by
    rw [replayedSame.shortens, progress.shortens, ← setEncoder]
  have distinct := progress.distinct (by rw [← setEncoder]; exact List.nodup_nil)
  obtain ⟨closed, laidOut, clauses⟩ :=
    Encoder.finish_long_eq_ok (by rw [replayedSame.items, items]) progress.proper long finishRan
  have scope : after.scope = middle.scope := by rw [afterEq, replayedEq]
  have unmarkedSet : set.constraint? = none := by rw [setEq]; exact unmarked
  have replays := progress.blocks
  rw [← setEncoder] at replays
  rw [replayedSame.labels, labels] at laidOut clauses
  rw [labels] at distinct
  refine ⟨pieces, replayed.encoder.ending, instructions, ?_, progress.proper, distinct, ?_,
    laidOut, ?_⟩
  · rw [scope, ← unmarkedSet]
    exact progress.trace
  · have leaves := ends_of_ending (by rw [replayedSame.items, items])
    rwa [replayedSame.labels, labels] at leaves
  · refine ⟨replayed.encoder.clauses.toList, ?_, clauses⟩
    have final : replay code.clauses 0 pieces ⟨[], []⟩ = some middle.encoder.blocks := replays
    rw [final, Option.bind_some, ← here, blocks, Encoder.blocks, closed]

end Instrumentation

end Cil
