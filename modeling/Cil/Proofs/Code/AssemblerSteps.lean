import Cil.Code.Assembler
import Cil.Proofs.Code.Requests

/-!
# What an assembler does with blocks

Every statement of a program makes the encoder carry out commands.  Of all that an assembler
holds, the number of instructions, the blocks and their names determine what the statements do
to the blocks: a view of these follows every step that succeeds.
-/

namespace Cil

open Stateful
open MonadExcept (ofExcept)

/-! ## Statements -/

namespace Statement

/-- Whether a statement is about blocks. -/
def isMarker : Statement → Bool
  | .tryStart _ | .tryEnd _ | .catchStart _ _ | .filterStart _ | .filterHandlerStart _
  | .finallyStart _ | .faultStart _ | .handlerEnd _ => true
  | _ => false

/-- How many instructions a statement emits. -/
def size (statement : Statement) : Nat :=
  match statement with
  | .label _ => 0
  | _ => if statement.isMarker then 0 else 1

end Statement

def sizeOfStatements : List Statement → Nat
  | [] => 0
  | statement :: statements => statement.size + sizeOfStatements statements

theorem sizeOfStatements_append (first second : List Statement) :
    sizeOfStatements (first ++ second) = sizeOfStatements first + sizeOfStatements second := by
  induction first with
  | nil => simp [sizeOfStatements]
  | cons statement statements ih =>
      simp only [List.cons_append, sizeOfStatements, ih, Nat.add_assoc]

/-! ## Commands -/

namespace Encoder

/-- An encoder gets from one state to another by carrying out commands. -/
def CarriesOut (before after : Encoder) : Prop :=
  ∃ commands : List Command, commands.forM Command.perform before = .ok () after

theorem CarriesOut.refl (encoder : Encoder) : CarriesOut encoder encoder :=
  ⟨[], rfl⟩

theorem CarriesOut.trans {before middle after : Encoder} (first : CarriesOut before middle)
    (second : CarriesOut middle after) : CarriesOut before after := by
  obtain ⟨commands, ran⟩ := first
  obtain ⟨more, moreRan⟩ := second
  refine ⟨commands ++ more, ?_⟩
  induction commands generalizing before with
  | nil =>
      cases ran
      exact moreRan
  | cons command commands ih =>
      obtain ⟨_, between, firstRan, restRan⟩ := bind_eq_ok.mp ran
      exact bind_eq_ok.mpr ⟨(), between, firstRan, ih restRan⟩

theorem CarriesOut.of_perform {before after : Encoder} (command : Command)
    (ran : command.perform before = .ok () after) : CarriesOut before after :=
  ⟨[command], bind_eq_ok.mpr ⟨(), after, ran, rfl⟩⟩

theorem Outline.ascend_empty : Outline.empty.blocks.Ascend Outline.empty.here :=
  ⟨by simp [Outline.empty], by simp [Outline.empty]⟩

theorem CarriesOut.follows {before after : Encoder} {outline : Outline}
    (performs : CarriesOut before after) (follows : Follows before outline)
    (ascend : outline.blocks.Ascend outline.here) :
    ∃ final, Follows after final ∧ final.blocks.Ascend final.here ∧
      outline.emitted <+: final.emitted ∧ after.shortens = before.shortens := by
  obtain ⟨commands, ran⟩ := performs
  obtain ⟨final, added, followsFinal, shortens⟩ := follows.run ran
  exact ⟨final, followsFinal, Outline.ascend_of_foldlM ascend added,
    ⟨_, (Outline.emitted_of_foldlM added).symm⟩, shortens⟩

/-- A step that emits a number of instructions and leaves the blocks as they are. -/
structure Emits (count : Nat) (before after : Encoder) : Prop where
  performs : CarriesOut before after
  here : after.here = before.here + count
  blocks : after.blocks = before.blocks

theorem Emits.of_appends {before after : Encoder} {emitted : Emitted} (command : Command)
    (ran : command.perform before = .ok () after) (appends : Appends before after [emitted]) :
    Emits 1 before after where
  performs := .of_perform command ran
  here := by simpa [Encoder.here] using congrArg List.length appends.items
  blocks := by simp [Encoder.blocks, appends.openBlocks, appends.clauses]

theorem emits_of_emit {opcode : Opcode} {operand? : Option Operand} {before after : Encoder}
    (ran : emit opcode operand? before = .ok () after) : Emits 1 before after :=
  .of_appends (.emit opcode operand?) ran (appends_of_emit ran)

theorem emits_of_emitCall {opcode : Opcode} {operand? : Option Operand} {arguments : Nat}
    {hasResult : Bool} {before after : Encoder}
    (ran : emitCall opcode operand? arguments hasResult before = .ok () after) :
    Emits 1 before after :=
  .of_appends (.emitCall opcode operand? arguments hasResult) ran
    (appends_of_emitCall ran)

theorem emits_of_emitBranch {opcode : Opcode} {label : String} {before after : Encoder}
    (ran : emitBranch opcode label before = .ok () after) : Emits 1 before after :=
  .of_appends (.emitBranch opcode label) ran (appends_of_emitBranch ran)

theorem emits_of_emitSwitch {labels : List String} {before after : Encoder}
    (ran : emitSwitch labels before = .ok () after) : Emits 1 before after :=
  .of_appends (.emitSwitch labels) ran (appends_of_emitSwitch ran)

theorem emits_of_defineLabel {label : String} {before after : Encoder}
    (ran : defineLabel label before = .ok () after) : Emits 0 before after := by
  obtain ⟨_, _, items, _, blocks⟩ := defineLabel_eq_ok ran
  exact ⟨.of_perform (.defineLabel label) ran, congrArg Array.size items, blocks⟩

/-- An access to an argument or a local is emitted as one instruction. -/
theorem emits_of_form {step : EncoderM Unit} {before after : Encoder}
    (form : ∃ opcode operand?, step = emit opcode operand?) (ran : step before = .ok () after) :
    Emits 1 before after := by
  obtain ⟨opcode, operand?, rfl⟩ := form
  exact emits_of_emit ran

theorem form_of_emitLoadArgument (index : UInt16) :
    ∃ opcode operand?, emitLoadArgument index = emit opcode operand? := by
  unfold emitLoadArgument
  split <;> first | exact ⟨_, _, rfl⟩ | exact exists_emit_of_emitIndexed _ _ _

theorem form_of_emitLoadLocal (index : UInt16) :
    ∃ opcode operand?, emitLoadLocal index = emit opcode operand? := by
  unfold emitLoadLocal
  split <;> first | exact ⟨_, _, rfl⟩ | exact exists_emit_of_emitIndexed _ _ _

theorem form_of_emitStoreLocal (index : UInt16) :
    ∃ opcode operand?, emitStoreLocal index = emit opcode operand? := by
  unfold emitStoreLocal
  split <;> first | exact ⟨_, _, rfl⟩ | exact exists_emit_of_emitIndexed _ _ _

theorem form_of_emitConstant (value : Int32) :
    ∃ opcode operand?, emitConstant value = emit opcode operand? := by
  unfold emitConstant
  split
  case h_11 => split <;> exact ⟨_, _, rfl⟩
  all_goals exact ⟨_, _, rfl⟩

end Encoder

namespace Assembler

open Encoder (CarriesOut Emits)

/-! ## Views -/

/-- What of an assembler matters to its blocks: the number of instructions, the blocks of the
encoder, the names of the open ones, and the block whose last handler has ended. -/
structure View where
  here : Mark
  blocks : Blocks
  names : List String
  closing? : Option String

def view (assembler : Assembler) : View :=
  { here := assembler.encoder.here, blocks := assembler.encoder.blocks
    names := assembler.blocks, closing? := assembler.closing? }

namespace View

def act (view : View) (event : RegionEvent) : Option View :=
  (Blocks.act view.here view.blocks event).map fun blocks => { view with blocks }

/-- The block that is pending ends. -/
def flush (view : View) : Option View :=
  if view.closing?.isSome then
    (view.act .endTry).map fun ended => { ended with names := ended.names.tail, closing? := none }
  else some view

def expect (name : String) (view : View) : Option View :=
  if view.names.head? = some name then some view else none

/-- A handler of the pending block goes on with it, any other handler waits for its end. -/
def prepare (name : String) (view : View) : Option View :=
  if view.closing? = some name then some { view with closing? := none }
  else view.flush.bind (expect name)

def step (view : View) : Statement → Option View
  | .tryStart name =>
      view.flush.bind fun view => { view with names := name :: view.names }.act .beginTry
  | .tryEnd name => view.flush.bind (expect name)
  | .catchStart name exceptionClass => (view.prepare name).bind (·.act (.beginCatch exceptionClass))
  | .filterStart name => (view.prepare name).bind (·.act .beginFilter)
  | .filterHandlerStart name =>
      (view.flush.bind (expect name)).bind (·.act .beginFilteredHandler)
  | .finallyStart name => (view.prepare name).bind (·.act .beginFinally)
  | .faultStart name => (view.prepare name).bind (·.act .beginFault)
  | .handlerEnd name =>
      (view.flush.bind (expect name)).map fun view => { view with closing? := some name }
  | statement => view.flush.map fun view => { view with here := view.here + statement.size }

def run (statements : List Statement) (view : View) : Option View :=
  statements.foldlM step view

end View

/-! ## Steps -/

section Steps

variable {before after : Assembler}

theorem encode_eq_ok {α : Type} {step : EncoderM α} {value : α} :
    encode step before = .ok value after ↔
      ∃ encoder, step before.encoder = .ok value encoder ∧ { before with encoder } = after := by
  unfold encode
  cases step before.encoder with
  | ok result encoder => simp
  | error error encoder => simp

/-- A step of an assembler makes its encoder carry out commands, and its view follows. -/
structure Follows (next : View → Option View) (before after : Assembler) : Prop where
  performs : CarriesOut before.encoder after.encoder
  view : next before.view = some after.view

theorem follows_of_event (event : RegionEvent)
    (ran : encode (Regions.perform event) before = .ok () after) :
    Follows (·.act event) before after := by
  obtain ⟨encoder, performed, rfl⟩ := encode_eq_ok.mp ran
  obtain ⟨acts, same⟩ := Encoder.perform_eq_ok performed
  refine ⟨.of_perform (.region event) performed, ?_⟩
  simp only [View.act, Assembler.view, acts, Option.map_some, same.here]

theorem follows_of_flushBlock (ran : flushBlock before = .ok () after) :
    Follows View.flush before after := by
  unfold flushBlock at ran
  rw [get_bind_run] at ran
  cases closing : before.closing? with
  | none =>
      simp only [closing, Option.isSome_none, Bool.false_eq_true, if_false] at ran
      obtain ⟨_, rfl⟩ := pure_eq_ok.mp ran
      refine ⟨.refl _, ?_⟩
      simp [View.flush, Assembler.view, closing]
  | some name =>
      simp only [closing, Option.isSome_some, if_true] at ran
      obtain ⟨_, cleared, clearRan, ran⟩ := bind_eq_ok.mp ran
      obtain ⟨_, ended, endRan, popRan⟩ := bind_eq_ok.mp ran
      obtain rfl := modify_eq_ok.mp clearRan
      obtain rfl := modify_eq_ok.mp popRan
      obtain ⟨performs, acts⟩ := follows_of_event .endTry endRan
      refine ⟨performs, ?_⟩
      obtain ⟨encoder, _, rfl⟩ := encode_eq_ok.mp endRan
      obtain ⟨blocks, acted, same⟩ := Option.map_eq_some_iff.mp acts
      simp only [View.flush, View.act, Assembler.view, closing, Option.isSome_some, if_true]
        at acted same ⊢
      rw [acted]
      simpa using same

theorem expectBlock_eq_ok {name : String} (ran : expectBlock name before = .ok () after) :
    before = after ∧ before.view.expect name = some after.view := by
  unfold expectBlock at ran
  rw [get_bind_run] at ran
  unfold View.expect Assembler.view
  cases blocks : before.blocks with
  | nil =>
      rw [blocks] at ran
      exact absurd ran throw_ne_ok
  | cons innermost outer =>
      rw [blocks] at ran
      dsimp only at ran
      split at ran
      · exact absurd ran throw_ne_ok
      · rename_i same
        obtain ⟨_, rfl⟩ := pure_eq_ok.mp ran
        simp only [ne_eq, Decidable.not_not] at same
        simp [same, blocks]

theorem Follows.trans {middle : Assembler} {first second : View → Option View}
    (once : Follows first before middle) (again : Follows second middle after) :
    Follows (fun view => (first view).bind second) before after :=
  ⟨once.performs.trans again.performs, by rw [once.view]; exact again.view⟩

theorem follows_of_expectBlock {name : String} (ran : expectBlock name before = .ok () after) :
    Follows (·.expect name) before after := by
  obtain ⟨rfl, expected⟩ := expectBlock_eq_ok ran
  exact ⟨.refl _, expected⟩

theorem follows_of_prepareHandler {name : String}
    (ran : prepareHandler name before = .ok () after) : Follows (·.prepare name) before after := by
  unfold prepareHandler at ran
  rw [get_bind_run] at ran
  split at ran
  · rename_i pending
    obtain rfl := modify_eq_ok.mp ran
    refine ⟨.refl _, ?_⟩
    simp [View.prepare, Assembler.view, pending]
  · rename_i other
    obtain ⟨⟨⟩, middle, flushRan, ran⟩ := bind_eq_ok.mp ran
    have follows := (follows_of_flushBlock flushRan).trans (follows_of_expectBlock ran)
    refine ⟨follows.performs, ?_⟩
    have waits : before.view.closing? ≠ some name := other
    unfold View.prepare
    rw [if_neg waits]
    exact follows.view

theorem follows_of_emitting {step : EncoderM Unit} {count : Nat}
    (emits : ∀ {first last : Encoder}, step first = .ok () last → Emits count first last)
    (ran : emitting step before = .ok () after) :
    Follows (fun view => view.flush.map fun view => { view with here := view.here + count })
      before after := by
  obtain ⟨⟨⟩, flushed, flushRan, ran⟩ := bind_eq_ok.mp ran
  obtain ⟨performs, view⟩ := follows_of_flushBlock flushRan
  obtain ⟨encoder, stepRan, rfl⟩ := encode_eq_ok.mp ran
  have emitted := emits stepRan
  refine ⟨performs.trans emitted.performs, ?_⟩
  rw [view, Option.map_some]
  simp only [Assembler.view, emitted.here, emitted.blocks]

theorem symbolsFor_eq_ok {token : Token} {module : Module}
    (ran : symbolsFor token before = .ok module after) : before = after := by
  unfold symbolsFor at ran
  rw [get_bind_run] at ran
  cases known : before.module? with
  | none =>
      rw [known] at ran
      exact absurd ran throw_ne_ok
  | some found =>
      rw [known] at ran
      exact (pure_eq_ok.mp ran).2

theorem follows_of_emitCall {opcode : Opcode} {token : Token} {pops : Nat} {hasResult : Bool}
    (ran : emitCall opcode token pops hasResult before = .ok () after) :
    Follows (fun view => view.flush.map fun view => { view with here := view.here + 1 })
      before after := by
  obtain ⟨⟨⟩, flushed, flushRan, ran⟩ := bind_eq_ok.mp ran
  dsimp only at ran
  split at ran
  · obtain ⟨_, _, failed, _⟩ := bind_eq_ok.mp ran
    exact absurd failed throw_ne_ok
  · have emitted : emitting (Encoder.emitCall opcode (some (.token token)) pops hasResult) before =
        .ok () after := bind_eq_ok.mpr ⟨(), flushed, flushRan, ran⟩
    exact follows_of_emitting Encoder.emits_of_emitCall emitted

/-- Before a call is emitted its target is looked up, which changes nothing. -/
theorem follows_of_lookup {α : Type} {token : Token} (lookUp : Module → Except Error α)
    {next : α → AssemblerM Unit} {change : View → Option View}
    (nextFollows : ∀ {value : α}, next value before = .ok () after → Follows change before after)
    (ran : (do next (← ofExcept (lookUp (← symbolsFor token))) : AssemblerM Unit) before =
      .ok () after) :
    Follows change before after := by
  obtain ⟨module, middle, symbolsRan, ran⟩ := bind_eq_ok.mp ran
  obtain rfl := symbolsFor_eq_ok symbolsRan
  obtain ⟨value, middle, foundRan, ran⟩ := bind_eq_ok.mp ran
  obtain ⟨_, rfl⟩ := ofExcept_eq_ok.mp foundRan
  exact nextFollows ran

theorem follows_of_handlerStart {name : String} (event : RegionEvent)
    (ran : (do prepareHandler name; encode (Regions.perform event) : AssemblerM Unit) before =
      .ok () after) :
    Follows (fun view => (view.prepare name).bind (·.act event)) before after := by
  obtain ⟨⟨⟩, prepared, prepareRan, ran⟩ := bind_eq_ok.mp ran
  exact (follows_of_prepareHandler prepareRan).trans (follows_of_event event ran)

/-- The view of an assembler follows every statement that succeeds. -/
theorem follows_of_assemble {statement : Statement}
    (ran : assemble statement before = .ok () after) :
    Follows (·.step statement) before after := by
  cases statement with
  | plain opcode => exact follows_of_emitting Encoder.emits_of_emit ran
  | withToken opcode token => exact follows_of_emitting Encoder.emits_of_emit ran
  | withImmediate opcode value => exact follows_of_emitting Encoder.emits_of_emit ran
  | branch opcode label => exact follows_of_emitting Encoder.emits_of_emitBranch ran
  | switch labels => exact follows_of_emitting Encoder.emits_of_emitSwitch ran
  | label name => exact follows_of_emitting Encoder.emits_of_defineLabel ran
  | loadArgument index =>
      exact follows_of_emitting (Encoder.emits_of_form (Encoder.form_of_emitLoadArgument index)) ran
  | loadArgumentAddress index =>
      exact follows_of_emitting
        (Encoder.emits_of_form (Encoder.exists_emit_of_emitIndexed _ _ index)) ran
  | storeArgument index =>
      exact follows_of_emitting
        (Encoder.emits_of_form (Encoder.exists_emit_of_emitIndexed _ _ index)) ran
  | loadLocal index =>
      exact follows_of_emitting (Encoder.emits_of_form (Encoder.form_of_emitLoadLocal index)) ran
  | loadLocalAddress index =>
      exact follows_of_emitting
        (Encoder.emits_of_form (Encoder.exists_emit_of_emitIndexed _ _ index)) ran
  | storeLocal index =>
      exact follows_of_emitting (Encoder.emits_of_form (Encoder.form_of_emitStoreLocal index)) ran
  | constant value =>
      exact follows_of_emitting (Encoder.emits_of_form (Encoder.form_of_emitConstant value)) ran
  | call opcode method =>
      exact follows_of_lookup (fun module => module.method method)
        (fun emitted => follows_of_emitCall emitted) ran
  | construct constructor =>
      exact follows_of_lookup (fun module => module.method constructor)
        (fun emitted => follows_of_emitCall emitted) ran
  | callIndirect signature =>
      refine follows_of_lookup (fun module => module.standAloneSignature signature)
        (fun {found} emitted => ?_) ran
      cases found with
      | locals _ => exact absurd emitted throw_ne_ok
      | method callSite => exact follows_of_emitCall emitted
  | tryStart name =>
      obtain ⟨⟨⟩, flushed, flushRan, ran⟩ := bind_eq_ok.mp ran
      obtain ⟨⟨⟩, named, nameRan, ran⟩ := bind_eq_ok.mp ran
      obtain rfl := modify_eq_ok.mp nameRan
      obtain ⟨performs, view⟩ := follows_of_event .beginTry ran
      have flush := follows_of_flushBlock flushRan
      refine ⟨flush.performs.trans performs, ?_⟩
      simp only [View.step, flush.view, Option.bind_some]
      exact view
  | tryEnd name =>
      obtain ⟨⟨⟩, flushed, flushRan, ran⟩ := bind_eq_ok.mp ran
      exact (follows_of_flushBlock flushRan).trans (follows_of_expectBlock ran)
  | catchStart name exceptionClass =>
      exact follows_of_handlerStart (.beginCatch exceptionClass) ran
  | filterStart name => exact follows_of_handlerStart .beginFilter ran
  | filterHandlerStart name =>
      obtain ⟨⟨⟩, flushed, flushRan, ran⟩ := bind_eq_ok.mp ran
      obtain ⟨⟨⟩, expected, expectRan, ran⟩ := bind_eq_ok.mp ran
      exact ((follows_of_flushBlock flushRan).trans (follows_of_expectBlock expectRan)).trans
        (follows_of_event .beginFilteredHandler ran)
  | finallyStart name => exact follows_of_handlerStart .beginFinally ran
  | faultStart name => exact follows_of_handlerStart .beginFault ran
  | handlerEnd name =>
      obtain ⟨⟨⟩, flushed, flushRan, ran⟩ := bind_eq_ok.mp ran
      obtain ⟨⟨⟩, expected, expectRan, ran⟩ := bind_eq_ok.mp ran
      obtain rfl := modify_eq_ok.mp ran
      obtain ⟨performs, view⟩ :=
        (follows_of_flushBlock flushRan).trans (follows_of_expectBlock expectRan)
      refine ⟨performs, ?_⟩
      simp only [View.step, view, Option.map_some]
      rfl

theorem follows_of_forM {statements : List Statement}
    (ran : statements.forM assemble before = .ok () after) :
    Follows (View.run statements) before after := by
  induction statements generalizing before with
  | nil =>
      cases ran
      exact ⟨.refl _, rfl⟩
  | cons statement statements ih =>
      obtain ⟨⟨⟩, middle, stepRan, ran⟩ := bind_eq_ok.mp ran
      have follows := (follows_of_assemble stepRan).trans (ih ran)
      exact ⟨follows.performs, follows.view⟩

end Steps

/-! ## Whole programs -/

namespace View

def empty : View :=
  { here := 0, blocks := ⟨[], []⟩, names := [], closing? := none }

variable {view next : View}

theorem here_of_act {event : RegionEvent} (acted : view.act event = some next) :
    next.here = view.here := by
  obtain ⟨blocks, _, rfl⟩ := Option.map_eq_some_iff.mp acted
  rfl

theorem here_of_flush (flushed : view.flush = some next) : next.here = view.here := by
  unfold flush at flushed
  split at flushed
  · obtain ⟨ended, acted, rfl⟩ := Option.map_eq_some_iff.mp flushed
    have same : ended.here = view.here := here_of_act acted
    exact same
  · cases flushed
    rfl

theorem eq_of_expect {name : String} (expected : view.expect name = some next) :
    next = view ∧ view.names.head? = some name := by
  unfold expect at expected
  split at expected
  · rename_i innermost
    cases expected
    exact ⟨rfl, innermost⟩
  · cases expected

theorem here_of_prepare {name : String} (prepared : view.prepare name = some next) :
    next.here = view.here := by
  unfold prepare at prepared
  split at prepared
  · cases prepared
    rfl
  · obtain ⟨flushed, flushRan, expected⟩ := Option.bind_eq_some_iff.mp prepared
    obtain ⟨rfl, _⟩ := eq_of_expect expected
    exact here_of_flush flushRan

/-- A statement moves the end of the code by the instructions that it emits. -/
theorem here_of_step {statement : Statement} (stepped : view.step statement = some next) :
    next.here = view.here + statement.size := by
  have started {name : String} {event : RegionEvent}
      (ran : (view.prepare name).bind (·.act event) = some next) : next.here = view.here := by
    obtain ⟨prepared, prepareRan, acted⟩ := Option.bind_eq_some_iff.mp ran
    rw [here_of_act acted, here_of_prepare prepareRan]
  have expected {name : String} {final : View}
      (ran : view.flush.bind (expect name) = some final) : final.here = view.here := by
    obtain ⟨flushed, flushRan, expectRan⟩ := Option.bind_eq_some_iff.mp ran
    obtain ⟨rfl, _⟩ := eq_of_expect expectRan
    exact here_of_flush flushRan
  cases statement with
  | tryStart name =>
      obtain ⟨flushed, flushRan, acted⟩ := Option.bind_eq_some_iff.mp stepped
      have begun := here_of_act acted
      have ended := here_of_flush flushRan
      exact begun.trans ended
  | tryEnd name => exact expected stepped
  | catchStart name exceptionClass => exact started stepped
  | filterStart name => exact started stepped
  | filterHandlerStart name =>
      obtain ⟨middle, ran, acted⟩ := Option.bind_eq_some_iff.mp stepped
      exact (here_of_act acted).trans (expected ran)
  | finallyStart name => exact started stepped
  | faultStart name => exact started stepped
  | handlerEnd name =>
      obtain ⟨middle, ran, rfl⟩ := Option.map_eq_some_iff.mp stepped
      have same := expected ran
      exact same
  | _ =>
      obtain ⟨flushed, flushRan, rfl⟩ := Option.map_eq_some_iff.mp stepped
      exact congrArg (· + _) (here_of_flush flushRan)

theorem here_of_run {statements : List Statement} (ran : view.run statements = some next) :
    next.here = view.here + sizeOfStatements statements := by
  induction statements generalizing view with
  | nil =>
      cases ran
      rfl
  | cons statement statements ih =>
      obtain ⟨middle, stepped, rest⟩ := Option.bind_eq_some_iff.mp ran
      rw [ih rest, here_of_step stepped, sizeOfStatements, Nat.add_assoc]

/-! ## Depth -/

variable {name : String}

/-- How many blocks are open, not counting the one that is pending. -/
def depth (view : View) : Nat :=
  (if view.closing?.isSome then view.names.tail else view.names).length

theorem flush_of_settled (settled : view.closing? = none) : view.flush = some view := by
  rw [flush, settled]
  rfl

theorem settled_of_flush (flushed : view.flush = some next) :
    next.closing? = none ∧ next.depth = view.depth := by
  unfold flush at flushed
  split at flushed
  · rename_i pending
    obtain ⟨ended, acted, rfl⟩ := Option.map_eq_some_iff.mp flushed
    obtain ⟨blocks, _, rfl⟩ := Option.map_eq_some_iff.mp acted
    simp [depth, pending]
  · rename_i settled
    cases flushed
    exact ⟨Option.not_isSome_iff_eq_none.mp settled, rfl⟩

theorem settled_of_act {event : RegionEvent} (acted : view.act event = some next) :
    next.closing? = view.closing? ∧ next.depth = view.depth := by
  obtain ⟨blocks, _, rfl⟩ := Option.map_eq_some_iff.mp acted
  exact ⟨rfl, rfl⟩

theorem run_cons_eq_some {statement : Statement} {statements : List Statement} :
    view.run (statement :: statements) = some next ↔
      ∃ middle, view.step statement = some middle ∧ middle.run statements = some next :=
  Option.bind_eq_some_iff

theorem run_singleton (statement : Statement) : view.run [statement] = view.step statement :=
  bind_pure (view.step statement)

theorem run_append_eq_some {first second : List Statement} :
    view.run (first ++ second) = some next ↔
      ∃ middle, view.run first = some middle ∧ middle.run second = some next := by
  rw [run, List.foldlM_append]
  exact Option.bind_eq_some_iff

theorem step_code {statement : Statement} (isCode : statement.isMarker = false) :
    view.step statement =
      view.flush.map fun view => { view with here := view.here + statement.size } := by
  cases statement <;> first | rfl | cases isCode

/-- A handler starts in the pending block if that has its name, and otherwise in the innermost one
of the others. -/
theorem prepare_eq_some (prepared : view.prepare name = some next) :
    next.closing? = none ∧ view.depth ≤ next.depth ∧
      (0 < view.depth → next.depth = view.depth → view.flush = some next) := by
  unfold prepare at prepared
  split at prepared
  · rename_i pending
    cases prepared
    have outer : view.depth = view.names.length - 1 := by simp [depth, pending]
    have inner : View.depth { view with closing? := none } = view.names.length := rfl
    exact ⟨rfl, by omega, fun positive same => by omega⟩
  · obtain ⟨flushed, flushRan, expected⟩ := Option.bind_eq_some_iff.mp prepared
    obtain ⟨rfl, _⟩ := eq_of_expect expected
    obtain ⟨settled, same⟩ := settled_of_flush flushRan
    exact ⟨settled, Nat.le_of_eq same.symm, fun _ _ => flushRan⟩

/-- The end of a handler takes its block off those that are open. -/
theorem handlerEnd_eq_some (ended : view.step (.handlerEnd name) = some next) :
    ∃ flushed, view.flush = some flushed ∧ next = { flushed with closing? := some name } ∧
      next.names.head? = some name ∧ next.depth + 1 = view.depth := by
  obtain ⟨middle, expected, rfl⟩ := Option.map_eq_some_iff.mp ended
  obtain ⟨flushed, flushRan, expectRan⟩ := Option.bind_eq_some_iff.mp expected
  obtain ⟨rfl, innermost⟩ := eq_of_expect expectRan
  obtain ⟨settled, same⟩ := settled_of_flush flushRan
  refine ⟨middle, flushRan, rfl, innermost, ?_⟩
  obtain ⟨outer, names⟩ := List.head?_eq_some_iff.mp innermost
  rw [← same]
  simp [depth, settled, names]

end View

/-- The statements in front of any place of a program emit as many instructions as they count, and
with these the code begins. -/
def EmitsInOrder (module? : Option Module) (statements : List Statement) (emitted : List Emitted) :
    Prop :=
  ∀ front back, statements = front ++ back →
    ∃ middle : Assembler, front.forM assemble { module? } = .ok () middle ∧
      middle.encoder.items.size = sizeOfStatements front ∧
      middle.encoder.items.toList <+: emitted.map Emitted.item

theorem forM_append {first second : List Statement} {before after : Assembler}
    (ran : (first ++ second).forM assemble before = .ok () after) :
    ∃ middle, first.forM assemble before = .ok () middle ∧
      second.forM assemble middle = .ok () after := by
  induction first generalizing before with
  | nil => exact ⟨before, rfl, ran⟩
  | cons statement statements ih =>
      obtain ⟨_, next, stepRan, ran⟩ := bind_eq_ok.mp ran
      obtain ⟨middle, firstRan, secondRan⟩ := ih ran
      exact ⟨middle, bind_eq_ok.mpr ⟨_, next, stepRan, firstRan⟩, secondRan⟩

theorem emitsInOrder_of_run {module? : Option Module} {statements : List Statement}
    {last : Assembler} {ended : Encoder} {outline : Encoder.Outline}
    (ran : statements.forM assemble { module? } = .ok () last)
    (performs : CarriesOut last.encoder ended) (outlined : Encoder.Follows ended outline) :
    EmitsInOrder module? statements outline.emitted := by
  rintro front back rfl
  obtain ⟨middle, frontRan, backRan⟩ := forM_append ran
  have front := follows_of_forM frontRan
  have back := (follows_of_forM backRan).performs.trans performs
  obtain ⟨before, beforeOutlined, beforeAscend, _⟩ :=
    front.performs.follows Encoder.follows_empty Encoder.Outline.ascend_empty
  obtain ⟨whole, wholeOutlined, _, begins, _⟩ := back.follows beforeOutlined beforeAscend
  refine ⟨middle, frontRan, ?_, ?_⟩
  · simpa [Assembler.view, Encoder.here] using View.here_of_run front.view
  · rw [beforeOutlined.items, ← outlined.items, wholeOutlined.items]
    exact begins.map _

/-- A program that assembles ends with no block open, and its code is what the encoder was asked
for. -/
theorem finished_of_assembleAll {module? : Option Module} {statements : List Statement}
    {code : EmittedCode} (ran : assembleAll module? statements = .ok code) :
    ∃ last ended : View, View.empty.run statements = some last ∧ last.flush = some ended ∧
      ended.names = [] ∧ ∃ outline instructions,
        Encoder.Finished true outline code instructions ∧ outline.here = ended.here ∧
        outline.blocks = ended.blocks ∧ EmitsInOrder module? statements outline.emitted := by
  unfold assembleAll at ran
  split at ran
  · rename_i emitted final bothRan
    cases ran
    obtain ⟨⟨⟩, last, statementsRan, finishRan⟩ := bind_eq_ok.mp bothRan
    obtain ⟨⟨⟩, ended, flushRan, finishRan⟩ := bind_eq_ok.mp finishRan
    rw [get_bind_run] at finishRan
    cases names : ended.blocks with
    | cons name names' =>
        rw [names] at finishRan
        obtain ⟨_, _, failed, _⟩ := bind_eq_ok.mp finishRan
        exact absurd failed throw_ne_ok
    | nil =>
        rw [names] at finishRan
        obtain ⟨encoder, encoderRan, rfl⟩ := encode_eq_ok.mp finishRan
        have follows := follows_of_forM statementsRan
        have flushes := follows_of_flushBlock flushRan
        have performs : CarriesOut {} ended.encoder := follows.performs.trans flushes.performs
        obtain ⟨outline, outlined, ascend, _, shortens⟩ :=
          performs.follows Encoder.follows_empty Encoder.Outline.ascend_empty
        obtain ⟨instructions, _, finished⟩ :=
          Encoder.finished_of_finish outlined ascend encoderRan
        rw [shortens] at finished
        exact ⟨last.view, ended.view, follows.view, flushes.view, names, outline, instructions,
          finished, outlined.here.symm, outlined.blocks.symm,
          emitsInOrder_of_run statementsRan flushes.performs outlined⟩
  · cases ran

end Assembler

end Cil
