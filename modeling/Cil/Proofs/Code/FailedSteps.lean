import Cil.Proofs.Code.Emission
import Cil.Proofs.Isolation.Replay

/-!
# What failed emission steps leave behind

An encoder is used on after a step has failed.  Some failures are found before anything has
changed.  The others come after bytes were appended, a block was taken from the open ones or
a height was set, and what was done until then stays.
-/

namespace Cil

open Stateful

namespace Encoder

/-! ## Operations -/

/-- An operation of an encoder. -/
inductive Operation
  | emit (mnemonic : String) (operand? : Option Operand)
  | emitDecoded (instruction : Instruction)
  | emitBranch (mnemonic label : String)
  | emitSwitch (labels : List String)
  | emitCall (mnemonic : String) (operand? : Option Operand) (arguments : Nat)
      (hasResult : Bool)
  | loadArgument (index : UInt16)
  | loadLocal (index : UInt16)
  | storeLocal (index : UInt16)
  | storeArgument (index : UInt16)
  | loadArgumentAddress (index : UInt16)
  | loadLocalAddress (index : UInt16)
  | constant (value : Int32)
  | defineLabel (label : String)
  | beginBlock
  | beginCatch (exceptionClass : Token)
  | beginFilter
  | beginFilteredHandler
  | beginFinally
  | beginFault
  | endBlock

def Operation.perform : Operation → EncoderM Unit
  | emit mnemonic operand? => emitNamed mnemonic operand?
  | emitDecoded instruction => Encoder.emitDecoded instruction
  | emitBranch mnemonic label => emitBranchNamed mnemonic label
  | emitSwitch labels => Encoder.emitSwitch labels
  | emitCall mnemonic operand? arguments hasResult =>
      emitCallNamed mnemonic operand? arguments hasResult
  | loadArgument index => emitLoadArgument index
  | loadLocal index => emitLoadLocal index
  | storeLocal index => emitStoreLocal index
  | storeArgument index => emitStoreArgument index
  | loadArgumentAddress index => emitLoadArgumentAddress index
  | loadLocalAddress index => emitLoadLocalAddress index
  | constant value => emitConstant value
  | defineLabel label => Encoder.defineLabel label
  | beginBlock => Encoder.beginBlock
  | beginCatch exceptionClass => Encoder.beginCatch exceptionClass
  | beginFilter => Encoder.beginFilter
  | beginFilteredHandler => Encoder.beginFilteredHandler
  | beginFinally => Encoder.beginFinally
  | beginFault => Encoder.beginFault
  | endBlock => Encoder.endBlock

/-- The failures that are found before an operation changes the encoder. -/
inductive FoundFirst : Error → Prop
  | mnemonic (name : String) : FoundFirst (.invalidMnemonic name)
  | notABranch (mnemonic : String) : FoundFirst (.invalidBranch (.notABranch mnemonic))
  | emptySwitch : FoundFirst (.invalidBranch .emptySwitch)
  | duplicateLabel (label : String) : FoundFirst (.duplicateLabel label)
  | labelDepth (label : String) (expected depth : Int) :
      FoundFirst (.malformed (.labelDepth label expected depth))
  | handlerOutsideBlock : FoundFirst (.malformed .handlerOutsideBlock)
  | filteredHandlerWithoutFilter : FoundFirst (.malformed .filteredHandlerWithoutFilter)
  | noBlockToEnd : FoundFirst (.malformed .noBlockToEnd)

/-! ## Instructions -/

/-- The heights that underflow a reachable stack are kept. -/
theorem trackStack_eq_error {pops pushes : Nat} {context : Malformation → Malformation}
    {before after : Encoder} {error : Error}
    (failed : trackStack pops pushes context before = .error error after) :
    before.unreachable = false ∧ ∃ depth : Int16, depth < 0 ∧ after = { before with depth } ∧
      error = .malformed (context (.stackUnderflow depth.toInt pops pushes)) := by
  unfold trackStack at failed
  rw [get_bind_run] at failed
  split at failed
  · rename_i below
    split at failed
    · cases failed
    · rename_i reachable
      obtain unset | ⟨_, _, changed, thrown⟩ := bind_eq_error.mp failed
      · cases unset
      obtain ⟨rfl, rfl⟩ := throw_eq_error.mp thrown
      refine ⟨by simpa using reachable, _, below, (set_eq_ok.mp changed).symm, rfl⟩
  · cases failed

/-- A step of which every failure comes after a number of items was appended. -/
def FailsBehind {α : Type} (count : Nat) (action : EncoderM α) : Prop :=
  ∀ before error after, action before = .error error after →
    after.items.size = before.items.size + count ∧ ¬ FoundFirst error

namespace FailsBehind

variable {α β : Type} {count : Nat}

theorem never {action : EncoderM α} (succeeds : ∀ before error after,
    action before ≠ .error error after) : FailsBehind count action :=
  fun before error after failed => absurd failed (succeeds before error after)

/-- Steps that only follow the height of the stack do not append to what stands. -/
theorem bind {first : EncoderM α} {next : α → EncoderM β} (quiet : AppendsNothing first)
    (firstFails : FailsBehind 0 first) (nextFails : ∀ value, FailsBehind 0 (next value)) :
    FailsBehind 0 (first >>= next) := by
  intro before error after failed
  obtain failed | ⟨value, middle, ran, failed⟩ := bind_eq_error.mp failed
  · exact firstFails before error after failed
  · obtain ⟨size, later⟩ := nextFails value middle error after failed
    have items := (quiet before value middle ran).items
    rw [List.map_nil, List.append_nil] at items
    exact ⟨by simpa [← Array.length_toList, items] using size, later⟩

theorem push {item : Item} {next : Unit → EncoderM α}
    (nextFails : ∀ value, FailsBehind 0 (next value)) :
    FailsBehind 1 (Encoder.push item >>= next) := by
  intro before error after failed
  obtain failed | ⟨_, middle, ran, failed⟩ := bind_eq_error.mp failed
  · cases failed
  · obtain ⟨size, later⟩ := nextFails _ middle error after failed
    rw [push_eq_ok ran] at size
    exact ⟨by simpa using size, later⟩

theorem throw {error : Error} (later : ¬ FoundFirst error) :
    FailsBehind 0 (throw error : EncoderM α) := by
  intro before other after failed
  obtain ⟨rfl, rfl⟩ := throw_eq_error.mp failed
  exact ⟨rfl, later⟩

theorem throw_bind {error : Error} (later : ¬ FoundFirst error) {next : α → EncoderM β} :
    FailsBehind 0 (MonadExcept.throw error >>= next) :=
  (throw later : FailsBehind 0 (MonadExcept.throw error : EncoderM β))

theorem pure (value : α) : FailsBehind count (Pure.pure value : EncoderM α) :=
  never fun _ _ _ => nofun

theorem markUnreachable : FailsBehind count markUnreachable :=
  never fun _ _ _ => nofun

theorem trackStack (pops pushes : Nat) {context : Malformation → Malformation}
    (named : ∀ cause, ¬ FoundFirst (.malformed (context cause))) :
    FailsBehind 0 (trackStack pops pushes context) := by
  intro before error after failed
  obtain ⟨_, depth, _, rfl, rfl⟩ := trackStack_eq_error failed
  exact ⟨rfl, named _⟩

theorem recordBranch (label : String) : FailsBehind 0 (recordBranch label) := by
  intro before error after failed
  unfold Encoder.recordBranch at failed
  rw [get_bind_run] at failed
  split at failed
  · cases known : before.labelDepth? label with
    | none =>
        rw [known] at failed
        cases failed
    | some expected =>
        rw [known] at failed
        dsimp only at failed
        split at failed
        · obtain ⟨rfl, rfl⟩ := throw_eq_error.mp failed
          exact ⟨rfl, nofun⟩
        · cases failed
  · cases failed

theorem forM {items : List α} {step : α → EncoderM PUnit}
    (quiet : ∀ item, AppendsNothing (step item)) (fails : ∀ item, FailsBehind 0 (step item)) :
    FailsBehind 0 (items.forM step) := by
  induction items with
  | nil => exact pure _
  | cons item items ih => exact (fails item).bind (quiet item) fun _ => ih

theorem ite {condition : Prop} [Decidable condition] {first second : EncoderM α}
    (firstFails : FailsBehind count first) (secondFails : FailsBehind count second) :
    FailsBehind count (if condition then first else second) := by
  split
  · exact firstFails
  · exact secondFails

/-- The bytes of an opcode stay behind where the operand is refused. -/
theorem pushInstruction (opcode : Opcode) (operand? : Option Operand)
    {next : Unit → EncoderM α} (nextFails : ∀ value, FailsBehind 0 (next value)) :
    FailsBehind 1 (pushInstruction opcode operand? >>= next) := by
  have late : ErrsOnly (¬ FoundFirst ·) (operandBytes opcode.operand operand?) := by
    unfold operandBytes
    split <;> first
      | exact .ok _
      | exact .error nofun
      | split <;> first | exact .ok _ | exact .error nofun
  unfold Encoder.pushInstruction
  cases encoded : operandBytes opcode.operand operand? with
  | ok bytes => exact push nextFails
  | error error =>
      dsimp only
      rw [bind_assoc]
      exact push fun _ => throw_bind (late error encoded)

theorem emit (opcode : Opcode) (operand? : Option Operand) :
    FailsBehind 1 (emit opcode operand?) := by
  refine pushInstruction opcode operand? fun _ =>
    (trackStack _ _ fun _ => by nofun).bind (trackStack_appends _ _ _) fun _ => ?_
  cases opcode.flow <;> first | exact markUnreachable | exact pure _

theorem emitDecoded (instruction : Instruction) : FailsBehind 1 (emitDecoded instruction) :=
  emit _ _

theorem emitCall (opcode : Opcode) (operand? : Option Operand) (arguments : Nat)
    (hasResult : Bool) : FailsBehind 1 (emitCall opcode operand? arguments hasResult) :=
  pushInstruction opcode operand? fun _ => trackStack _ _ fun _ => by nofun

theorem emitIndexed (short long : Opcode) (index : UInt16) :
    FailsBehind 1 (emitIndexed short long index) :=
  ite (emit _ _) (emit _ _)

theorem emitLoadArgument (index : UInt16) : FailsBehind 1 (emitLoadArgument index) := by
  unfold Encoder.emitLoadArgument
  split <;> first | exact emit _ _ | exact emitIndexed _ _ _

theorem emitLoadLocal (index : UInt16) : FailsBehind 1 (emitLoadLocal index) := by
  unfold Encoder.emitLoadLocal
  split <;> first | exact emit _ _ | exact emitIndexed _ _ _

theorem emitStoreLocal (index : UInt16) : FailsBehind 1 (emitStoreLocal index) := by
  unfold Encoder.emitStoreLocal
  split <;> first | exact emit _ _ | exact emitIndexed _ _ _

theorem emitConstant (value : Int32) : FailsBehind 1 (emitConstant value) := by
  unfold Encoder.emitConstant
  split <;> first | exact emit _ _ | exact ite (emit _ _) (emit _ _)

end FailsBehind

/-! ## Failures and changes -/

/-- A step whose failures leave the encoder as it was if and only if they are found first. -/
def KeepsOnFirst (action : EncoderM Unit) : Prop :=
  ∀ before error after, action before = .error error after →
    (after = before ↔ FoundFirst error)

namespace KeepsOnFirst

theorem never {action : EncoderM Unit} (succeeds : ∀ before error after,
    action before ≠ .error error after) : KeepsOnFirst action :=
  fun before error after failed => absurd failed (succeeds before error after)

/-- What was appended shows that the encoder has changed. -/
theorem of_failsBehind {action : EncoderM Unit} (fails : FailsBehind 1 action) :
    KeepsOnFirst action := by
  intro before error after failed
  obtain ⟨size, late⟩ := fails before error after failed
  refine iff_of_false (fun same => ?_) late
  rw [same] at size
  omega

theorem throw {error : Error} (first : FoundFirst error) {next : Unit → EncoderM Unit} :
    KeepsOnFirst (throw error >>= next) := by
  intro before other after failed
  obtain failed | ⟨_, _, thrown, _⟩ := bind_eq_error.mp failed
  · obtain ⟨rfl, rfl⟩ := throw_eq_error.mp failed
    exact iff_of_true rfl first
  · exact absurd thrown throw_ne_ok

theorem ite {condition : Prop} [Decidable condition] {first second : EncoderM Unit}
    (firstKeeps : KeepsOnFirst first) (secondKeeps : KeepsOnFirst second) :
    KeepsOnFirst (if condition then first else second) := by
  split
  · exact firstKeeps
  · exact secondKeeps

theorem opcodeNamed (mnemonic : String) {next : Opcode → EncoderM Unit}
    (nextKeeps : ∀ opcode, KeepsOnFirst (next opcode)) :
    KeepsOnFirst (opcodeNamed mnemonic >>= next) := by
  unfold Encoder.opcodeNamed
  cases Opcode.ofMnemonic? mnemonic with
  | some opcode => exact nextKeeps opcode
  | none =>
      intro before error after failed
      obtain failed | ⟨_, _, thrown, _⟩ := bind_eq_error.mp failed
      · obtain ⟨rfl, rfl⟩ := throw_eq_error.mp failed
        exact iff_of_true rfl (.mnemonic mnemonic)
      · exact absurd thrown throw_ne_ok

theorem emitBranch (opcode : Opcode) (label : String) :
    KeepsOnFirst (emitBranch opcode label) := by
  unfold Encoder.emitBranch
  dsimp only
  apply ite (throw (.notABranch opcode.mnemonic))
  apply of_failsBehind
  refine FailsBehind.push fun _ =>
    (FailsBehind.trackStack _ _ fun _ => by nofun).bind (trackStack_appends _ _ _) fun _ => ?_
  have recorded {ending : EncoderM Unit} (ends : FailsBehind 0 ending) :
      FailsBehind 0 (recordBranch label >>= fun _ => ending) :=
    (FailsBehind.recordBranch label).bind (recordBranch_appends label) fun _ => ends
  split
  · refine FailsBehind.bind ?_ (.never ?_) fun _ => recorded ?_
    · exact .modify fun _ => ⟨by simp, by simp, rfl, rfl, rfl, rfl⟩
    · intro before error after failed
      cases failed
    · cases opcode.flow <;> first | exact .markUnreachable | exact .pure _
  · apply recorded
    cases opcode.flow <;> first | exact .markUnreachable | exact .pure _

theorem emitSwitch (labels : List String) : KeepsOnFirst (emitSwitch labels) := by
  unfold Encoder.emitSwitch
  dsimp only
  apply ite (throw .emptySwitch)
  apply of_failsBehind
  apply FailsBehind.ite
  · exact FailsBehind.push fun _ => .throw_bind (by nofun)
  · exact FailsBehind.push fun _ =>
      (FailsBehind.trackStack 1 0 fun _ => by nofun).bind (trackStack_appends _ _ _) fun _ =>
        .forM recordBranch_appends FailsBehind.recordBranch

/-! ### Blocks -/

theorem popBlock_eq_error {failure : Malformation} {before after : Encoder} {error : Error}
    (failed : popBlock failure before = .error error after) :
    error = .malformed failure ∧ after = before := by
  unfold Encoder.popBlock at failed
  rw [get_bind_run] at failed
  cases opened : before.openBlocks with
  | nil =>
      rw [opened] at failed
      obtain ⟨rfl, rfl⟩ := throw_eq_error.mp failed
      exact ⟨rfl, rfl⟩
  | cons block outer =>
      rw [opened] at failed
      cases failed

/-- A filter without a handler is refused by the block that it stands in. -/
theorem closeHandler_eq_error {block : OpenBlock} {before after : Encoder} {error : Error}
    (failed : closeHandler block before = .error error after) :
    ¬ FoundFirst error ∧ after = before := by
  unfold Encoder.closeHandler at failed
  cases current : block.current? with
  | none =>
      rw [current] at failed
      cases failed
  | some pending =>
      rw [current] at failed
      dsimp only at failed
      rw [get_bind_run] at failed
      cases started : pending.handlerStart? with
      | none =>
          rw [started] at failed
          obtain ⟨rfl, rfl⟩ := throw_eq_error.mp failed
          exact ⟨nofun, rfl⟩
      | some handlerStart =>
          rw [started] at failed
          cases failed

/-- A block that was taken off the open ones is gone when the rest fails. -/
theorem popBlock {failure : Malformation} (first : FoundFirst (.malformed failure))
    {next : OpenBlock → EncoderM Unit} (nextFails : ∀ block before error after,
      next block before = .error error after → ¬ FoundFirst error ∧ after = before) :
    KeepsOnFirst (Encoder.popBlock failure >>= next) := by
  intro before error after failed
  obtain failed | ⟨block, popped, taken, failed⟩ := bind_eq_error.mp failed
  · obtain ⟨rfl, rfl⟩ := popBlock_eq_error failed
    exact iff_of_true rfl first
  · obtain ⟨late, rfl⟩ := nextFails block popped error after failed
    refine iff_of_false (fun same => ?_) late
    have opened := congrArg List.length (popBlock_eq_ok taken).1
    rw [same, List.length_cons] at opened
    omega

theorem startHandler (flags : ClauseFlags) (class? : Option Token) (isFilter : Bool)
    (depth : Int16) :
    KeepsOnFirst (do Encoder.startHandler flags class? isFilter; enterHandler depth) := by
  unfold Encoder.startHandler
  rw [bind_assoc]
  refine popBlock .handlerOutsideBlock fun block before error after failed => ?_
  rw [bind_assoc, get_bind_run, bind_assoc] at failed
  obtain failed | ⟨_, _, _, failed⟩ := bind_eq_error.mp failed
  · exact closeHandler_eq_error failed
  · cases failed

theorem beginFilteredHandler : KeepsOnFirst beginFilteredHandler := by
  intro before error after failed
  have refused (thrown : (MonadExcept.throw (.malformed .filteredHandlerWithoutFilter) :
      EncoderM Unit) before = .error error after) : after = before ↔ FoundFirst error := by
    obtain ⟨rfl, rfl⟩ := throw_eq_error.mp thrown
    exact iff_of_true rfl .filteredHandlerWithoutFilter
  unfold Encoder.beginFilteredHandler at failed
  rw [get_bind_run] at failed
  rcases opened : before.openBlocks with _ | ⟨⟨tryStart, tryEnd?, _ | pending⟩, outer⟩
  · rw [opened] at failed
    exact refused failed
  · rw [opened] at failed
    exact refused failed
  · rw [opened] at failed
    dsimp only at failed
    split at failed
    · cases failed
    · exact refused failed

theorem endBlock : KeepsOnFirst endBlock := by
  refine popBlock .noBlockToEnd fun block before error after failed => ?_
  dsimp only at failed
  split at failed
  · rw [get_bind_run] at failed
    obtain ⟨rfl, rfl⟩ := throw_eq_error.mp failed
    exact ⟨nofun, rfl⟩
  · exact closeHandler_eq_error failed

end KeepsOnFirst

/-! ### Labels -/

/-- What is done with a label once the height at it is settled. -/
def markLabel (label : String) (size : Nat) : EncoderM Unit := do
  modify fun encoder => { encoder with unreachable := false }
  if wordBound ≤ size then throw (.malformed .labelDefinedTooFar)
  modify fun encoder => { encoder with labels := encoder.labels.push (label, encoder.here) }

theorem markLabel_eq_error {label : String} {size : Nat} {before after : Encoder}
    {error : Error} (failed : markLabel label size before = .error error after) :
    error = .malformed .labelDefinedTooFar ∧ after = { before with unreachable := false } := by
  obtain failed | ⟨_, _, reached, failed⟩ := bind_eq_error.mp failed
  · cases failed
  obtain rfl := modify_eq_ok.mp reached
  split at failed
  · cases failed
    exact ⟨rfl, rfl⟩
  · cases failed

/-- Code that was out of reach and is in reach now is not as it was. -/
theorem eq_iff_of_revived {before after : Encoder} {recorded : Prop}
    (unreachable : before.unreachable = true) (reached : after.unreachable = false) :
    after = before ↔ before.unreachable = false ∧ recorded := by
  refine iff_of_false (fun same => ?_) (fun kept => ?_)
  · rw [same, unreachable] at reached
    cases reached
  · rw [unreachable] at kept
    cases kept.1

/-- A label too far behind the start is refused after the stack was given its height there. -/
theorem defineLabel_eq_error {label : String} {before after : Encoder} {error : Error}
    (failed : defineLabel label before = .error error after) :
    (FoundFirst error ∧ after = before) ∨ (error = .malformed .labelDefinedTooFar ∧
      (after = before ↔
        before.unreachable = false ∧ (before.labelDepth? label).isSome)) := by
  unfold defineLabel at failed
  rw [get_bind_run] at failed
  dsimp only at failed
  split at failed
  · cases failed
    exact .inl ⟨.duplicateLabel label, rfl⟩
  cases recorded : before.labelDepth? label with
  | some expected =>
      rw [recorded] at failed
      dsimp only at failed
      split at failed
      · rename_i unreachable
        obtain failed | ⟨_, _, changed, failed⟩ := bind_eq_error.mp failed
        · cases failed
        obtain rfl := modify_eq_ok.mp changed
        obtain ⟨rfl, rfl⟩ := markLabel_eq_error failed
        exact .inr ⟨rfl, eq_iff_of_revived unreachable rfl⟩
      · rename_i reachable
        split at failed
        · cases failed
          exact .inl ⟨.labelDepth label _ _, rfl⟩
        · have reached : before.unreachable = false := by simpa using reachable
          obtain ⟨rfl, rfl⟩ := markLabel_eq_error failed
          refine .inr ⟨rfl, iff_of_true ?_ ⟨reached, rfl⟩⟩
          rw [← reached]
  | none =>
      rw [recorded] at failed
      dsimp only at failed
      split at failed
      · rename_i unreachable
        obtain failed | ⟨_, _, changed, failed⟩ := bind_eq_error.mp failed
        · cases failed
        obtain rfl := modify_eq_ok.mp changed
        obtain ⟨rfl, rfl⟩ := markLabel_eq_error failed
        exact .inr ⟨rfl, eq_iff_of_revived unreachable rfl⟩
      · obtain failed | ⟨_, _, changed, failed⟩ := bind_eq_error.mp failed
        · cases failed
        obtain rfl := modify_eq_ok.mp changed
        obtain ⟨rfl, rfl⟩ := markLabel_eq_error failed
        -- The height at the label was written down before the label was refused.
        refine .inr ⟨rfl, iff_of_false (fun same => ?_) nofun⟩
        have heights := congrArg (fun encoder => encoder.labelDepths.length) same
        simp at heights

/-- A failed operation leaves the encoder as it was if and only if its failure was found before
it changed anything.  All other failures stay visible, save for a label that is too far behind
the start and whose height is known already. -/
theorem Operation.leaves_intact_iff {operation : Operation} {before after : Encoder}
    {error : Error} (failed : operation.perform before = .error error after) :
    after = before ↔ FoundFirst error ∨ (error = .malformed .labelDefinedTooFar ∧
      before.unreachable = false ∧
      ∃ label, operation = .defineLabel label ∧ (before.labelDepth? label).isSome) := by
  have settled {action : EncoderM Unit} (keeps : KeepsOnFirst action)
      (ran : action before = .error error after)
      (other : ∀ label, operation ≠ .defineLabel label) :
      after = before ↔ FoundFirst error ∨ (error = .malformed .labelDefinedTooFar ∧
        before.unreachable = false ∧
        ∃ label, operation = .defineLabel label ∧ (before.labelDepth? label).isSome) := by
    rw [keeps before error after ran]
    exact ⟨.inl, fun found => found.elim id fun ⟨_, _, label, same, _⟩ =>
      absurd same (other label)⟩
  cases operation with
  | emit mnemonic operand? =>
      exact settled (.opcodeNamed mnemonic fun opcode => .of_failsBehind (.emit opcode operand?))
        failed nofun
  | emitDecoded instruction => exact settled (.of_failsBehind (.emitDecoded _)) failed nofun
  | emitBranch mnemonic label =>
      exact settled (.opcodeNamed mnemonic fun opcode => .emitBranch opcode label) failed nofun
  | emitSwitch labels => exact settled (.emitSwitch labels) failed nofun
  | emitCall mnemonic operand? arguments hasResult =>
      exact settled (.opcodeNamed mnemonic fun opcode => .of_failsBehind (.emitCall opcode _ _ _))
        failed nofun
  | loadArgument index => exact settled (.of_failsBehind (.emitLoadArgument _)) failed nofun
  | loadLocal index => exact settled (.of_failsBehind (.emitLoadLocal _)) failed nofun
  | storeLocal index => exact settled (.of_failsBehind (.emitStoreLocal _)) failed nofun
  | storeArgument index => exact settled (.of_failsBehind (.emitIndexed _ _ _)) failed nofun
  | loadArgumentAddress index => exact settled (.of_failsBehind (.emitIndexed _ _ _)) failed nofun
  | loadLocalAddress index => exact settled (.of_failsBehind (.emitIndexed _ _ _)) failed nofun
  | constant value => exact settled (.of_failsBehind (.emitConstant _)) failed nofun
  | defineLabel label =>
      obtain ⟨first, rfl⟩ | ⟨rfl, kept⟩ := defineLabel_eq_error failed
      · exact iff_of_true rfl (.inl first)
      · rw [kept]
        constructor
        · rintro ⟨reached, recorded⟩
          exact .inr ⟨rfl, reached, label, rfl, recorded⟩
        · rintro (first | ⟨_, reached, _, same, recorded⟩)
          · cases first
          · cases same
            exact ⟨reached, recorded⟩
  | beginBlock => cases failed
  | beginCatch exceptionClass => exact settled (.startHandler _ _ _ _) failed nofun
  | beginFilter => exact settled (.startHandler _ _ _ _) failed nofun
  | beginFilteredHandler => exact settled .beginFilteredHandler failed nofun
  | beginFinally => exact settled (.startHandler _ _ _ _) failed nofun
  | beginFault => exact settled (.startHandler _ _ _ _) failed nofun
  | endBlock => exact settled .endBlock failed nofun

/-! ### A refused operand -/

namespace Refused

/-- A load of an argument whose index has the wrong width. -/
def operation : Operation := .emit "ldarg.s" (some (.immediate (.uint32 1)))

/-- The encoder with the code of the refused instruction. -/
def left : Encoder := { items := #[.bytes [0x0E]], size := 1 }

theorem performed : operation.perform {} = .error (.wrongOperandType "UInt8") left := by
  have known : Opcode.ofMnemonic? "ldarg.s" = some .ldargS := by decide +kernel
  simp only [operation, Operation.perform, emitNamed, opcodeNamed, known]
  rfl

theorem not_intact :
    operation.perform {} = .error (.wrongOperandType "UInt8") left ∧
      (left = {} ↔ FoundFirst (.wrongOperandType "UInt8") ∨
        (Error.wrongOperandType "UInt8" = .malformed .labelDefinedTooFar ∧
          ({} : Encoder).unreachable = false ∧
          ∃ label, operation = .defineLabel label ∧
            (({} : Encoder).labelDepth? label).isSome)) :=
  ⟨performed, Operation.leaves_intact_iff performed⟩

/-- The code that a return makes of what stands in an encoder. -/
def codeOf (encoder : Encoder) : Option (List UInt8) :=
  match (do emit .ret; finish : EncoderM EmittedCode) encoder with
  | .ok emitted _ => some emitted.code
  | .error _ _ => none

/-- The code that follows a refused operand is not the code without the failed step. -/
theorem leaves_opcode :
    ∃ after, operation.perform {} = .error (.wrongOperandType "UInt8") after ∧ after ≠ {} ∧
      codeOf after = some [0x0E, 0x2A] ∧ codeOf {} = some [0x2A] := by
  refine ⟨left, performed, fun same => ?_, by decide +kernel, by decide +kernel⟩
  have items := congrArg (fun encoder => encoder.items.size) same
  cases items

end Refused

end Encoder

end Cil
