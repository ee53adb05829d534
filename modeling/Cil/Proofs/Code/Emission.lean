import Cil.Code.Layout
import Cil.Proofs.Code.Reading

/-!
# What emission steps append

A successful step of an encoder appends whole instructions: finished ones, branches and
switches whose labels are still open.  Apart from that it only follows the height of the
stack, so labels, blocks and clauses stay as they were.
-/

namespace Cil

open Stateful
open MonadExcept (ofExcept)

/-- An instruction as it is emitted. -/
inductive Emitted
  | plain (opcode : Opcode) (operand : Operand)
  | branch (opcode : Opcode) (label : String)
  | switch (labels : List String)

namespace Emitted

def item : Emitted → Item
  | plain opcode operand => .bytes (Instruction.encode opcode operand)
  | branch opcode label => .branch opcode label
  | switch labels => .switch labels

/-- Whether the item can be laid out as the instruction: operands have the form that the
opcode asks for. -/
def Proper : Emitted → Prop
  | plain opcode operand => operand.Fits opcode.operand
  | branch opcode _ => opcode.flow.isSingleBranch
  | switch labels => labels.length < 0x100000000

end Emitted

namespace Encoder

/-- What a successful emission step does to an encoder. -/
structure Appends (before after : Encoder) (emitted : List Emitted) : Prop where
  items : after.items.toList = before.items.toList ++ emitted.map Emitted.item
  proper : ∀ instruction ∈ emitted, instruction.Proper
  labels : after.labels = before.labels
  openBlocks : after.openBlocks = before.openBlocks
  clauses : after.clauses = before.clauses
  shortens : after.shortens = before.shortens

theorem Appends.refl (encoder : Encoder) : Appends encoder encoder [] :=
  ⟨by simp, by simp, rfl, rfl, rfl, rfl⟩

theorem Appends.trans {before middle after : Encoder} {first second : List Emitted}
    (firstAppends : Appends before middle first) (secondAppends : Appends middle after second) :
    Appends before after (first ++ second) where
  items := by
    rw [secondAppends.items, firstAppends.items, List.map_append, List.append_assoc]
  proper instruction member :=
    (List.mem_append.mp member).elim (firstAppends.proper instruction)
      (secondAppends.proper instruction)
  labels := secondAppends.labels.trans firstAppends.labels
  openBlocks := secondAppends.openBlocks.trans firstAppends.openBlocks
  clauses := secondAppends.clauses.trans firstAppends.clauses
  shortens := secondAppends.shortens.trans firstAppends.shortens

/-- A step that only follows the height of the stack. -/
def AppendsNothing {α : Type} (action : EncoderM α) : Prop :=
  ∀ before value after, action before = .ok value after → Appends before after []

namespace AppendsNothing

variable {α β : Type}

theorem pure (value : α) : AppendsNothing (Pure.pure value) := by
  intro before result after ran
  cases ran
  exact .refl before

theorem bind {first : EncoderM α} {next : α → EncoderM β} (firstAppends : AppendsNothing first)
    (nextAppends : ∀ value, AppendsNothing (next value)) : AppendsNothing (first >>= next) := by
  intro before result after ran
  obtain ⟨value, middle, firstRan, nextRan⟩ := bind_eq_ok.mp ran
  exact (firstAppends before value middle firstRan).trans
    (nextAppends value middle result after nextRan)

/-- What is read of the encoder may be used in what is stored. -/
theorem get_bind {next : Encoder → EncoderM β}
    (nextAppends : ∀ before result after, next before before = .ok result after →
      Appends before after []) : AppendsNothing (MonadState.get >>= next) := by
  intro before result after ran
  obtain ⟨_, _, read, nextRan⟩ := bind_eq_ok.mp ran
  obtain ⟨rfl, rfl⟩ := get_eq_ok.mp read
  exact nextAppends _ _ _ nextRan

theorem modify {change : Encoder → Encoder}
    (kept : ∀ encoder, Appends encoder (change encoder) []) :
    AppendsNothing (modify change : EncoderM PUnit) := by
  intro before result after ran
  rw [← modify_eq_ok.mp ran]
  exact kept before

theorem forM {step : α → EncoderM PUnit} (stepAppends : ∀ item, AppendsNothing (step item))
    (items : List α) : AppendsNothing (items.forM step) := by
  induction items with
  | nil => exact pure _
  | cons item items ih => exact (stepAppends item).bind fun _ => ih

end AppendsNothing

theorem setDepth_appends (depth : Int16) : AppendsNothing (setDepth depth) :=
  AppendsNothing.modify fun _ => ⟨by simp, by simp, rfl, rfl, rfl, rfl⟩

theorem markUnreachable_appends : AppendsNothing markUnreachable :=
  AppendsNothing.modify fun _ => ⟨by simp, by simp, rfl, rfl, rfl, rfl⟩

theorem trackStack_appends (pops pushes : Nat) (context : Malformation → Malformation) :
    AppendsNothing (trackStack pops pushes context) := by
  refine AppendsNothing.get_bind fun before result after ran => ?_
  split at ran
  · split at ran
    · exact setDepth_appends _ _ _ _ ran
    · obtain ⟨_, _, _, failed⟩ := bind_eq_ok.mp ran
      exact absurd failed throw_ne_ok
  · exact setDepth_appends _ _ _ _ ran

theorem recordBranch_appends (label : String) : AppendsNothing (recordBranch label) := by
  refine AppendsNothing.get_bind fun before result after ran => ?_
  split at ran
  · cases known : before.labelDepth? label with
    | some expected =>
        rw [known] at ran
        dsimp only at ran
        split at ran
        · exact absurd ran throw_ne_ok
        · exact AppendsNothing.pure _ _ _ _ ran
    | none =>
        rw [known] at ran
        rw [← set_eq_ok.mp ran]
        exact ⟨by simp, by simp, rfl, rfl, rfl, rfl⟩
  · exact AppendsNothing.pure _ _ _ _ ran

theorem push_eq_ok {item : Item} {before after : Encoder} {result : Unit}
    (ran : push item before = .ok result after) :
    after = { before with items := before.items.push item, size := before.size + item.size } :=
  (modify_eq_ok.mp ran).symm

theorem appends_of_push (emitted : Emitted) {before after : Encoder} {result : Unit}
    (proper : emitted.Proper) (ran : push emitted.item before = .ok result after) :
    Appends before after [emitted] := by
  obtain rfl := push_eq_ok ran
  exact ⟨by simp, by simpa using proper, rfl, rfl, rfl, rfl⟩

/-! ## Instructions -/

/-- The operand that is read where an operand was written: the index of a local or of an
argument reads as a number. -/
def readBack (kind : OperandKind) (operand? : Option Operand) : Operand :=
  match kind, operand? with
  | .uint8, some (.localIndex index) | .uint8, some (.argumentIndex index) =>
      .immediate (.uint8 index.toUInt8)
  | .uint16, some (.localIndex index) | .uint16, some (.argumentIndex index) =>
      .immediate (.uint16 index)
  | _, operand? => operand?.getD .none

theorem readBack_of_fits {kind : OperandKind} {operand? : Option Operand}
    (fits : (operand?.getD .none).Fits kind) : readBack kind operand? = operand?.getD .none := by
  cases operand? with
  | none => cases fits; rfl
  | some operand => cases fits <;> rfl

/-- An operand that can be written has the form of the opcode. -/
theorem operandBytes_eq_ok {kind : OperandKind} {operand? : Option Operand} {bytes : List UInt8}
    (encoded : operandBytes kind operand? = .ok bytes) :
    (readBack kind operand?).Fits kind ∧ bytes = (readBack kind operand?).bytes := by
  have byte (value : UInt8) : [value] = Number.toBytes 1 value.toNat := by
    simp [Number.toBytes, Nat.mod_eq_of_lt value.toNat_lt]
  unfold operandBytes at encoded
  split at encoded
  case h_1 => cases encoded; exact ⟨.none, rfl⟩
  case h_2 => cases encoded
  case h_3 value => cases encoded; exact ⟨.int8 value, byte _⟩
  case h_4 value => cases encoded; exact ⟨.uint8 value, byte _⟩
  case h_5 index =>
    split at encoded
    · cases encoded; exact ⟨.uint8 _, byte _⟩
    · cases encoded
  case h_6 index =>
    split at encoded
    · cases encoded; exact ⟨.uint8 _, byte _⟩
    · cases encoded
  case h_7 value => cases encoded; exact ⟨.int16 value, rfl⟩
  case h_8 value => cases encoded; exact ⟨.uint16 value, rfl⟩
  case h_9 value => cases encoded; exact ⟨.uint16 value, rfl⟩
  case h_10 value => cases encoded; exact ⟨.uint16 value, rfl⟩
  case h_11 value => cases encoded; exact ⟨.int32 value, rfl⟩
  case h_12 value => cases encoded; exact ⟨.uint32 value, rfl⟩
  case h_13 value => cases encoded; exact ⟨.int64 value, rfl⟩
  case h_14 value => cases encoded; exact ⟨.uint64 value, rfl⟩
  case h_15 bits => cases encoded; exact ⟨.float32 bits, rfl⟩
  case h_16 bits => cases encoded; exact ⟨.float64 bits, rfl⟩
  case h_17 token => cases encoded; exact ⟨.token token, rfl⟩
  case h_18 displacements =>
    split at encoded
    · rename_i small
      cases encoded
      exact ⟨.switch displacements small, rfl⟩
    · cases encoded
  case h_19 => cases encoded

variable {before after : Encoder} {result : Unit}

theorem appends_of_pushInstruction {opcode : Opcode} {operand? : Option Operand}
    (ran : pushInstruction opcode operand? before = .ok result after) :
    Appends before after [.plain opcode (readBack opcode.operand operand?)] := by
  unfold pushInstruction at ran
  cases encoded : operandBytes opcode.operand operand? with
  | error error =>
      rw [encoded] at ran
      obtain ⟨_, _, _, failed⟩ := bind_eq_ok.mp ran
      exact absurd failed throw_ne_ok
  | ok bytes =>
      obtain ⟨fits, rfl⟩ := operandBytes_eq_ok encoded
      rw [encoded] at ran
      exact appends_of_push (.plain opcode (readBack opcode.operand operand?)) fits ran

theorem appends_of_emit {opcode : Opcode} {operand? : Option Operand}
    (ran : emit opcode operand? before = .ok result after) :
    Appends before after [.plain opcode (readBack opcode.operand operand?)] := by
  obtain ⟨_, pushed, pushRan, ran⟩ := bind_eq_ok.mp ran
  obtain ⟨_, tracked, trackRan, ran⟩ := bind_eq_ok.mp ran
  have ended : Appends tracked after [] := by
    cases flow : opcode.flow <;> rw [flow] at ran
    case «return» => exact markUnreachable_appends _ _ _ ran
    case throw => exact markUnreachable_appends _ _ _ ran
    case endFinally => exact markUnreachable_appends _ _ _ ran
    all_goals exact AppendsNothing.pure _ _ _ _ ran
  exact (appends_of_pushInstruction pushRan).trans
    ((trackStack_appends _ _ _ _ _ _ trackRan).trans ended)

theorem appends_of_emitCall {opcode : Opcode} {operand? : Option Operand} {arguments : Nat}
    {hasResult : Bool}
    (ran : emitCall opcode operand? arguments hasResult before = .ok result after) :
    Appends before after [.plain opcode (readBack opcode.operand operand?)] := by
  obtain ⟨_, pushed, pushRan, ran⟩ := bind_eq_ok.mp ran
  exact (appends_of_pushInstruction pushRan).trans (trackStack_appends _ _ _ _ _ _ ran)

theorem appends_of_emitDecoded {instruction : Instruction}
    (fits : instruction.operand.Fits instruction.opcode.operand)
    (ran : emitDecoded instruction before = .ok result after) :
    Appends before after [.plain instruction.opcode instruction.operand] := by
  unfold emitDecoded at ran
  split at ran
  · rename_i none
    rw [none] at fits ⊢
    have appends := appends_of_emit ran
    rwa [readBack_of_fits fits] at appends
  · have sent : ((some instruction.operand).getD .none).Fits instruction.opcode.operand := fits
    have appends := appends_of_emit ran
    rwa [readBack_of_fits sent] at appends

theorem unlessFallsThrough_appends (flow : Flow) : AppendsNothing (match flow with
    | .unconditionalBranch | .leave => markUnreachable
    | _ => pure () : EncoderM Unit) := by
  cases flow <;>
    first | exact markUnreachable_appends | exact AppendsNothing.pure _

theorem appends_of_emitBranch {opcode : Opcode} {label : String}
    (ran : emitBranch opcode label before = .ok result after) :
    Appends before after [.branch opcode label] := by
  unfold emitBranch at ran
  dsimp only at ran
  split at ran
  · obtain ⟨_, _, failed, _⟩ := bind_eq_ok.mp ran
    exact absurd failed throw_ne_ok
  · rename_i isBranch
    have proper : (Emitted.branch opcode label).Proper := by
      simpa [Emitted.Proper] using isBranch
    obtain ⟨_, pushed, pushRan, ran⟩ := bind_eq_ok.mp ran
    obtain ⟨_, tracked, trackRan, ran⟩ := bind_eq_ok.mp ran
    have ending (_ : PUnit) := unlessFallsThrough_appends opcode.flow
    have rest : Appends tracked after [] := by
      split at ran
      · obtain ⟨_, cleared, clearRan, ran⟩ := bind_eq_ok.mp ran
        have clears : Appends tracked cleared [] := by
          rw [← modify_eq_ok.mp clearRan]
          exact ⟨by simp, by simp, rfl, rfl, rfl, rfl⟩
        exact clears.trans
          ((recordBranch_appends label).bind ending cleared result after ran)
      · exact (recordBranch_appends label).bind ending tracked result after ran
    exact (appends_of_push (.branch opcode label) proper pushRan).trans
      ((trackStack_appends _ _ _ _ _ _ trackRan).trans rest)

theorem appends_of_emitSwitch {labels : List String}
    (ran : emitSwitch labels before = .ok result after) :
    Appends before after [.switch labels] := by
  unfold emitSwitch at ran
  dsimp only at ran
  split at ran
  · obtain ⟨_, _, failed, _⟩ := bind_eq_ok.mp ran
    exact absurd failed throw_ne_ok
  split at ran
  · obtain ⟨_, _, _, ran⟩ := bind_eq_ok.mp ran
    obtain ⟨_, _, failed, _⟩ := bind_eq_ok.mp ran
    exact absurd failed throw_ne_ok
  · rename_i short
    have fits : (Emitted.switch labels).Proper := Nat.lt_of_not_le short
    obtain ⟨_, pushed, pushRan, ran⟩ := bind_eq_ok.mp ran
    obtain ⟨_, tracked, trackRan, ran⟩ := bind_eq_ok.mp ran
    have recorded : AppendsNothing (labels.forM recordBranch) :=
      AppendsNothing.forM recordBranch_appends labels
    exact (appends_of_push (.switch labels) fits pushRan).trans
      ((trackStack_appends _ _ _ _ _ _ trackRan).trans (recorded _ _ _ ran))

/-! ## Arguments -/

/-- An access to an argument is emitted in a form for its index. -/
theorem appends_of_emitIndexed {short long : Opcode} {index : UInt16}
    (shortFits : short.operand = .uint8) (longFits : long.operand = .uint16)
    (ran : emitIndexed short long index before = .ok result after) :
    ∃ opcode operand, Appends before after [.plain opcode operand] ∧
      ((opcode = short ∧ operand = .immediate (.uint8 index.toUInt8) ∧ index.toNat < 256) ∨
        (opcode = long ∧ operand = .immediate (.uint16 index))) := by
  unfold emitIndexed at ran
  split at ran
  · rename_i small
    refine ⟨_, _, appends_of_emit ran, Or.inl ⟨rfl, ?_, small⟩⟩
    rw [shortFits]
    rfl
  · refine ⟨_, _, appends_of_emit ran, Or.inr ⟨rfl, ?_⟩⟩
    rw [longFits]
    rfl

end Encoder

end Cil
