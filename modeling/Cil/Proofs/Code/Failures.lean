import Cil.Code.Layout
import Cil.Code.MethodCode
import Cil.Isolation.Regions
import Cil.Proofs.Stateful

/-!
# Failures that do not blame the body

That a method has no readable body is found out by decoding it.  Nothing that happens to the
decoded code afterwards fails in this way: neither emitting it again, nor laying it out, nor
decoding what was emitted.
-/

namespace Cil

open Stateful
open MonadExcept (ofExcept)

/-- Whether an error says that a method has no readable body. -/
def Error.blamesBody : Error → Bool
  | .unreadableMethodBody _ => true
  | _ => false

/-- Whether an error neither says that a method has no readable body nor is a managed
exception on its way. -/
def Error.isOrdinary : Error → Bool
  | .unreadableMethodBody _ | .thrown _ => false
  | _ => true

theorem Error.isOrdinary_of_blamesBody {error : Error} (blames : error.blamesBody) :
    error.isOrdinary = false := by
  cases error with
  | unreadableMethodBody method => rfl
  | _ => cases blames

/-- An outcome that neither blames a body nor throws. -/
abbrev SparesBody {α : Type} (outcome : Except Error α) : Prop :=
  ErrsOnly (fun error => error.isOrdinary) outcome

/-- A step that neither blames a body nor throws. -/
abbrev SparesBodies {σ α : Type} (step : EStateM Error σ α) : Prop :=
  FailsOnly (fun error => error.isOrdinary) step

/-! ## Reading -/

section Reading

variable {failure : Error → Prop}

namespace Instruction

variable (bounds : failure .outOfBounds)

include bounds

theorem failsOnly_readNat (width : Nat) : FailsOnly failure (Cursor.readNat width) := by
  refine .bind ?_ fun _ => .pure _
  intro cursor error final failed
  unfold Cursor.readBytes at failed
  split at failed
  · cases failed
  · cases failed
    exact bounds

theorem failsOnly_readInt (width : Nat) : FailsOnly failure (Cursor.readInt width) :=
  .bind (failsOnly_readNat bounds width) fun _ => .pure _

theorem failsOnly_readDisplacements (count : Nat) :
    FailsOnly failure (readDisplacements count) := by
  induction count with
  | zero => exact .pure _
  | succ count ih => exact .bind (failsOnly_readInt bounds 4) fun _ => .bind ih fun _ => .pure _

theorem failsOnly_readOperand (kind : OperandKind) : FailsOnly failure (readOperand kind) := by
  cases kind with
  | none => exact .pure _
  | int8 | int16 | int32 | int64 => exact .bind (failsOnly_readInt bounds _) fun _ => .pure _
  | switch =>
      have displacements (count : Nat) :
          FailsOnly failure (do return Operand.switch (← readDisplacements count)) :=
        .bind (failsOnly_readDisplacements bounds _) fun _ => .pure _
      refine .bind (failsOnly_readNat bounds 4) fun count => .bind .get fun cursor => ?_
      split
      · exact .bind (.throw bounds) fun _ => displacements _
      · exact displacements _
  | _ => exact .bind (failsOnly_readNat bounds _) fun _ => .pure _

theorem failsOnly_readOpcode {start : Nat}
    (unsupported : ∀ obstacle, failure (.unsupportedInstruction start obstacle)) :
    FailsOnly failure (readOpcode start) := by
  refine .bind (failsOnly_readNat bounds 1) fun first => ?_
  split
  · refine .bind (failsOnly_readNat bounds 1) fun second => ?_
    split
    · exact .pure _
    · exact .throw (unsupported _)
    · exact .throw (unsupported _)
  · split
    · exact .pure _
    · exact .throw (unsupported _)
    · exact .throw (unsupported _)

variable (unsupported : ∀ offset obstacle, failure (.unsupportedInstruction offset obstacle))

include unsupported

theorem failsOnly_read : FailsOnly failure read :=
  .bind .get fun _ => .bind (failsOnly_readOpcode bounds (unsupported _)) fun _ =>
    .bind (failsOnly_readOperand bounds _) fun _ => .bind .get fun _ => .pure _

theorem of_readMany_failure (count : Nat) (cursor : Cursor) (error : Error)
    (failed : (readMany count cursor).failure? = some error) : failure error := by
  induction count generalizing cursor with
  | zero => cases failed
  | succ count ih =>
      unfold readMany at failed
      split at failed
      · cases ran : read cursor with
        | ok instruction next =>
            rw [ran] at failed
            exact ih next failed
        | error other final =>
            rw [ran] at failed
            cases failed
            exact failsOnly_read bounds unsupported cursor _ _ ran
      · cases failed

/-- Code that cannot be decoded ends too early or has an instruction that is not supported. -/
theorem errsOnly_decodeAll (bytes : List UInt8) : ErrsOnly failure (decodeAll bytes) := by
  intro error failed
  unfold decodeAll at failed
  dsimp only at failed
  split at failed
  · rename_i error found
    cases failed
    exact of_readMany_failure bounds unsupported _ _ _ found
  · cases failed

end Instruction

end Reading

theorem sparesBody_ofBytes (bytes : List UInt8) (locals : List LocalVariable)
    (clauses : List Clause) (maxStack : Nat) (initLocals : Bool) :
    SparesBody (MethodCode.ofBytes bytes locals clauses maxStack initLocals) := by
  have decodes : SparesBody (Instruction.decodeAll bytes) :=
    Instruction.errsOnly_decodeAll (by rfl) (fun _ _ => by rfl) bytes
  refine .bind decodes fun instructions => ?_
  unfold MethodCode.validate
  split
  · exact .error rfl
  · split
    · exact .error rfl
    · exact .ok _

theorem sparesBody_encode (code : List UInt8) (maxStack : Nat) (locals : Token)
    (initLocals : Bool) (clauses : List Clause) :
    SparesBody (Body.encode code maxStack locals initLocals clauses) := by
  have sections : SparesBody (Body.sectionBytes clauses) := by
    unfold Body.sectionBytes
    dsimp only
    split
    · exact .ok _
    · split
      · exact .error rfl
      · exact .ok _
  unfold Body.encode
  dsimp only
  split
  · exact .ok _
  split
  · exact .bind (.error rfl) fun _ => by
      split
      · exact .ok _
      · exact .bind sections fun _ => .ok _
  · split
    · exact .ok _
    · exact .bind sections fun _ => .ok _

/-! ## Emitting -/

namespace Encoder

theorem sparesBody_operandBytes (kind : OperandKind) (operand? : Option Operand) :
    SparesBody (operandBytes kind operand?) := by
  unfold operandBytes
  split <;> first
    | exact .ok _
    | exact .error rfl
    | split <;> first | exact .ok _ | exact .error rfl

theorem sparesBodies_pushInstruction (opcode : Opcode) (operand? : Option Operand) :
    SparesBodies (pushInstruction opcode operand?) := by
  unfold pushInstruction
  cases encoded : operandBytes opcode.operand operand? with
  | ok bytes => exact .modifyGet _
  | error error =>
      exact .bind (.modifyGet _) fun _ => .throw (sparesBody_operandBytes _ _ _ encoded)

theorem sparesBodies_trackStack (pops pushes : Nat) (context : Malformation → Malformation) :
    SparesBodies (trackStack pops pushes context) :=
  .bind .get fun _ =>
    .ite (.ite (.modifyGet _) (.bind (.set _) fun _ => .throw rfl)) (.modifyGet _)

theorem sparesBodies_recordBranch (label : String) : SparesBodies (recordBranch label) := by
  refine .bind .get fun encoder => .ite ?_ (.pure _)
  split
  · exact .ite (.throw rfl) (.pure _)
  · exact .set _

theorem sparesBodies_emit (opcode : Opcode) (operand? : Option Operand) :
    SparesBodies (emit opcode operand?) := by
  refine .bind (sparesBodies_pushInstruction _ _) fun _ =>
    .bind (sparesBodies_trackStack _ _ _) fun _ => ?_
  cases opcode.flow <;> first | exact .modifyGet _ | exact .pure _

theorem sparesBodies_emitBranch (opcode : Opcode) (label : String) :
    SparesBodies (emitBranch opcode label) := by
  unfold emitBranch
  dsimp only
  refine .ite (.throw_bind rfl) <| .bind (.modifyGet _) fun _ =>
    .bind (sparesBodies_trackStack _ _ _) fun _ => .ite (.bind (.modifyGet _) fun _ => ?_) ?_
  all_goals
    refine .bind (sparesBodies_recordBranch _) fun _ => ?_
    cases opcode.flow <;> first | exact .modifyGet _ | exact .pure _

theorem sparesBodies_emitSwitch (labels : List String) : SparesBodies (emitSwitch labels) := by
  unfold emitSwitch
  dsimp only
  exact .ite (.throw_bind rfl) <| .ite (.bind (.modifyGet _) fun _ => .throw_bind rfl) <|
    .bind (.modifyGet _) fun _ => .bind (sparesBodies_trackStack _ _ _) fun _ =>
    .forM sparesBodies_recordBranch

theorem sparesBodies_emitCall (opcode : Opcode) (operand? : Option Operand) (arguments : Nat)
    (hasResult : Bool) : SparesBodies (emitCall opcode operand? arguments hasResult) :=
  .bind (sparesBodies_pushInstruction _ _) fun _ => sparesBodies_trackStack _ _ _

theorem sparesBodies_emitIndexed (short long : Opcode) (index : UInt16) :
    SparesBodies (emitIndexed short long index) :=
  .ite (sparesBodies_emit _ _) (sparesBodies_emit _ _)

theorem sparesBodies_emitLoadArgument (index : UInt16) :
    SparesBodies (emitLoadArgument index) := by
  unfold emitLoadArgument
  split
  · exact sparesBodies_emit _ _
  · exact sparesBodies_emit _ _
  · exact sparesBodies_emit _ _
  · exact sparesBodies_emit _ _
  · exact sparesBodies_emitIndexed _ _ _

theorem sparesBodies_defineLabel (label : String) : SparesBodies (defineLabel label) := by
  have marked (size : Nat) : SparesBodies (do
      modify fun encoder => { encoder with unreachable := false }
      if wordBound ≤ size then throw (.malformed .labelDefinedTooFar)
      modify fun encoder =>
        { encoder with labels := encoder.labels.push (label, encoder.here) } : EncoderM Unit) :=
    .bind (.modifyGet _) fun _ => .ite (.throw_bind rfl) (.modifyGet _)
  refine .bind .get fun encoder => ?_
  dsimp only
  refine .ite (.throw_bind rfl) ?_
  split
  · exact .ite (.bind (.modifyGet _) fun _ => marked _) <| .ite (.throw_bind rfl) (marked _)
  · exact .ite (.bind (.modifyGet _) fun _ => marked _) (.bind (.modifyGet _) fun _ => marked _)

/-! ## Exception blocks -/

theorem sparesBodies_popBlock (failure : Malformation) : SparesBodies (popBlock failure) := by
  refine .bind .get fun encoder => ?_
  split
  · exact .throw rfl
  · exact .bind (.set _) fun _ => .pure _

theorem sparesBodies_closeHandler (block : OpenBlock) : SparesBodies (closeHandler block) := by
  unfold closeHandler
  split
  · refine .bind .get fun encoder => ?_
    split
    · exact .set _
    · exact .throw rfl
  · exact .pure _

theorem sparesBodies_startHandler (flags : ClauseFlags) (class? : Option Token)
    (isFilter : Bool) : SparesBodies (startHandler flags class? isFilter) :=
  .bind (sparesBodies_popBlock _) fun _ => .bind .get fun _ =>
    .bind (sparesBodies_closeHandler _) fun _ => .modifyGet _

theorem sparesBodies_enterHandler (depth : Int16) : SparesBodies (enterHandler depth) :=
  .bind (.modifyGet _) fun _ => .modifyGet _

theorem sparesBodies_perform (event : RegionEvent) : SparesBodies (Regions.perform event) := by
  cases event with
  | beginTry => exact .modifyGet _
  | beginFilteredHandler =>
      refine .bind .get fun encoder => ?_
      split
      · dsimp only
        split
        · exact .bind (.set _) fun _ => sparesBodies_enterHandler _
        · exact .throw rfl
      · exact .throw rfl
  | endTry =>
      refine .bind (sparesBodies_popBlock _) fun block => ?_
      split
      · exact .bind .get fun _ => .bind (.throw rfl) fun _ => sparesBodies_closeHandler _
      · exact sparesBodies_closeHandler _
  | _ =>
      exact .bind (sparesBodies_startHandler _ _ _) fun _ => sparesBodies_enterHandler _

theorem sparesBodies_apply (clauses : List Clause) (offset : Nat) :
    SparesBodies (Regions.apply clauses offset) :=
  .forM sparesBodies_perform

/-! ## Laying out -/

theorem sparesBody_offsetOfLabel (draft : Layout.Draft) (label : String) :
    SparesBody (draft.offsetOfLabel label) := by
  unfold Layout.Draft.offsetOfLabel
  split
  · exact .ok _
  · exact .error rfl

theorem sparesBody_checkPosition (position : Nat) (failure : Malformation) :
    SparesBody (Layout.checkPosition position failure) := by
  unfold Layout.checkPosition
  split
  · exact .ok _
  · exact .error rfl

theorem sparesBody_firstShortenable (draft : Layout.Draft) (index : Nat)
    (placed : List (Nat × Item)) : SparesBody (Layout.firstShortenable draft index placed) := by
  induction placed generalizing index with
  | nil => exact .ok _
  | cons first rest ih =>
      obtain ⟨offset, item⟩ := first
      cases item with
      | branch opcode label =>
          unfold Layout.firstShortenable
          split
          · exact ih _
          · exact .bind (sparesBody_offsetOfLabel _ _) fun _ =>
              .bind (sparesBody_checkPosition _ _) fun _ =>
              .bind (sparesBody_checkPosition _ _) fun _ => .bind (ih _) fun _ => .ok _
      | bytes content => exact ih _
      | switch labels => exact ih _

theorem sparesBody_shorten (rounds : Nat) (draft : Layout.Draft) :
    SparesBody (Layout.shorten rounds draft) := by
  induction rounds generalizing draft with
  | zero => exact .ok _
  | succ rounds ih =>
      refine .bind (sparesBody_firstShortenable _ _ _) fun found? => ?_
      cases found? with
      | none => exact .ok _
      | some found => exact ih _

theorem sparesBody_branchBytes (draft : Layout.Draft) (placed : Nat × Item) :
    SparesBody (Layout.branchBytes draft placed) := by
  obtain ⟨offset, item⟩ := placed
  cases item with
  | branch opcode label =>
      refine .bind (sparesBody_offsetOfLabel _ _) fun _ =>
        .bind (sparesBody_checkPosition _ _) fun _ =>
        .bind (sparesBody_checkPosition _ _) fun _ => ?_
      dsimp only
      split
      · exact .ite (.ok _) (.error rfl)
      · exact .ok _
  | bytes content => exact .ok _
  | switch labels => exact .ok _

theorem sparesBody_itemBytes (draft : Layout.Draft) (placed : Nat × Item) :
    SparesBody (Layout.itemBytes draft placed) := by
  obtain ⟨offset, item⟩ := placed
  cases item with
  | bytes content => exact .ok _
  | branch opcode label => exact sparesBody_branchBytes draft (offset, .branch opcode label)
  | switch labels =>
      exact .bind (sparesBody_checkPosition _ _) fun _ => .bind (.mapM fun label =>
        .bind (sparesBody_offsetOfLabel _ _) fun _ =>
        .bind (sparesBody_checkPosition _ _) fun _ => .ok _) fun _ => .ok _

theorem sparesBody_bytes (draft : Layout.Draft) : SparesBody draft.bytes :=
  .bind (.forM fun placed => .bind (sparesBody_branchBytes draft placed) fun _ => .ok _) fun _ =>
    .bind (.mapM (sparesBody_itemBytes draft)) fun _ => .ok _

theorem sparesBodies_layOut : SparesBodies (do
    terminate
    let encoder ← get
    let draft : Layout.Draft :=
      { items := encoder.items.toList, labels := encoder.labels.toList }
    let draft ← ofExcept
      (if encoder.shortens then Layout.shorten Layout.maxRounds draft else .ok draft)
    let code ← ofExcept draft.bytes
    ofExcept (encoder.clauses.toList.forM (Layout.checkClause draft.items))
    return { code
             maxStack := encoder.maxDepth
             labels := draft.labels.map fun (label, mark) => (label, offsetOf draft.items mark)
             clauses := encoder.clauses.toList.map (Layout.clauseOf draft.items) } :
      EncoderM EmittedCode) := by
  refine .bind (.bind .get fun _ => .ite (sparesBodies_emit _ _) (.pure _)) fun _ =>
    .bind .get fun _ => .bind (.ofExcept (.ite (sparesBody_shorten _ _) (.ok _))) fun _ =>
    .bind (.ofExcept (sparesBody_bytes _)) fun _ =>
    .bind (.ofExcept (.forM fun clause => ?_)) fun _ => .pure _
  exact .ite (.ok _) (.error rfl)

theorem sparesBodies_finish : SparesBodies finish := by
  refine .bind .get fun encoder => ?_
  dsimp only
  split
  · exact .bind .get fun _ => .throw_bind rfl
  · exact sparesBodies_layOut

end Encoder

end Cil
