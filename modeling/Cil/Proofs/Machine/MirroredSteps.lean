import Cil.Machine.CoreLibrary
import Cil.Machine.Step
import Cil.Proofs.Machine.MirroredAccess

/-!
# Instructions on machines that mirror each other

An instruction that neither calls anything nor transfers control does the same on machines that
mirror each other, wherever it stands, if the pointers on the stack lead to no receiver that came
in a box.  So do the methods of the core library.  Only the failures tell where an instruction
stands, and they are of the same kind.
-/

namespace Cil

open MonadExcept (ofExcept)

/-- Whether a value leads to no receiver that came in a box. -/
def Guises.SparesValue (standing : Guises) : Value → Prop
  | .pointer location => standing.Spares location
  | _ => True

/-- Two instructions are the same up to where they stand. -/
structure Instruction.SameForm (first second : Instruction) : Prop where
  opcode : second.opcode = first.opcode
  operand : second.operand = first.operand

namespace Instruction.SameForm

variable {first second : Instruction} (same : first.SameForm second)

include same

theorem token? : second.token? = first.token? := by
  unfold Instruction.token?
  rw [same.operand]

theorem int32Constant? : second.int32Constant? = first.int32Constant? := by
  unfold Instruction.int32Constant?
  rw [same.operand, same.opcode]

theorem indexOperand? : second.indexOperand? = first.indexOperand? := by
  unfold Instruction.indexOperand?
  rw [same.operand]

theorem localIndex? : second.localIndex? = first.localIndex? := by
  unfold Instruction.localIndex?
  rw [same.indexOperand?, same.opcode]

theorem int64Operand? : Exec.int64Operand? second = Exec.int64Operand? first := by
  unfold Exec.int64Operand?
  rw [same.operand]

theorem floatOperand? : Exec.floatOperand? second = Exec.floatOperand? first := by
  unfold Exec.floatOperand?
  rw [same.operand]

end Instruction.SameForm

/-- Whether an action works on an argument of the frame. -/
def Action.accessesArgument : Action → Bool
  | .loadArgument | .loadArgumentAddress | .storeArgument => true
  | _ => false

namespace Exec

variable {α : Type} {comparison : Comparison} {standing : Guises} {tables : CodeBond}
  {instruction image : Instruction} {stack : List Value}

/-! ## Operands and the stack -/

theorem tally_operand {bond : Bond} {operand? other? : Option α} (same : other? = operand?) :
    comparison.Tally bond Eq (operand instruction operand?) (operand image other?) := by
  subst same
  cases other? with
  | some value => exact .pure rfl
  | none => exact .throw rfl (by simp [Error.kind])

theorem tally_tokenOperand {bond : Bond} (same : instruction.SameForm image) :
    comparison.Tally bond Eq (tokenOperand instruction) (tokenOperand image) :=
  tally_operand same.token?

theorem tally_pop {bond : Bond} (stack : List Value) :
    comparison.Tally bond (fun popped other => popped = other ∧ stack = popped.1 :: popped.2)
      (pop instruction stack) (pop image stack) := by
  cases stack with
  | nil => exact .throw rfl (by simp [Error.kind])
  | cons value rest => exact .pure ⟨rfl, rfl⟩

theorem tally_popPair {bond : Bond} (stack : List Value) :
    comparison.Tally bond
      (fun popped other => popped = other ∧ stack = popped.2.1 :: popped.1 :: popped.2.2)
      (popPair instruction stack) (popPair image stack) := by
  refine (tally_pop stack).bind fun upper _ popped => ?_
  obtain ⟨rfl, above⟩ := popped
  refine (tally_pop _).bind fun lower _ popped => ?_
  obtain ⟨rfl, below⟩ := popped
  exact .pure ⟨rfl, above.trans (congrArg (_ :: ·) below)⟩

theorem tally_popArguments {bond : Bond} (count : Nat) (stack : List Value) :
    comparison.Tally bond (fun popped other => popped = other ∧
        popped.1.length = count ∧ popped.1.reverse ++ popped.2 = stack)
      (popArguments instruction count stack) (popArguments image count stack) := by
  unfold popArguments
  split
  · exact .throw rfl (by simp [Error.kind])
  · refine .pure ⟨rfl, ?_, ?_⟩
    · simp only [List.length_reverse, List.length_take]
      omega
    · rw [List.reverse_reverse, List.take_append_drop]

theorem tally_orFault (outcome : Except Fault α) :
    comparison.Tally (standing.bond tables) Eq (orFault instruction outcome)
      (orFault image outcome) := by
  cases outcome with
  | ok result => exact .pure rfl
  | error fault =>
      cases fault with
      | divideByZero => exact tally_raise _ _
      | overflow => exact tally_raise _ _
      | mismatch complaint => exact .throw rfl (by simp [Error.kind])

/-- The location that a spared value leads to. -/
theorem tally_asPointer {bond : Bond} {value : Value} (spared : standing.SparesValue value) :
    comparison.Tally bond (fun location other => location = other ∧ standing.Spares location)
      (ofExcept value.asPointer) (ofExcept value.asPointer) := by
  cases value with
  | pointer location => exact .pure ⟨rfl, spared⟩
  | _ => exact .throw rfl (by simp [Error.kind])

/-! ## Arguments and locals -/

section Slots

variable {frame index : Nat}

theorem tally_frameAt : comparison.Tally (standing.bond tables)
    (fun one other => ∃ guise heap, standing[frame]? = some guise ∧ guise.Fits heap one other)
    (frameAt frame) (frameAt frame) := by
  intro one two holds
  have failed : (standing.bond tables).Holds one two := holds
  unfold frameAt
  rw [bind_of_ok get_run, bind_of_ok get_run]
  rcases holds.1.frame_cases frame with
    ⟨isNone, otherNone⟩ | ⟨guise, slots, others, isGuise, isOne, isOther, fits⟩
  · rw [isNone, otherNone]
    exact Comparison.Tally.throwSame _ _ _ holds
  · rw [isOne, isOther]
    exact .value ⟨guise, _, isGuise, fits⟩ holds

section Arguments

variable (same : image.argumentIndex? = instruction.argumentIndex?)
  (spared : ∀ index, instruction.argumentIndex? = some index →
    standing.Spares (.argument frame index))

include same spared

/-- The argument that an instruction names, which is the same for both machines. -/
theorem tally_argumentIndex {bond : Bond} :
    comparison.Tally bond
      (fun index other => index = other ∧ standing.Spares (.argument frame index))
      (operand instruction instruction.argumentIndex?) (operand image image.argumentIndex?) := by
  rw [same]
  cases isIndex : instruction.argumentIndex? with
  | none => exact .throw rfl (by simp [Error.kind])
  | some index => exact .pure ⟨rfl, spared index isIndex⟩

theorem tally_loadArgument :
    comparison.Tally (standing.bond tables) Eq (loadArgument frame instruction)
      (loadArgument frame image) := by
  refine .share (tally_argumentIndex same spared) fun index spared =>
    .bind tally_frameAt fun slots others ⟨guise, _, isGuise, fits⟩ => ?_
  rw [fits.arguments.getElem? fun isFirst => spared frame guise (by rw [isFirst]; rfl) isGuise]
  cases slots.arguments[index]? with
  | some value => exact .pure rfl
  | none => exact .throw rfl (by simp [Error.kind])

theorem tally_storeArgument :
    comparison.Tally (standing.bond tables) Eq (storeArgument frame instruction stack)
      (storeArgument frame image stack) := by
  refine .share (tally_argumentIndex same spared) fun index spared => .share (tally_pop stack) ?_
  rintro ⟨value, rest⟩ _
  refine .bind tally_frameAt fun slots others ⟨_, _, _, fits⟩ => ?_
  rw [fits.arguments.size]
  split
  · exact .seq (mirrored_setArgument value spared) fun _ => .pure rfl
  · exact .throw rfl (by simp [Error.kind])

end Arguments

theorem tally_loadLocal (same : instruction.SameForm image) :
    comparison.Tally (standing.bond tables) Eq (loadLocal frame instruction)
      (loadLocal frame image) := by
  refine .seq (tally_operand same.localIndex?) fun index =>
    .bind tally_frameAt fun slots others ⟨_, _, _, fits⟩ => ?_
  rw [fits.locals]
  cases slots.locals[index]? with
  | some value => exact .pure rfl
  | none => exact .throw rfl (by simp [Error.kind])

theorem tally_storeLocal (same : instruction.SameForm image) :
    comparison.Tally (standing.bond tables) Eq (storeLocal frame instruction stack)
      (storeLocal frame image stack) := by
  refine .seq (tally_operand same.localIndex?) fun index => .share (tally_pop stack) ?_
  rintro ⟨value, rest⟩ _
  refine .bind tally_frameAt fun slots others ⟨_, _, _, fits⟩ => ?_
  rw [fits.locals]
  split
  · exact .seq (mirrored_setLocal frame index value) fun _ => .pure rfl
  · exact .throw rfl (by simp [Error.kind])

end Slots

/-! ## Fields -/

section Fields

variable {owner : Value} (field : Token)

theorem tally_loadFieldOf (spared : standing.SparesValue owner) :
    comparison.Tally (standing.bond tables) Eq (loadFieldOf instruction field owner)
      (loadFieldOf image field owner) := by
  cases owner with
  | null => exact tally_nullReference
  | object object => exact mirrored_loadField _ _
  | pointer location =>
      refine .seq (mirrored_load spared) fun inside => ?_
      cases inside with
      | object object => exact mirrored_loadField _ _
      | null => exact tally_nullReference
      | _ => exact .ofExcept _
  | record type fields => exact .ofExcept _
  | _ => exact .throw rfl (by simp [Error.kind])

theorem tally_fieldAddress :
    comparison.Tally (standing.bond tables) Eq (fieldAddress instruction field owner)
      (fieldAddress image field owner) := by
  cases owner with
  | null => exact tally_nullReference
  | object object => exact .pure rfl
  | pointer location => exact .pure rfl
  | _ => exact .throw rfl (by simp [Error.kind])

theorem tally_storeFieldOf (spared : standing.SparesValue owner) (value : Value) :
    comparison.Tally (standing.bond tables) Eq (storeFieldOf instruction field owner value)
      (storeFieldOf image field owner value) := by
  cases owner with
  | null => exact tally_nullReference
  | object object => exact mirrored_onHeap fun _ _ => Heap.keepsBox_setField _ _ _
  | pointer location =>
      exact mirrored_store (show standing.Spares (.valueField location field) from spared) value
  | _ => exact .throw rfl (by simp [Error.kind])

end Fields

/-! ## Boxes and casts -/

theorem mirrored_isInstanceOf (value : Value) (type : Token) :
    Mirrored comparison standing tables (isInstanceOf value type) := by
  refine .seq (mirrored_runtimeType? _) fun type? => ?_
  cases type? with
  | some runtimeType => exact .seq .module fun _ => .pure rfl
  | none => exact .pure rfl

theorem some_readHeap_run (query : Heap → Except Error α) (context : Context) (machine : Machine) :
    (do return some (← readHeap query) : Exec (Option α)) context machine =
      match query machine.heap with
      | .ok value => .ok (some value) machine
      | .error error => .error error machine := by
  rw [bind_run]
  unfold readHeap
  rw [bind_run, get_run]
  dsimp only
  cases query machine.heap <;> rfl

theorem attempt_readHeap (query : Heap → Except Error α) :
    attempt (do return some (← readHeap query)) =
      get >>= fun machine => pure ((query machine.heap).map some) := by
  funext context machine
  unfold attempt
  rw [some_readHeap_run]
  change _ = EStateM.Result.ok ((query machine.heap).map some) machine
  cases query machine.heap <;> rfl

/-- What a value is called, once its type has been looked for. -/
theorem mirrored_named (value : Value) (outcome : Except Error (Option Token)) :
    Mirrored comparison standing tables (do
      match outcome with
      | .ok (some type) => return (← module).typeName type
      | _ => return value.text) := by
  split
  · exact .seq .module fun _ => .pure rfl
  · exact .pure rfl

theorem mirrored_castSource (value : Value) :
    Mirrored comparison standing tables (castSource value) := by
  have attempted :
      Mirrored comparison standing tables (attempt (runtimeType? value)) := by
    cases value with
    | object reference =>
        change Mirrored comparison standing tables
          (attempt (do return some (← readHeap (·.typeOf reference))))
        rw [attempt_readHeap]
        exact .get_bind (fun machine => (machine.heap.typeOf reference).map some) pure pure
          (fun _ _ holds => by rw [holds.1.heap]) fun _ => .pure rfl
    | _ => exact .pure rfl
  exact .seq attempted (mirrored_named value)

theorem mirrored_invalidCast (value : Value) (type : Token) :
    Mirrored comparison standing tables (invalidCast value type : Exec α) :=
  .seq (mirrored_castSource _) fun _ => .seq .module fun _ => tally_raise _ _

theorem mirrored_boxOf (value : Value) (type : Token) :
    Mirrored comparison standing tables (boxOf value type) := by
  refine .seq (mirrored_objectOf _) fun reference => .seq (.readHeap _) fun object => ?_
  cases object with
  | boxed boxedType payload =>
      dsimp only
      split
      · exact .pure rfl
      · exact mirrored_invalidCast _ _
  | _ => exact mirrored_invalidCast _ _

theorem mirrored_unboxAny (value : Value) (type : Token) :
    Mirrored comparison standing tables (unboxAny value type) := by
  refine .seq .module fun module => ?_
  split
  · exact .seq (mirrored_boxOf _ _) fun _ => .seq (.readHeap _) fun _ => .pure rfl
  split
  · exact .pure rfl
  refine .seq (mirrored_isInstanceOf _ _) fun fits => ?_
  split
  · exact .pure rfl
  · exact .seq (mirrored_invalidCast _ _) fun _ => .pure rfl

theorem mirrored_cast (throws : Bool) (value : Value) (type : Token) :
    Mirrored comparison standing tables (cast throws value type) := by
  unfold cast
  split
  · exact .pure rfl
  refine .seq (mirrored_isInstanceOf _ _) fun fits => ?_
  split
  · exact .pure rfl
  split
  · exact mirrored_invalidCast _ _
  · exact .pure rfl

/-! ## Arrays -/

theorem mirrored_newArray (length : Int64) (elementType : Token) :
    Mirrored comparison standing tables (newArray length elementType) := by
  have made : Mirrored comparison standing tables (do
      let module ← module
      let signature ← ofExcept (module.typeSig elementType)
      let zero ← ofExcept (module.zero signature)
      allocate (.array signature (Array.replicate length.toInt.toNat zero))) :=
    .seq .module fun _ => .seq (.ofExcept _) fun _ => .seq (.ofExcept _) fun _ =>
      mirrored_allocate _
  unfold newArray
  dsimp only
  split
  · exact .seq (tally_raise _ _) fun _ => made
  · exact made

theorem mirrored_arrayLength (array : Value) :
    Mirrored comparison standing tables (arrayLength array) :=
  .seq (mirrored_objectOf _) fun _ => .seq (.readHeap _) fun _ => .pure rfl

theorem tally_popElementAddress (stack : List Value) :
    comparison.Tally (standing.bond tables)
      (fun popped other => popped = other ∧ standing.Spares popped.1)
      (popElementAddress instruction stack) (popElementAddress image stack) := by
  refine .share (tally_pop _) fun index _ => ?_
  refine .seq (.ofExcept _) fun position => .share (tally_pop _) fun array _ => ?_
  refine .seq (mirrored_objectOf _) fun reference => .seq (.readHeap _) fun length => ?_
  split
  · exact .pure ⟨rfl, fun _ _ isArgument => by cases isArgument⟩
  · exact tally_indexOutOfRange

/-! ## Instructions that go on with the next one -/

/-- An access to an argument does the same where the argument is spared. -/
theorem tally_argumentStep {run other : Runner} {scope otherScope : Scope} {frame : Nat}
    {constraint? otherConstraint? : Option Token} {action : Action}
    (accesses : action.accessesArgument = true)
    (same : image.argumentIndex? = instruction.argumentIndex?)
    (spared : action ≠ .loadArgumentAddress → ∀ index, instruction.argumentIndex? = some index →
      standing.Spares (.argument frame index)) :
    comparison.Tally (standing.bond tables) Eq
      (stepStraight run scope frame instruction constraint? stack action)
      (stepStraight other otherScope frame image otherConstraint? stack action) := by
  cases action with
  | loadArgument =>
      exact .seq (tally_loadArgument same (spared nofun)) fun _ => .pure rfl
  | loadArgumentAddress => exact .seq (tally_operand same) fun _ => .pure rfl
  | storeArgument => exact tally_storeArgument same (spared nofun)
  | _ => cases accesses

section Straight

variable (same : instruction.SameForm image) (spared : ∀ value ∈ stack, standing.SparesValue value)

include spared

theorem tally_popSpared :
    comparison.Tally (standing.bond tables)
      (fun popped other => popped = other ∧ standing.SparesValue popped.1 ∧
        ∀ value ∈ popped.2, standing.SparesValue value)
      (pop instruction stack) (pop image stack) := by
  refine (tally_pop stack).weaken fun popped other ⟨rfl, found⟩ => ⟨rfl, ?_, fun value member => ?_⟩
  · exact spared _ (found ▸ List.mem_cons_self ..)
  · exact spared _ (found ▸ List.mem_cons_of_mem _ member)

theorem tally_popPairSpared :
    comparison.Tally (standing.bond tables)
      (fun popped other => popped = other ∧ standing.SparesValue popped.1)
      (popPair instruction stack) (popPair image stack) := by
  refine (tally_popPair stack).weaken fun popped other ⟨rfl, found⟩ => ⟨rfl, ?_⟩
  exact spared _ (found ▸ List.mem_cons_of_mem _ (List.mem_cons_self ..))

/-- What an instruction does with the value on top of the stack. -/
theorem tally_unary {first second : Value → Exec Value}
    (does : ∀ value, standing.SparesValue value →
      comparison.Tally (standing.bond tables) Eq (first value) (second value)) :
    comparison.Tally (standing.bond tables) Eq
      (do
        let (value, stack) ← pop instruction stack
        return (← first value) :: stack)
      (do
        let (value, stack) ← pop image stack
        return (← second value) :: stack) := by
  refine .share (tally_popSpared spared) ?_
  rintro ⟨value, rest⟩ ⟨isSpared, _⟩
  exact .seq (does value isSpared) fun _ => .pure rfl

theorem tally_binary {first second : Value → Value → Exec Value}
    (does : ∀ left right,
      comparison.Tally (standing.bond tables) Eq (first left right) (second left right)) :
    comparison.Tally (standing.bond tables) Eq
      (do
        let (left, right, stack) ← popPair instruction stack
        return (← first left right) :: stack)
      (do
        let (left, right, stack) ← popPair image stack
        return (← second left right) :: stack) := by
  refine .share (tally_popPairSpared spared) ?_
  rintro ⟨left, right, rest⟩ _
  exact .seq (does left right) fun _ => .pure rfl

include same

theorem tally_unaryNamed {first second : Token → Value → Exec Value}
    (does : ∀ token value, standing.SparesValue value →
      comparison.Tally (standing.bond tables) Eq (first token value) (second token value)) :
    comparison.Tally (standing.bond tables) Eq
      (do
        let token ← tokenOperand instruction
        let (value, stack) ← pop instruction stack
        return (← first token value) :: stack)
      (do
        let token ← tokenOperand image
        let (value, stack) ← pop image stack
        return (← second token value) :: stack) :=
  .seq (tally_tokenOperand same) fun token => tally_unary spared (does token)

theorem tally_stepStraight {run other : Runner} {scope otherScope : Scope} {frame : Nat}
    {constraint? otherConstraint? : Option Token} {action : Action}
    (stays : action.reaches = false) (noArgument : action.accessesArgument = false) :
    comparison.Tally (standing.bond tables) Eq
      (stepStraight run scope frame instruction constraint? stack action)
      (stepStraight other otherScope frame image otherConstraint? stack action) := by
  cases action with
  | loadArgument | loadArgumentAddress | storeArgument => cases noArgument
  | call | callVirtual | construct | loadFunction | loadVirtualFunction | callIndirect =>
      cases stays
  | loadNull => exact .pure rfl
  | loadInt32 => exact .seq (tally_operand same.int32Constant?) fun _ => .pure rfl
  | loadInt64 => exact .seq (tally_operand same.int64Operand?) fun _ => .pure rfl
  | loadFloat => exact .seq (tally_operand same.floatOperand?) fun _ => .pure rfl
  | loadString =>
      exact .module_bind <| .seq (tally_tokenOperand same) fun _ => .seq (.ofExcept _) fun _ =>
        .seq (mirrored_newString _) fun _ => .pure rfl
  | duplicate | discard =>
      refine .share (tally_popSpared spared) ?_
      rintro ⟨value, rest⟩ _
      exact .pure rfl
  | loadLocal => exact .seq (tally_loadLocal same) fun _ => .pure rfl
  | loadLocalAddress => exact .seq (tally_operand same.localIndex?) fun _ => .pure rfl
  | storeLocal => exact tally_storeLocal same
  | binary op => exact tally_binary spared fun left right => tally_orFault _
  | shift op => exact tally_binary spared fun left right => tally_orFault _
  | compare condition =>
      refine .share (tally_popPairSpared spared) ?_
      rintro ⟨left, right, rest⟩ _
      exact .seq (tally_orFault _) fun _ => .pure rfl
  | unary op => exact tally_unary spared fun value _ => tally_orFault _
  | convert conversion => exact tally_unary spared fun value _ => tally_orFault _
  | loadField => exact tally_unaryNamed same spared fun _ _ => tally_loadFieldOf _
  | loadFieldAddress =>
      refine .seq (tally_tokenOperand same) fun field => .share (tally_popSpared spared) ?_
      rintro ⟨owner, rest⟩ _
      exact .seq (tally_fieldAddress field) fun _ => .pure rfl
  | storeField =>
      refine .seq (tally_tokenOperand same) fun field => .share (tally_popPairSpared spared) ?_
      rintro ⟨owner, value, rest⟩ isSpared
      exact .seq (tally_storeFieldOf field isSpared value) fun _ => .pure rfl
  | loadStatic =>
      exact .seq (tally_tokenOperand same) fun _ => .seq (mirrored_loadStatic _) fun _ => .pure rfl
  | loadStaticAddress => exact .seq (tally_tokenOperand same) fun _ => .pure rfl
  | storeStatic =>
      refine .share (tally_popSpared spared) ?_
      rintro ⟨value, rest⟩ _
      exact .seq (tally_tokenOperand same) fun field =>
        .seq (mirrored_store (show standing.Spares (.staticField field) from nofun) value)
          fun _ => .pure rfl
  | box =>
      refine .share (tally_popSpared spared) ?_
      rintro ⟨value, rest⟩ _
      exact .seq (tally_tokenOperand same) fun _ => .seq (mirrored_box _ _) fun _ => .pure rfl
  | unbox =>
      refine .seq (tally_tokenOperand same) fun type => .share (tally_popSpared spared) ?_
      rintro ⟨value, rest⟩ _
      exact .seq (mirrored_boxOf value type) fun _ => .pure rfl
  | unboxAny => exact tally_unaryNamed same spared fun type value _ => mirrored_unboxAny value type
  | cast throws =>
      exact tally_unaryNamed same spared fun type value _ => mirrored_cast throws value type
  | setToZero =>
      refine .share (tally_popSpared spared) ?_
      rintro ⟨pointer, rest⟩ ⟨isSpared, _⟩
      refine .module_bind <| .seq (tally_tokenOperand same) fun _ => .seq (.ofExcept _) fun zero => ?_
      refine .share (tally_asPointer isSpared) fun location isSpared => ?_
      exact .seq (mirrored_store isSpared zero) fun _ => .pure rfl
  | loadIndirect width? =>
      refine .share (tally_popSpared spared) ?_
      rintro ⟨pointer, rest⟩ ⟨isSpared, _⟩
      refine .share (tally_asPointer isSpared) fun location isSpared => ?_
      refine .seq (mirrored_load isSpared) fun value => ?_
      cases width? with
      | some width => exact .seq (tally_orFault _) fun _ => .pure rfl
      | none => exact .pure rfl
  | storeIndirect width? =>
      refine .share (tally_popPairSpared spared) ?_
      rintro ⟨pointer, value, rest⟩ isSpared
      have stored (value : Value) : comparison.Tally (standing.bond tables) Eq
          (do
            store (← ofExcept pointer.asPointer) value
            return rest)
          (do
            store (← ofExcept pointer.asPointer) value
            return rest) := by
        refine .share (tally_asPointer isSpared) fun location isSpared => ?_
        exact .seq (mirrored_store isSpared value) fun _ => .pure rfl
      cases width? with
      | some width => exact .seq (tally_orFault _) stored
      | none => exact .seq (.pure rfl) stored
  | newArray =>
      refine .share (tally_popSpared spared) ?_
      rintro ⟨length, rest⟩ _
      exact .seq (.ofExcept _) fun _ => .seq (tally_tokenOperand same) fun _ =>
        .seq (mirrored_newArray _ _) fun _ => .pure rfl
  | arrayLength => exact tally_unary spared fun array _ => mirrored_arrayLength array
  | loadElementAddress =>
      refine .share (tally_popElementAddress stack) ?_
      rintro ⟨address, rest⟩ _
      exact .pure rfl
  | loadElement =>
      refine .share (tally_popElementAddress stack) ?_
      rintro ⟨address, rest⟩ isSpared
      exact .seq (mirrored_load isSpared) fun _ => .pure rfl
  | storeElement =>
      refine .share (tally_popSpared spared) ?_
      rintro ⟨value, rest⟩ _
      refine .share (tally_popElementAddress rest) ?_
      rintro ⟨address, below⟩ isSpared
      exact .seq (mirrored_store isSpared value) fun _ => .pure rfl
  | _ => exact .pure rfl

end Straight

/-! ## Receivers -/

theorem mirrored_receiverType? {receiver : Value} (spared : standing.SparesValue receiver) :
    Mirrored comparison standing tables (receiverType? receiver) := by
  unfold receiverType?
  cases receiver with
  | pointer location => exact .seq (mirrored_load spared) fun _ => mirrored_runtimeType? _
  | _ => exact mirrored_runtimeType? _

/-- The method that the type of a receiver resolves a method to. -/
theorem mirrored_resolved (receiver : Value) (method : MethodDef) :
    Mirrored comparison standing tables (do
      match ← runtimeType? receiver with
      | some type => ofExcept ((← module).resolveVirtual type method)
      | none => return method) := by
  refine .seq (mirrored_runtimeType? _) fun type? => ?_
  cases type? with
  | some type => exact .module_bind <| .ofExcept _
  | none => exact .pure rfl

theorem mirrored_virtualTarget (receiver : Value) (method : MethodDef) :
    Mirrored comparison standing tables (virtualTarget receiver method) := by
  unfold virtualTarget
  dsimp only
  split
  · exact .seq tally_nullReference fun _ => mirrored_resolved receiver method
  · exact mirrored_resolved receiver method

/-! ## Methods of the core library -/

theorem tally_argument {bond : Bond} (arguments : List Value) (index : Nat) :
    comparison.Tally bond (fun value other => value = other ∧ arguments[index]? = some value)
      (argument arguments index) (argument arguments index) := by
  unfold argument
  split
  · exact .pure ⟨rfl, ‹_›⟩
  · exact .throwSame _

theorem mirrored_argument (arguments : List Value) (index : Nat) :
    Mirrored comparison standing tables (argument arguments index) :=
  (tally_argument arguments index).weaken fun _ _ => And.left

theorem mirrored_stringArgument? (arguments : List Value) (index : Nat) :
    Mirrored comparison standing tables (stringArgument? arguments index) :=
  .seq (mirrored_argument _ _) fun _ => mirrored_stringText? _

theorem mirrored_stringReceiver (arguments : List Value) :
    Mirrored comparison standing tables (stringReceiver arguments) := by
  refine .seq (mirrored_stringArgument? _ _) fun text? => ?_
  cases text? with
  | some text => exact .pure rfl
  | none => exact tally_nullReference

theorem mirrored_displayWithin (steps : Nat) (value : Value) :
    Mirrored comparison standing tables (displayWithin steps value) := by
  induction steps generalizing value with
  | zero => exact .throwSame _
  | succ steps ih =>
      cases value with
      | object reference =>
          refine .seq (.readHeap _) fun object => ?_
          cases object with
          | boxed type payload =>
              dsimp only
              split
              · exact .pure rfl
              split
              · exact .seq (.ofExcept _) fun _ => .pure rfl
              · exact ih payload
          | object type fields => exact .module_bind <| .pure rfl
          | delegate type target pointer => exact .module_bind <| .pure rfl
          | _ => exact .pure rfl
      | record type fields => exact .module_bind <| .pure rfl
      | _ => exact .pure rfl

theorem mirrored_display (value : Value) :
    Mirrored comparison standing tables (display value) :=
  .get_bind (fun machine => machine.heap.count + 2) (displayWithin · value)
    (displayWithin · value) (fun _ _ holds => by rw [holds.1.heap]) fun _ =>
      mirrored_displayWithin _ _

theorem mirrored_shown (receiver : Value) : Mirrored comparison standing tables (do
    match ← display receiver with
    | some text => newString text
    | none => nullReference) := by
  refine .seq (mirrored_display _) fun text? => ?_
  cases text? with
  | some text => exact mirrored_newString _
  | none => exact tally_nullReference

theorem mirrored_written (line : String) : Mirrored comparison standing tables (do
    modify fun machine : Machine => machine.writeLine line
    return Value.void) :=
  .seq (.modify fun _ _ holds => ⟨holds.1.writeLine _,
    tables.kept holds.2 ⟨rfl, rfl, rfl, rfl⟩ ⟨rfl, rfl, rfl, rfl⟩⟩) fun _ => .pure rfl

/-- Methods of the core library that have nothing to do with delegates. -/
theorem tally_runCore {run other : Runner} {operation : CoreNative}
    (creates : operation ≠ .createDelegate) (invokes : operation ≠ .invokeDelegate)
    {arguments : List Value} (spared : ∀ value ∈ arguments, standing.SparesValue value) :
    comparison.Tally (standing.bond tables) Eq (runCore run operation arguments)
      (runCore other operation arguments) := by
  cases operation with
  | nothing => exact .pure rfl
  | toString =>
      refine .share (tally_argument arguments 0) fun value given => ?_
      have isSpared := spared value (List.mem_of_getElem? given)
      cases value with
      | pointer location => exact .seq (mirrored_load isSpared) mirrored_shown
      | _ => exact .seq (.pure rfl) mirrored_shown
  | concat =>
      exact .seq (mirrored_stringArgument? _ _) fun _ =>
        .seq (mirrored_stringArgument? _ _) fun _ => mirrored_newString _
  | toUpper => exact .seq (mirrored_stringReceiver _) fun _ => mirrored_newString _
  | length =>
      refine .seq (mirrored_stringReceiver _) fun text => ?_
      dsimp only
      split
      · exact .pure rfl
      · exact .throwSame _
  | equality =>
      exact .seq (mirrored_stringArgument? _ _) fun _ =>
        .seq (mirrored_stringArgument? _ _) fun _ => .pure rfl
  | writeLineString => exact .seq (mirrored_stringArgument? _ _) fun _ => mirrored_written _
  | writeLineInt =>
      exact .seq (mirrored_argument _ _) fun _ => .seq (.ofExcept _) fun _ => mirrored_written _
  | message =>
      exact .seq (mirrored_argument _ _) fun _ => .seq (mirrored_objectOf _) fun _ =>
        .seq (mirrored_describeException _) fun _ => mirrored_newString _
  | setMessage =>
      exact .seq (mirrored_argument _ _) fun _ => .seq (mirrored_objectOf _) fun _ =>
        .seq (mirrored_argument _ _) fun _ =>
        .seq (mirrored_onHeap fun _ _ => Heap.keepsBox_setField _ _ _) fun _ => .pure rfl
  | createDelegate => exact absurd rfl creates
  | invokeDelegate => exact absurd rfl invokes

end Exec

end Cil
