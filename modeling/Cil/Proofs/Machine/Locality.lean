import Cil.Machine.Step
import Cil.Proofs.Stateful

/-!
# What execution leaves alone

Which code runs is said by four parts of a machine: the function pointers, the native
methods, the decoded bodies and the isolation runs.  Which calls are in progress is said by
their number and by the slots of the frames.  Everything that an instruction does apart from
calls and from making function pointers leaves these parts alone: it changes what stands in
slots, but not the slots.  What the limits bound it leaves alone, too, and so it does with the
exceptions that handlers have received.
-/

namespace Cil

open Stateful
open MonadExcept (ofExcept)

/-- Two machines agree on the parts that say which code runs. -/
structure Machine.SameCode (first second : Machine) : Prop where
  functions : second.functions = first.functions
  natives : second.natives = first.natives
  bodies : second.bodies = first.bodies
  runs : second.runs = first.runs

@[refl]
theorem Machine.SameCode.refl (machine : Machine) : machine.SameCode machine :=
  ⟨rfl, rfl, rfl, rfl⟩

theorem Machine.SameCode.trans {first second third : Machine} (before : first.SameCode second)
    (after : second.SameCode third) : first.SameCode third :=
  ⟨after.functions.trans before.functions, after.natives.trans before.natives,
    after.bodies.trans before.bodies, after.runs.trans before.runs⟩

/-- How many slots a frame has. -/
structure FrameShape where
  arguments : Nat
  locals : Nat
deriving DecidableEq, Repr

def Frame.shape (frame : Frame) : FrameShape :=
  ⟨frame.arguments.size, frame.locals.size⟩

/-- The slots of the calls in progress, the outermost call first. -/
def Machine.shapes (machine : Machine) : List FrameShape :=
  machine.frames.toList.map Frame.shape

/-- Two machines have the same calls in progress. -/
structure Machine.SameCalls (first second : Machine) : Prop where
  depth : second.depth = first.depth
  shapes : second.shapes = first.shapes

@[refl]
theorem Machine.SameCalls.refl (machine : Machine) : machine.SameCalls machine :=
  ⟨rfl, rfl⟩

theorem Machine.SameCalls.trans {first second third : Machine}
    (before : first.SameCalls second) (after : second.SameCalls third) :
    first.SameCalls third :=
  ⟨after.depth.trans before.depth, after.shapes.trans before.shapes⟩

/-- Two machines run the same code and have the same calls in progress. -/
structure Machine.Steady (first second : Machine) : Prop where
  code : first.SameCode second
  calls : first.SameCalls second

@[refl]
theorem Machine.Steady.refl (machine : Machine) : machine.Steady machine :=
  ⟨.refl machine, .refl machine⟩

theorem Machine.Steady.trans {first second third : Machine} (before : first.Steady second)
    (after : second.Steady third) : first.Steady third :=
  ⟨before.code.trans after.code, before.calls.trans after.calls⟩

/-- A change of the slots of a frame leaves the slots where they are. -/
theorem Machine.shapes_modify (machine : Machine) (index : Nat) {change : Frame → Frame}
    (shape : ∀ frame, (change frame).shape = frame.shape) :
    ({ machine with frames := machine.frames.modify index change } : Machine).shapes =
      machine.shapes := by
  apply List.ext_getElem?
  intro place
  simp only [shapes, Array.toList_modify, List.getElem?_map, List.getElem?_modify]
  cases machine.frames.toList[place]? with
  | none => rfl
  | some frame => by_cases same : index = place <;> simp [same, shape]

/-- The exceptions that the handlers of the calls in progress have received. -/
def Machine.caught (machine : Machine) : List (List (Nat × HeapRef)) :=
  machine.frames.toList.map Frame.caught

/-- Two machines have received the same exceptions. -/
def Machine.SameCaught (first second : Machine) : Prop :=
  second.caught = first.caught

@[refl]
theorem Machine.SameCaught.refl (machine : Machine) : machine.SameCaught machine :=
  rfl

theorem Machine.SameCaught.trans {first second third : Machine}
    (before : first.SameCaught second) (after : second.SameCaught third) :
    first.SameCaught third :=
  Eq.trans after before

theorem Machine.caught_modify (machine : Machine) (index : Nat) {change : Frame → Frame}
    (caught : ∀ frame, (change frame).caught = frame.caught) :
    machine.SameCaught { machine with frames := machine.frames.modify index change } := by
  apply List.ext_getElem?
  intro place
  simp only [Machine.caught, Array.toList_modify, List.getElem?_map, List.getElem?_modify]
  cases machine.frames.toList[place]? with
  | none => rfl
  | some frame => by_cases same : index = place <;> simp [same, caught]

/-- Whether an action calls something or makes a function pointer. -/
def Action.reaches : Action → Bool
  | .call | .callVirtual | .construct | .loadFunction | .loadVirtualFunction | .callIndirect =>
    true
  | _ => false

namespace Exec

/-! ## Steady pieces of execution -/

/-- A piece of execution that does not look at the limits and executes no instruction. -/
def Unmetered {α : Type} (action : Exec α) : Prop :=
  ∀ module limits other machine,
    action ⟨module, other⟩ machine = action ⟨module, limits⟩ machine ∧
      (finalState (action ⟨module, limits⟩ machine)).executed = machine.executed

namespace Unmetered

variable {α β : Type}

theorem bind {first : Exec α} {next : α → Exec β} (firstFree : Unmetered first)
    (nextFree : ∀ value, Unmetered (next value)) : Unmetered (first >>= next) := by
  intro module limits other machine
  obtain ⟨same, count⟩ := firstFree module limits other machine
  change EStateM.bind (first ⟨module, other⟩) (fun value => next value ⟨module, other⟩) machine =
      EStateM.bind (first ⟨module, limits⟩) (fun value => next value ⟨module, limits⟩) machine ∧
    (finalState (EStateM.bind (first ⟨module, limits⟩)
      (fun value => next value ⟨module, limits⟩) machine)).executed = machine.executed
  unfold EStateM.bind
  rw [same]
  cases ran : first ⟨module, limits⟩ machine with
  | error error final => rw [ran] at count; exact ⟨rfl, count⟩
  | ok value middle =>
      rw [ran] at count
      obtain ⟨sameNext, countNext⟩ := nextFree value module limits other middle
      exact ⟨sameNext, countNext.trans count⟩

theorem attempt {action : Exec α} (free : Unmetered action) : Unmetered (attempt action) := by
  intro module limits other machine
  obtain ⟨same, count⟩ := free module limits other machine
  unfold Exec.attempt
  rw [same]
  cases ran : action ⟨module, limits⟩ machine <;> rw [ran] at count <;> exact ⟨rfl, count⟩

theorem discard {action : Exec α} (free : Unmetered action) : Unmetered (discard action) := by
  intro module limits other machine
  obtain ⟨same, count⟩ := free module limits other machine
  change EStateM.map _ (action ⟨module, other⟩) machine =
      EStateM.map _ (action ⟨module, limits⟩) machine ∧
    (finalState (EStateM.map _ (action ⟨module, limits⟩) machine)).executed = machine.executed
  unfold EStateM.map
  rw [same]
  cases ran : action ⟨module, limits⟩ machine <;> rw [ran] at count <;> exact ⟨rfl, count⟩

end Unmetered

/-- A piece of execution that leaves alone which code runs, which calls are in progress, which
exceptions their handlers have received, and what the limits bound. -/
structure Steady {α : Type} (action : Exec α) : Prop where
  keeps : ∀ context start, Keeps (Machine.Steady start) (action context)
  caught : ∀ context start, Keeps (Machine.SameCaught start) (action context)
  unmetered : Unmetered action

namespace Steady

variable {α β : Type}

theorem bind {first : Exec α} {next : α → Exec β} (firstKeeps : Steady first)
    (nextKeeps : ∀ value, Steady (next value)) : Steady (first >>= next) where
  keeps context start :=
    (firstKeeps.keeps context start).bind fun value => (nextKeeps value).keeps context start
  caught context start :=
    (firstKeeps.caught context start).bind fun value => (nextKeeps value).caught context start
  unmetered := firstKeeps.unmetered.bind fun value => (nextKeeps value).unmetered

theorem pure (value : α) : Steady (Pure.pure value) where
  keeps _ _ := Keeps.pure value
  caught _ _ := Keeps.pure value
  unmetered _ _ _ _ := ⟨rfl, rfl⟩

theorem throw (error : Error) : Steady (throw error : Exec α) where
  keeps _ _ := Keeps.throw error
  caught _ _ := Keeps.throw error
  unmetered _ _ _ _ := ⟨rfl, rfl⟩

theorem get : Steady (MonadState.get : Exec Machine) where
  keeps _ _ := Keeps.get
  caught _ _ := Keeps.get
  unmetered _ _ _ _ := ⟨rfl, rfl⟩

theorem module : Steady Exec.module where
  keeps context _ := Keeps.pure context.module
  caught context _ := Keeps.pure context.module
  unmetered _ _ _ _ := ⟨rfl, rfl⟩

theorem ofExcept (outcome : Except Error α) : Steady (ofExcept outcome : Exec α) := by
  cases outcome with
  | ok value => exact pure value
  | error error => exact throw error

theorem modify {change : Machine → Machine}
    (same : ∀ machine : Machine, machine.Steady (change machine))
    (caught : ∀ machine : Machine, machine.SameCaught (change machine) := by intro _; rfl)
    (count : ∀ machine : Machine, (change machine).executed = machine.executed := by
      intro _; rfl) :
    Steady (modify change : Exec PUnit) where
  keeps _ _ machine before := before.trans (same machine)
  caught _ _ machine before := before.trans (caught machine)
  unmetered _ _ _ machine := ⟨rfl, count machine⟩

theorem discard {action : Exec α} (kept : Steady action) : Steady (discard action) where
  keeps context start := (kept.keeps context start).discard
  caught context start := (kept.caught context start).discard
  unmetered := kept.unmetered.discard

theorem onHeap (action : HeapM α) : Steady (onHeap action) where
  keeps context start := by
    intro machine same
    unfold Exec.onHeap
    dsimp only
    cases action machine.heap <;> exact same.trans ⟨⟨rfl, rfl, rfl, rfl⟩, rfl, rfl⟩
  caught context start := by
    intro machine same
    unfold Exec.onHeap
    dsimp only
    cases action machine.heap <;> exact same
  unmetered module limits other machine := by
    unfold Exec.onHeap
    dsimp only
    cases action machine.heap <;> exact ⟨rfl, rfl⟩

theorem readHeap (query : Heap → Except Error α) : Steady (readHeap query) :=
  .bind .get fun _ => .ofExcept _

theorem attempt {action : Exec α} (kept : Steady action) : Steady (attempt action) where
  keeps context start := by
    intro machine same
    have after := kept.keeps context start machine same
    unfold Exec.attempt
    cases ran : action context machine <;> rw [ran] at after <;> exact after
  caught context start := by
    intro machine same
    have after := kept.caught context start machine same
    unfold Exec.attempt
    cases ran : action context machine <;> rw [ran] at after <;> exact after
  unmetered := kept.unmetered.attempt

end Steady

/-! ## Objects -/

theorem steady_allocate (object : HeapObject) : Steady (allocate object) :=
  .bind (.onHeap _) fun _ => .pure _

theorem steady_newString (text : String) : Steady (newString text) :=
  steady_allocate _

theorem steady_stringText? (value : Value) : Steady (stringText? value) := by
  refine .bind (.ofExcept _) fun reference? => ?_
  cases reference? with
  | some reference => exact .bind (.readHeap _) fun _ => .pure _
  | none => exact .pure _

theorem steady_newObject (type : Token) : Steady (newObject type) := by
  refine .bind .module fun module => ?_
  split
  · exact .ofExcept _
  · exact .bind (.ofExcept _) fun _ => steady_allocate _

theorem steady_newException (type : Token) (message? : Option String) :
    Steady (newException type message?) := by
  refine .bind (steady_newObject type) fun object => .bind (.ofExcept _) fun exception? => ?_
  cases exception? with
  | none => exact .throw _
  | some exception =>
      cases message? with
      | none => exact .pure _
      | some message =>
          exact .bind (steady_newString _) fun _ => .bind (.onHeap _) fun _ => .pure _

theorem steady_raise {α : Type} (type : Token) (message? : Option String) :
    Steady (raise type message? : Exec α) :=
  .bind (steady_newException _ _) fun _ => .throw _

theorem steady_nullReference {α : Type} : Steady (nullReference : Exec α) :=
  steady_raise _ _

theorem steady_indexOutOfRange {α : Type} : Steady (indexOutOfRange : Exec α) :=
  steady_raise _ _

theorem steady_objectOf (value : Value) : Steady (objectOf value) := by
  refine .bind (.ofExcept _) fun reference? => ?_
  cases reference? with
  | some reference => exact .pure _
  | none => exact steady_nullReference

theorem steady_describeException (exception : HeapRef) :
    Steady (describeException exception) := by
  refine .bind (.readHeap _) fun type => .bind .module fun module =>
    .bind (.readHeap _) fun object => ?_
  have message {message? : Exec (Option String)} (kept : Steady message?) {name : String} :
      Steady (do
        let message? ← message?
        return (name, message?.getD s!"Exception of type '{name}' was thrown.")) :=
    .bind kept fun _ => .pure _
  cases object with
  | object type fields =>
      dsimp only
      cases fields.lookup Core.exceptionMessageField with
      | some text => exact message (steady_stringText? _)
      | none => exact message (.pure _)
  | _ => exact message (.pure _)

theorem steady_runtimeType? (value : Value) : Steady (runtimeType? value) := by
  cases value with
  | object reference => exact .bind (.readHeap _) fun _ => .pure _
  | _ => exact .pure _

theorem steady_box (type : Token) (value : Value) : Steady (box type value) := by
  refine .bind .module fun module => ?_
  split
  · exact steady_allocate _
  · exact .pure _

/-! ## Locations -/

theorem steady_loadStatic (field : Token) : Steady (loadStatic field) := by
  refine .bind .get fun machine => ?_
  split
  · exact .pure _
  · exact .bind .module fun _ => .ofExcept _

theorem steady_loadField (object : HeapRef) (field : Token) :
    Steady (loadField object field) :=
  .bind .module fun _ => .bind (.ofExcept _) fun _ => .readHeap _

theorem steady_load (pointer : Pointer) : Steady (load pointer) := by
  induction pointer with
  | localSlot frame index =>
      refine .bind .get fun machine => ?_
      split
      · exact .pure _
      · exact .throw _
  | argument frame index =>
      refine .bind .get fun machine => ?_
      split
      · exact .pure _
      · exact .throw _
  | element array index =>
      refine .bind (.readHeap _) fun value? => ?_
      split
      · exact .pure _
      · exact steady_indexOutOfRange
  | objectField object field => exact steady_loadField _ _
  | staticField field => exact steady_loadStatic _
  | boxed object => exact .bind (.readHeap _) fun _ => .pure _
  | valueField parent field ih => exact .bind ih fun _ => .ofExcept _

/-- A change of the slots of a frame that leaves them where they are. -/
theorem keeps_modifyFrame (index : Nat) {change : Frame → Frame}
    (shape : ∀ frame, (change frame).shape = frame.shape) (context : Context) (start : Machine) :
    Keeps start.Steady (modifyFrame index change context) := fun machine before =>
  before.trans ⟨⟨rfl, rfl, rfl, rfl⟩, rfl, machine.shapes_modify index shape⟩

theorem steady_modifyFrame (index : Nat) {change : Frame → Frame}
    (shape : ∀ frame, (change frame).shape = frame.shape)
    (caught : ∀ frame, (change frame).caught = frame.caught) :
    Steady (modifyFrame index change) where
  keeps context start := keeps_modifyFrame index shape context start
  caught _ _ machine before := before.trans (machine.caught_modify index caught)
  unmetered _ _ _ _ := ⟨rfl, rfl⟩

theorem steady_store (pointer : Pointer) (value : Value) :
    Steady (store pointer value) := by
  induction pointer generalizing value with
  | localSlot frame index =>
      refine .bind .get fun machine => ?_
      split
      · exact steady_modifyFrame _ (fun _ => by simp [Frame.shape]) fun _ => rfl
      · exact .throw _
  | argument frame index =>
      refine .bind .get fun machine => ?_
      split
      · exact steady_modifyFrame _ (fun _ => by simp [Frame.shape]) fun _ => rfl
      · exact .throw _
  | element array index =>
      refine .bind (.onHeap _) fun inside => ?_
      split
      · exact .pure _
      · exact steady_indexOutOfRange
  | objectField object field => exact .onHeap _
  | staticField field => exact .modify fun _ => ⟨⟨rfl, rfl, rfl, rfl⟩, rfl, rfl⟩
  | boxed object => exact .onHeap _
  | valueField parent field ih =>
      exact .bind (steady_load _) fun _ => .bind (.ofExcept _) fun _ => ih _

/-! ## Operands and the stack -/

variable {α : Type} (instruction : Instruction)

theorem steady_operand (operand? : Option α) : Steady (operand instruction operand?) := by
  cases operand? with
  | some operand => exact .pure _
  | none => exact .throw _

theorem steady_tokenOperand : Steady (tokenOperand instruction) :=
  steady_operand _ _

theorem steady_branchTarget : Steady (branchTarget instruction) :=
  steady_operand _ _

theorem steady_pop (stack : List Value) : Steady (pop instruction stack) := by
  cases stack with
  | cons value rest => exact .pure _
  | nil => exact .throw _

theorem steady_popPair (stack : List Value) : Steady (popPair instruction stack) :=
  .bind (steady_pop _ _) fun _ => .bind (steady_pop _ _) fun _ => .pure _

theorem steady_popArguments (count : Nat) (stack : List Value) :
    Steady (popArguments instruction count stack) := by
  unfold popArguments
  split
  · exact .throw _
  · exact .pure _

theorem steady_orFault (outcome : Except Fault α) :
    Steady (orFault instruction outcome) := by
  cases outcome with
  | ok result => exact .pure _
  | error fault =>
      cases fault with
      | divideByZero => exact steady_raise _ _
      | overflow => exact steady_raise _ _
      | mismatch complaint => exact .throw _

/-! ## Arguments, locals and fields -/

theorem steady_frameAt (frame : Nat) : Steady (frameAt frame) := by
  refine .bind .get fun machine => ?_
  split
  · exact .pure _
  · exact .throw _

theorem steady_loadArgument (frame : Nat) : Steady (loadArgument frame instruction) := by
  refine .bind (steady_operand _ _) fun index => .bind (steady_frameAt _) fun slots => ?_
  split
  · exact .pure _
  · exact .throw _

theorem steady_loadLocal (frame : Nat) : Steady (loadLocal frame instruction) := by
  refine .bind (steady_operand _ _) fun index => .bind (steady_frameAt _) fun slots => ?_
  split
  · exact .pure _
  · exact .throw _

theorem steady_storeArgument (frame : Nat) (stack : List Value) :
    Steady (storeArgument frame instruction stack) := by
  refine .bind (steady_operand _ _) fun index => .bind (steady_pop _ _) fun popped =>
    .bind (steady_frameAt _) fun slots => ?_
  split
  · exact .bind (steady_modifyFrame _ (fun _ => by simp [Frame.shape]) fun _ => rfl) fun _ => .pure _
  · exact .throw _

theorem steady_storeLocal (frame : Nat) (stack : List Value) :
    Steady (storeLocal frame instruction stack) := by
  refine .bind (steady_operand _ _) fun index => .bind (steady_pop _ _) fun popped =>
    .bind (steady_frameAt _) fun slots => ?_
  split
  · exact .bind (steady_modifyFrame _ (fun _ => by simp [Frame.shape]) fun _ => rfl) fun _ => .pure _
  · exact .throw _

theorem steady_loadFieldOf (field : Token) (owner : Value) :
    Steady (loadFieldOf instruction field owner) := by
  cases owner with
  | null => exact steady_nullReference
  | object object => exact steady_loadField _ _
  | pointer location =>
      refine .bind (steady_load _) fun inside => ?_
      cases inside with
      | object object => exact steady_loadField _ _
      | null => exact steady_nullReference
      | _ => exact .ofExcept _
  | record type fields => exact .ofExcept _
  | _ => exact .throw _

theorem steady_fieldAddress (field : Token) (owner : Value) :
    Steady (fieldAddress instruction field owner) := by
  cases owner with
  | null => exact steady_nullReference
  | object object => exact .pure _
  | pointer location => exact .pure _
  | _ => exact .throw _

theorem steady_storeFieldOf (field : Token) (owner value : Value) :
    Steady (storeFieldOf instruction field owner value) := by
  cases owner with
  | null => exact steady_nullReference
  | object object => exact .onHeap _
  | pointer location => exact steady_store _ _
  | _ => exact .throw _

/-! ## Boxes, casts and arrays -/

theorem steady_isInstanceOf (value : Value) (type : Token) :
    Steady (isInstanceOf value type) := by
  refine .bind (steady_runtimeType? _) fun type? => ?_
  cases type? with
  | some runtimeType => exact .bind .module fun _ => .pure _
  | none => exact .pure _

theorem steady_invalidCast (value : Value) (type : Token) :
    Steady (invalidCast value type : Exec α) := by
  have source : Steady (castSource value) := by
    refine .bind (.attempt (steady_runtimeType? _)) fun type? => ?_
    split
    · exact .bind .module fun _ => .pure _
    · exact .pure _
  exact .bind source fun _ => .bind .module fun _ => steady_raise _ _

theorem steady_boxOf (value : Value) (type : Token) : Steady (boxOf value type) := by
  refine .bind (steady_objectOf _) fun reference => .bind (.readHeap _) fun object => ?_
  cases object with
  | boxed boxedType payload =>
      dsimp only
      split
      · exact .pure _
      · exact steady_invalidCast _ _
  | _ => exact steady_invalidCast _ _

theorem steady_unboxAny (value : Value) (type : Token) : Steady (unboxAny value type) := by
  refine .bind .module fun module => ?_
  split
  · exact .bind (steady_boxOf _ _) fun _ => .bind (.readHeap _) fun _ => .pure _
  split
  · exact .pure _
  refine .bind (steady_isInstanceOf _ _) fun isInstance => ?_
  split
  · exact .pure _
  · exact .bind (steady_invalidCast _ _) fun _ => .pure _

theorem steady_cast (throws : Bool) (value : Value) (type : Token) :
    Steady (cast throws value type) := by
  unfold cast
  split
  · exact .pure _
  refine .bind (steady_isInstanceOf _ _) fun isInstance => ?_
  split
  · exact .pure _
  split
  · exact steady_invalidCast _ _
  · exact .pure _

theorem steady_newArray (length : Int64) (elementType : Token) :
    Steady (newArray length elementType) := by
  have array : Steady (do
      let module ← module
      let signature ← ofExcept (module.typeSig elementType)
      let zero ← ofExcept (module.zero signature)
      allocate (.array signature (Array.replicate length.toInt.toNat zero))) :=
    .bind .module fun _ => .bind (.ofExcept _) fun _ => .bind (.ofExcept _) fun _ =>
      steady_allocate _
  unfold newArray
  split
  · exact .bind (steady_raise _ _) fun _ => array
  · exact array

theorem steady_arrayLength (array : Value) : Steady (arrayLength array) :=
  .bind (steady_objectOf _) fun _ => .bind (.readHeap _) fun _ => .pure _

theorem steady_popElementAddress (stack : List Value) :
    Steady (popElementAddress instruction stack) := by
  refine .bind (steady_pop _ _) fun index => .bind (.ofExcept _) fun index =>
    .bind (steady_pop _ _) fun array => .bind (steady_objectOf _) fun reference =>
    .bind (.readHeap _) fun length => ?_
  split
  · exact .pure _
  · exact steady_indexOutOfRange

theorem steady_rethrown (frame : Nat) (clauses : List Clause) :
    Steady (rethrown frame clauses instruction) := by
  refine .bind (steady_frameAt _) fun slots => ?_
  dsimp only
  split
  · exact .pure _
  · exact .throw _

/-! ## Instructions -/

theorem steady_stepStraight (run : Runner) (scope : Scope) (frame : Nat)
    (constraint? : Option Token) (stack : List Value) {action : Action}
    (stays : action.reaches = false) :
    Steady (stepStraight run scope frame instruction constraint? stack action) := by
  cases action with
  | loadNull => exact .pure _
  | loadInt32 | loadInt64 | loadFloat =>
      exact .bind (steady_operand _ _) fun _ => .pure _
  | loadString =>
      exact .bind .module fun _ => .bind (steady_tokenOperand _) fun _ =>
        .bind (.ofExcept _) fun _ => .bind (steady_newString _) fun _ => .pure _
  | duplicate | discard => exact .bind (steady_pop _ _) fun _ => .pure _
  | loadArgument => exact .bind (steady_loadArgument _ _) fun _ => .pure _
  | loadArgumentAddress | loadLocalAddress =>
      exact .bind (steady_operand _ _) fun _ => .pure _
  | storeArgument => exact steady_storeArgument _ _ _
  | loadLocal => exact .bind (steady_loadLocal _ _) fun _ => .pure _
  | storeLocal => exact steady_storeLocal _ _ _
  | binary op | shift op | compare condition =>
      exact .bind (steady_popPair _ _) fun _ => .bind (steady_orFault _ _) fun _ => .pure _
  | unary op | convert conversion =>
      exact .bind (steady_pop _ _) fun _ => .bind (steady_orFault _ _) fun _ => .pure _
  | call | callVirtual | construct | loadFunction | loadVirtualFunction | callIndirect =>
      cases stays
  | loadField =>
      exact .bind (steady_tokenOperand _) fun _ => .bind (steady_pop _ _) fun _ =>
        .bind (steady_loadFieldOf _ _ _) fun _ => .pure _
  | loadFieldAddress =>
      exact .bind (steady_tokenOperand _) fun _ => .bind (steady_pop _ _) fun _ =>
        .bind (steady_fieldAddress _ _ _) fun _ => .pure _
  | storeField =>
      exact .bind (steady_tokenOperand _) fun _ => .bind (steady_popPair _ _) fun _ =>
        .bind (steady_storeFieldOf _ _ _ _) fun _ => .pure _
  | loadStatic =>
      exact .bind (steady_tokenOperand _) fun _ => .bind (steady_loadStatic _) fun _ =>
        .pure _
  | loadStaticAddress => exact .bind (steady_tokenOperand _) fun _ => .pure _
  | storeStatic =>
      exact .bind (steady_pop _ _) fun _ => .bind (steady_tokenOperand _) fun _ =>
        .bind (.modify fun _ => ⟨⟨rfl, rfl, rfl, rfl⟩, rfl, rfl⟩) fun _ => .pure _
  | box =>
      exact .bind (steady_pop _ _) fun _ => .bind (steady_tokenOperand _) fun _ =>
        .bind (steady_box _ _) fun _ => .pure _
  | unbox =>
      exact .bind (steady_tokenOperand _) fun _ => .bind (steady_pop _ _) fun _ =>
        .bind (steady_boxOf _ _) fun _ => .pure _
  | unboxAny =>
      exact .bind (steady_tokenOperand _) fun _ => .bind (steady_pop _ _) fun _ =>
        .bind (steady_unboxAny _ _) fun _ => .pure _
  | cast throws =>
      exact .bind (steady_tokenOperand _) fun _ => .bind (steady_pop _ _) fun _ =>
        .bind (steady_cast _ _ _) fun _ => .pure _
  | setToZero =>
      exact .bind (steady_pop _ _) fun _ => .bind .module fun _ =>
        .bind (steady_tokenOperand _) fun _ => .bind (.ofExcept _) fun _ =>
        .bind (.ofExcept _) fun _ => .bind (steady_store _ _) fun _ => .pure _
  | loadIndirect width? =>
      refine .bind (steady_pop _ _) fun _ => .bind (.ofExcept _) fun _ =>
        .bind (steady_load _) fun value => ?_
      cases width? with
      | some width => exact .bind (steady_orFault _ _) fun _ => .pure _
      | none => exact .pure _
  | storeIndirect width? =>
      refine .bind (steady_popPair _ _) fun popped => ?_
      have stored (value : Value) : Steady (do
          store (← ofExcept popped.1.asPointer) value
          return popped.2.2) :=
        .bind (.ofExcept _) fun _ => .bind (steady_store _ _) fun _ => .pure _
      cases width? with
      | some width => exact .bind (steady_orFault _ _) fun _ => stored _
      | none => exact .bind (.pure _) fun _ => stored _
  | newArray =>
      exact .bind (steady_pop _ _) fun _ => .bind (.ofExcept _) fun _ =>
        .bind (steady_tokenOperand _) fun _ => .bind (steady_newArray _ _) fun _ => .pure _
  | arrayLength =>
      exact .bind (steady_pop _ _) fun _ => .bind (steady_arrayLength _) fun _ => .pure _
  | loadElementAddress => exact .bind (steady_popElementAddress _ _) fun _ => .pure _
  | loadElement =>
      exact .bind (steady_popElementAddress _ _) fun _ => .bind (steady_load _) fun _ =>
        .pure _
  | storeElement =>
      exact .bind (steady_pop _ _) fun _ => .bind (steady_popElementAddress _ _) fun _ =>
        .bind (steady_store _ _) fun _ => .pure _
  | _ => exact .pure _

section Step

variable {instruction} (run : Runner) (clauses : List Clause) (scope : Scope) (frame : Nat)
  (constraint? : Option Token) (stack : List Value)

/-- An instruction that calls something or makes a function pointer goes on with the next. -/
theorem step_of_reaches {action : Action} (acts : instruction.opcode.action? = some action)
    (reaches : action.reaches) :
    step run clauses scope frame instruction constraint? stack = (do
      return .next (← stepStraight run scope frame instruction constraint? stack action)) := by
  unfold step
  rw [acts]
  cases action <;> first | rfl | cases reaches

theorem steady_step
    (stays : ∀ action, instruction.opcode.action? = some action → action.reaches = false) :
    Steady (step run clauses scope frame instruction constraint? stack) := by
  unfold step
  cases acts : instruction.opcode.action? with
  | none => exact .throw _
  | some action =>
      have straight : Steady (do
          let stack ← stepStraight run scope frame instruction constraint? stack action
          return Effect.next stack) :=
        .bind (steady_stepStraight _ _ _ _ _ _ (stays action acts)) fun _ => .pure _
      cases action with
      | mark => exact .pure _
      | constrain => exact .bind (steady_tokenOperand _) fun _ => .pure _
      | returnValue => exact .pure _
      | jump | leave => exact .bind (steady_branchTarget _) fun _ => .pure _
      | jumpIf expected =>
          refine .bind (steady_pop _ _) fun popped => ?_
          dsimp only
          split
          · exact .bind (steady_branchTarget _) fun _ => .pure _
          · exact .pure _
      | jumpWhen condition =>
          refine .bind (steady_popPair _ _) fun popped =>
            .bind (steady_orFault _ _) fun holds => ?_
          split
          · exact .bind (steady_branchTarget _) fun _ => .pure _
          · exact .pure _
      | select =>
          refine .bind (steady_pop _ _) fun popped => .bind (.ofExcept _) fun selector => ?_
          split
          · exact .pure _
          · split
            · exact .pure _
            · exact .pure _
      | endFinally => exact .pure _
      | endFilter => exact .bind (steady_pop _ _) fun _ => .pure _
      | throw =>
          refine .bind (steady_pop _ _) fun popped => ?_
          split
          · exact .pure _
          · exact steady_nullReference
          · exact .throw _
      | rethrow => exact .bind (steady_rethrown _ _ _) fun _ => .pure _
      | _ => exact straight

/-- How calls are run matters only to instructions that call something. -/
theorem stepStraight_congr (other : Runner) {action : Action}
    (stays : action.reaches = false) :
    stepStraight run scope frame instruction constraint? stack action =
      stepStraight other scope frame instruction constraint? stack action := by
  cases action with
  | call | callVirtual | construct | loadFunction | loadVirtualFunction | callIndirect =>
      cases stays
  | _ => rfl

theorem step_congr (other : Runner)
    (stays : ∀ action, instruction.opcode.action? = some action → action.reaches = false) :
    step run clauses scope frame instruction constraint? stack =
      step other clauses scope frame instruction constraint? stack := by
  unfold step
  cases acts : instruction.opcode.action? with
  | none => rfl
  | some action =>
      have straight :
          stepStraight run scope frame instruction constraint? stack action =
            stepStraight other scope frame instruction constraint? stack action :=
        stepStraight_congr run scope frame constraint? stack other (stays action acts)
      cases action <;> simp only [straight]

end Step

end Exec

end Cil
