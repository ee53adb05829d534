import Cil.Proofs.Machine.Congruence
import Cil.Proofs.Machine.DataFailures

/-!
# What instructions fail with

What an instruction does before control goes on looks for no other instruction.  So it does not
fail because none starts at an offset, unless something that it calls does.
-/

namespace Cil

open Stateful
open MonadExcept (ofExcept)

variable {failure : Error → Prop}

namespace Exec

/-! ## Pieces of execution -/

/-- A piece of execution that fails with errors of a property only. -/
def Fails {α : Type} (failure : Error → Prop) (action : Exec α) : Prop :=
  ∀ context, FailsOnly failure (action context)

namespace Fails

variable {α β : Type}

theorem bind {first : Exec α} {next : α → Exec β} (firstFails : Fails failure first)
    (nextFails : ∀ value, Fails failure (next value)) : Fails failure (first >>= next) :=
  fun context => (firstFails context).bind fun value => nextFails value context

/-- What follows has to fail so only for the values that the first piece can have. -/
theorem bind_of {first : Exec α} {next : α → Exec β} (firstFails : Fails failure first)
    (nextFails : ∀ value, (∃ context start middle, first context start = .ok value middle) →
      Fails failure (next value)) : Fails failure (first >>= next) := by
  intro context start error final failed
  rw [bind_run] at failed
  cases ran : first context start with
  | ok value middle =>
      rw [ran] at failed
      exact nextFails value ⟨context, start, middle, ran⟩ context middle error final failed
  | error other middle =>
      rw [ran] at failed
      cases failed
      exact firstFails context start _ _ ran

theorem pure (value : α) : Fails failure (Pure.pure value) :=
  fun _ => .pure value

theorem throw {error : Error} (holds : failure error) : Fails failure (throw error : Exec α) :=
  fun _ => .throw holds

theorem get : Fails failure (MonadState.get : Exec Machine) :=
  fun _ => .get

theorem read : Fails failure (MonadReader.read : Exec Context) :=
  fun context => .pure context

theorem module : Fails failure Exec.module :=
  fun context => .pure context.module

theorem modify {change : Machine → Machine} : Fails failure (modify change : Exec PUnit) :=
  fun _ => .modifyGet _

theorem ofExcept {outcome : Except Error α} (errs : ErrsOnly failure outcome) :
    Fails failure (ofExcept outcome) := by
  cases outcome with
  | ok value => exact pure value
  | error error => exact throw (errs error rfl)

theorem readHeap {query : Heap → Except Error α} (errs : ∀ heap, ErrsOnly failure (query heap)) :
    Fails failure (readHeap query) :=
  .bind .get fun _ => .ofExcept (errs _)

theorem onHeap {action : HeapM α} (fails : FailsOnly failure action) :
    Fails failure (onHeap action) := by
  intro context start error final failed
  unfold Exec.onHeap at failed
  dsimp only at failed
  cases ran : action start.heap with
  | ok value heap => rw [ran] at failed; cases failed
  | error other heap =>
      rw [ran] at failed
      cases failed
      exact fails _ _ _ ran

theorem attempt (action : Exec α) : Fails failure (attempt action) := by
  intro context start error final failed
  unfold Exec.attempt at failed
  cases ran : action context start <;> rw [ran] at failed <;> cases failed

theorem catchThrown {action : Exec α} (fails : Fails failure action) :
    Fails failure (catchThrown action) := by
  intro context start error final failed
  unfold Exec.catchThrown at failed
  cases ran : action context start with
  | ok value middle => rw [ran] at failed; cases failed
  | error other middle =>
      rw [ran] at failed
      cases other <;> cases failed <;> exact fails context start _ _ ran

theorem andFinally {action : Exec α} {cleanUp : Machine → Machine} (fails : Fails failure action) :
    Fails failure (andFinally action cleanUp) := by
  intro context start error final failed
  unfold Exec.andFinally at failed
  cases ran : action context start with
  | ok value middle => rw [ran] at failed; cases failed
  | error other middle =>
      rw [ran] at failed
      cases failed
      exact fails context start _ _ ran

theorem discard {action : Exec α} (fails : Fails failure action) :
    Fails failure (discard action) := by
  intro context start error final failed
  change EStateM.map _ (action context) start = _ at failed
  unfold EStateM.map at failed
  cases ran : action context start with
  | ok value middle => rw [ran] at failed; cases failed
  | error other middle =>
      rw [ran] at failed
      cases failed
      exact fails context start _ _ ran

/-- A failure that is made an outcome may be thrown again. -/
theorem bind_attempt {action : Exec α} {next : Except Error α → Exec β}
    (fails : Fails failure action)
    (nextFails : ∀ outcome, ErrsOnly failure outcome → Fails failure (next outcome)) :
    Fails failure (Exec.attempt action >>= next) := by
  refine .bind_of (.attempt _) fun outcome ⟨context, start, middle, attempted⟩ =>
    nextFails outcome fun error isError => ?_
  subst isError
  unfold Exec.attempt at attempted
  cases ran : action context start with
  | ok value final => rw [ran] at attempted; cases attempted
  | error error final =>
      rw [ran] at attempted
      cases attempted
      exact fails context start _ _ ran

/-- A check stands in front of what follows. -/
theorem check {condition : Prop} [Decidable condition] {refuse : Exec α} {next : Exec β}
    (refuseFails : Fails failure refuse) (nextFails : Fails failure next) :
    Fails failure (if condition then refuse >>= fun _ => next else next) := by
  split
  · exact .bind refuseFails fun _ => nextFails
  · exact nextFails

end Fails

theorem fails_newFunction (callable : Callable) : Fails failure (newFunction callable) :=
  .bind (fun _ => .modifyGet _) fun _ => .pure _

theorem fails_withTemporary {initial : Value} {use : Pointer → Exec Unit}
    (uses : ∀ location, Fails failure (use location)) :
    Fails failure (withTemporary initial use) :=
  .bind .get fun _ => .bind .modify fun _ => .bind_attempt (uses _) fun _ errs =>
    .bind .get fun _ => .bind .modify fun _ => .bind (.ofExcept errs) fun _ => .pure _

section Others

variable {α : Type} (others : AllowsOthers failure)

include others

theorem fails_other {error : Error} (isOther : error.isStray = false) :
    Fails failure (throw error : Exec α) :=
  .throw (others _ isOther)

/-! ### Objects -/

theorem fails_allocate (object : HeapObject) : Fails failure (allocate object) :=
  .bind (.onHeap (others.failsOnly_allocate _)) fun _ => .pure _

theorem fails_newObject (type : Token) : Fails failure (newObject type) := by
  refine .bind .module fun module => ?_
  split
  · exact .ofExcept (others.errs_zeroOfType _ _)
  · exact .bind (.ofExcept (others.errs_zeroFields _ _)) fun _ => fails_allocate others _

theorem fails_newException (type : Token) (message? : Option String) :
    Fails failure (newException type message?) := by
  refine .bind (fails_newObject others type) fun object =>
    .bind (.ofExcept (others.errs_asObject _)) fun exception? => ?_
  cases exception? with
  | none => exact fails_other others rfl
  | some exception =>
      cases message? with
      | none => exact .pure _
      | some message =>
          exact .bind (fails_allocate others _) fun _ =>
            .bind (.onHeap (others.failsOnly_setField _ _ _)) fun _ => .pure _

theorem fails_raise (type : Token) (message? : Option String) :
    Fails failure (raise type message? : Exec α) :=
  .bind (fails_newException others _ _) fun _ => fails_other others rfl

theorem fails_nullReference : Fails failure (nullReference : Exec α) :=
  fails_raise others _ _

theorem fails_indexOutOfRange : Fails failure (indexOutOfRange : Exec α) :=
  fails_raise others _ _

theorem fails_objectOf (value : Value) : Fails failure (objectOf value) := by
  refine .bind (.ofExcept (others.errs_asObject _)) fun reference? => ?_
  cases reference? with
  | some reference => exact .pure _
  | none => exact fails_nullReference others

theorem fails_runtimeType? (value : Value) : Fails failure (runtimeType? value) := by
  cases value with
  | object reference => exact .bind (.readHeap fun _ => others.errs_typeOf _ _) fun _ => .pure _
  | _ => exact .pure _

theorem fails_box (type : Token) (value : Value) : Fails failure (box type value) := by
  refine .bind .module fun module => ?_
  split
  · exact fails_allocate others _
  · exact .pure _

/-! ### Locations -/

theorem fails_loadStatic (field : Token) : Fails failure (loadStatic field) := by
  refine .bind .get fun machine => ?_
  split
  · exact .pure _
  · exact .bind .module fun _ => .ofExcept (others.errs_zeroOfField _ _)

theorem fails_loadField (object : HeapRef) (field : Token) :
    Fails failure (loadField object field) :=
  .bind .module fun _ => .bind (.ofExcept (others.errs_zeroOfField _ _)) fun _ =>
    .readHeap fun _ => others.errs_fieldOfObject _ _ _ _

theorem fails_load (pointer : Pointer) : Fails failure (load pointer) := by
  induction pointer with
  | localSlot frame index | argument frame index =>
      refine .bind .get fun machine => ?_
      split
      · exact .pure _
      · exact fails_other others rfl
  | element array index =>
      refine .bind (.readHeap fun _ => others.errs_element _ _ _) fun value? => ?_
      split
      · exact .pure _
      · exact fails_indexOutOfRange others
  | objectField object field => exact fails_loadField others _ _
  | staticField field => exact fails_loadStatic others _
  | boxed object => exact .bind (.readHeap fun _ => others.errs_unbox _ _) fun _ => .pure _
  | valueField parent field ih => exact .bind ih fun _ => .ofExcept (others.errs_fieldOfValue _ _)

theorem fails_store (pointer : Pointer) (value : Value) : Fails failure (store pointer value) := by
  induction pointer generalizing value with
  | localSlot frame index | argument frame index =>
      refine .bind .get fun machine => ?_
      split
      · exact .modify
      · exact fails_other others rfl
  | element array index =>
      refine .bind (.onHeap (others.failsOnly_setElement _ _ _)) fun inside => ?_
      split
      · exact .pure _
      · exact fails_indexOutOfRange others
  | objectField object field => exact .onHeap (others.failsOnly_setField _ _ _)
  | staticField field => exact .modify
  | boxed object => exact .onHeap (others.failsOnly_setBoxed _ _)
  | valueField parent field ih =>
      exact .bind (fails_load others _) fun _ =>
        .bind (.ofExcept (others.errs_setFieldOfValue _ _ _)) fun _ => ih _

/-! ### Operands and the stack -/

variable (instruction : Instruction)

theorem fails_operand (operand? : Option α) : Fails failure (operand instruction operand?) := by
  cases operand? with
  | some operand => exact .pure _
  | none => exact fails_other others rfl

theorem fails_tokenOperand : Fails failure (tokenOperand instruction) :=
  fails_operand others _ _

theorem fails_branchTarget : Fails failure (branchTarget instruction) :=
  fails_operand others _ _

theorem fails_pop (stack : List Value) : Fails failure (pop instruction stack) := by
  cases stack with
  | cons value rest => exact .pure _
  | nil => exact fails_other others rfl

theorem fails_popPair (stack : List Value) : Fails failure (popPair instruction stack) :=
  .bind (fails_pop others _ _) fun _ => .bind (fails_pop others _ _) fun _ => .pure _

theorem fails_popArguments (count : Nat) (stack : List Value) :
    Fails failure (popArguments instruction count stack) := by
  unfold popArguments
  split
  · exact fails_other others rfl
  · exact .pure _

theorem fails_orFault (outcome : Except Fault α) : Fails failure (orFault instruction outcome) := by
  cases outcome with
  | ok result => exact .pure _
  | error fault =>
      cases fault with
      | divideByZero | overflow => exact fails_raise others _ _
      | mismatch complaint => exact fails_other others rfl

/-! ### Arguments, locals and fields -/

theorem fails_frameAt (frame : Nat) : Fails failure (frameAt frame) := by
  refine .bind .get fun machine => ?_
  split
  · exact .pure _
  · exact fails_other others rfl

theorem fails_loadArgument (frame : Nat) : Fails failure (loadArgument frame instruction) := by
  refine .bind (fails_operand others _ _) fun index =>
    .bind (fails_frameAt others _) fun slots => ?_
  split
  · exact .pure _
  · exact fails_other others rfl

theorem fails_loadLocal (frame : Nat) : Fails failure (loadLocal frame instruction) := by
  refine .bind (fails_operand others _ _) fun index =>
    .bind (fails_frameAt others _) fun slots => ?_
  split
  · exact .pure _
  · exact fails_other others rfl

theorem fails_storeArgument (frame : Nat) (stack : List Value) :
    Fails failure (storeArgument frame instruction stack) := by
  refine .bind (fails_operand others _ _) fun index => .bind (fails_pop others _ _) fun popped =>
    .bind (fails_frameAt others _) fun slots => ?_
  split
  · exact .bind .modify fun _ => .pure _
  · exact fails_other others rfl

theorem fails_storeLocal (frame : Nat) (stack : List Value) :
    Fails failure (storeLocal frame instruction stack) := by
  refine .bind (fails_operand others _ _) fun index => .bind (fails_pop others _ _) fun popped =>
    .bind (fails_frameAt others _) fun slots => ?_
  split
  · exact .bind .modify fun _ => .pure _
  · exact fails_other others rfl

theorem fails_loadFieldOf (field : Token) (owner : Value) :
    Fails failure (loadFieldOf instruction field owner) := by
  cases owner with
  | null => exact fails_nullReference others
  | object object => exact fails_loadField others _ _
  | pointer location =>
      refine .bind (fails_load others _) fun inside => ?_
      cases inside with
      | object object => exact fails_loadField others _ _
      | null => exact fails_nullReference others
      | _ => exact .ofExcept (others.errs_fieldOfValue _ _)
  | record type fields => exact .ofExcept (others.errs_fieldOfValue _ _)
  | _ => exact fails_other others rfl

theorem fails_fieldAddress (field : Token) (owner : Value) :
    Fails failure (fieldAddress instruction field owner) := by
  cases owner with
  | null => exact fails_nullReference others
  | object object => exact .pure _
  | pointer location => exact .pure _
  | _ => exact fails_other others rfl

theorem fails_storeFieldOf (field : Token) (owner value : Value) :
    Fails failure (storeFieldOf instruction field owner value) := by
  cases owner with
  | null => exact fails_nullReference others
  | object object => exact .onHeap (others.failsOnly_setField _ _ _)
  | pointer location => exact fails_store others _ _
  | _ => exact fails_other others rfl

/-! ### Boxes, casts and arrays -/

theorem fails_isInstanceOf (value : Value) (type : Token) :
    Fails failure (isInstanceOf value type) := by
  refine .bind (fails_runtimeType? others _) fun type? => ?_
  cases type? with
  | some runtimeType => exact .bind .module fun _ => .pure _
  | none => exact .pure _

theorem fails_invalidCast (value : Value) (type : Token) :
    Fails failure (invalidCast value type : Exec α) := by
  have source : Fails failure (castSource value) := by
    refine .bind (.attempt _) fun type? => ?_
    split
    · exact .bind .module fun _ => .pure _
    · exact .pure _
  exact .bind source fun _ => .bind .module fun _ => fails_raise others _ _

theorem fails_boxOf (value : Value) (type : Token) : Fails failure (boxOf value type) := by
  refine .bind (fails_objectOf others _) fun reference =>
    .bind (.readHeap fun _ => others.errs_get _ _) fun object => ?_
  cases object with
  | boxed boxedType payload =>
      dsimp only
      split
      · exact .pure _
      · exact fails_invalidCast others _ _
  | _ => exact fails_invalidCast others _ _

theorem fails_unboxAny (value : Value) (type : Token) : Fails failure (unboxAny value type) := by
  refine .bind .module fun module => ?_
  split
  · exact .bind (fails_boxOf others _ _) fun _ =>
      .bind (.readHeap fun _ => others.errs_unbox _ _) fun _ => .pure _
  split
  · exact .pure _
  refine .bind (fails_isInstanceOf others _ _) fun isInstance => ?_
  split
  · exact .pure _
  · exact .bind (fails_invalidCast others _ _) fun _ => .pure _

theorem fails_cast (throws : Bool) (value : Value) (type : Token) :
    Fails failure (cast throws value type) := by
  unfold cast
  split
  · exact .pure _
  refine .bind (fails_isInstanceOf others _ _) fun isInstance => ?_
  split
  · exact .pure _
  split
  · exact fails_invalidCast others _ _
  · exact .pure _

theorem fails_newArray (length : Int64) (elementType : Token) :
    Fails failure (newArray length elementType) :=
  .check (fails_raise others _ _) <| .bind .module fun _ =>
    .bind (.ofExcept (others.errs_typeSig _ _)) fun _ =>
    .bind (.ofExcept (others.errs_zero _ _)) fun _ => fails_allocate others _

theorem fails_arrayLength (array : Value) : Fails failure (arrayLength array) :=
  .bind (fails_objectOf others _) fun _ =>
    .bind (.readHeap fun _ => others.errs_length _ _) fun _ => .pure _

theorem fails_popElementAddress (stack : List Value) :
    Fails failure (popElementAddress instruction stack) := by
  refine .bind (fails_pop others _ _) fun index =>
    .bind (.ofExcept (others.errs_asInt64 _)) fun index =>
    .bind (fails_pop others _ _) fun array => .bind (fails_objectOf others _) fun reference =>
    .bind (.readHeap fun _ => others.errs_length _ _) fun length => ?_
  split
  · exact .pure _
  · exact fails_indexOutOfRange others

theorem fails_rethrown (frame : Nat) (clauses : List Clause) :
    Fails failure (rethrown frame clauses instruction) := by
  refine .bind (fails_frameAt others _) fun slots => ?_
  dsimp only
  split
  · exact .pure _
  · exact fails_other others rfl

/-! ### Calls -/

theorem fails_callTarget (scope : Scope) (token : Token) :
    Fails failure (callTarget scope token) := by
  have method (token : Token) :
      Fails failure (do return CallTarget.method (← ofExcept ((← module).method token))) :=
    .bind .module fun _ => .bind (.ofExcept (others.errs_method _ _)) fun _ => .pure _
  unfold callTarget
  split
  · split
    · exact .pure _
    · exact method _
    · exact fails_other others rfl
  · exact method _

theorem fails_virtualTarget (receiver : Value) (method : MethodDef) :
    Fails failure (virtualTarget receiver method) := by
  refine .check (fails_nullReference others) (.bind (fails_runtimeType? others _) fun type? => ?_)
  cases type? with
  | some type => exact .bind .module fun _ => .ofExcept (others.errs_resolveVirtual _ _ _)
  | none => exact .pure _

theorem fails_executable (method : MethodDef) : Fails failure (executable method) := by
  have decodes : Fails failure (decoded method) := by
    refine .bind .get fun machine => ?_
    split
    · exact .pure _
    · exact .bind .module fun _ => .bind (.ofExcept (others.errs_codeOfMethod _ _)) fun _ =>
        .bind .modify fun _ => .pure _
  refine .bind_attempt decodes fun outcome errs => ?_
  cases outcome with
  | ok code => exact .pure _
  | error error =>
      cases error with
      | unreadableMethodBody _ => exact .bind .module fun _ => fails_other others rfl
      | _ => exact .throw (errs _ rfl)

variable {run : Runner} (runs : ∀ activation, Fails failure (run activation))

include runs

theorem fails_callMethod (method : MethodDef) (arguments : List Value) :
    Fails failure (callMethod run method arguments) := by
  have body : Fails failure (do run (.code (← executable method) {} arguments)) :=
    .bind (fails_executable others _) fun _ => runs _
  refine .bind .get fun machine => ?_
  split
  · exact runs _
  · split
    · exact .bind .module fun _ => .bind (fails_other others rfl) fun _ => body
    · exact body

theorem fails_invoke (callable : Callable) (arguments : List Value) :
    Fails failure (invoke run callable arguments) := by
  cases callable with
  | method definition => exact fails_callMethod others runs _ _
  | dynamic assembled => exact runs _
  | native provided => exact runs _

theorem fails_callVirtual (method : MethodDef) (arguments : List Value) :
    Fails failure (callVirtual run method arguments) := by
  cases arguments with
  | nil => exact fails_other others rfl
  | cons receiver rest =>
      have type? : Fails failure (receiverType? receiver) := by
        unfold receiverType?
        split
        · exact .bind (fails_load others _) fun _ => fails_runtimeType? others _
        · exact fails_runtimeType? others _
      refine .check (fails_nullReference others) (.bind type? fun type? => ?_)
      cases type? with
      | none => exact fails_callMethod others runs _ _
      | some type =>
          exact .bind .module fun _ => .bind (.ofExcept (others.errs_resolveVirtual _ _ _))
            fun _ => fails_callMethod others runs _ _

theorem fails_callConstrained (constraint : Token) (method : MethodDef) (arguments : List Value) :
    Fails failure (callConstrained run constraint method arguments) := by
  unfold callConstrained
  split
  · refine .bind .module fun module => ?_
    split
    · exact .bind (fails_load others _) fun _ => fails_callVirtual others runs _ _
    · refine .bind (.ofExcept (others.errs_resolveVirtual _ _ _)) fun target => ?_
      split
      · exact fails_callMethod others runs _ _
      · exact .bind (fails_load others _) fun _ => .bind (fails_box others _ _) fun _ =>
          fails_callVirtual others runs _ _
  · exact fails_callVirtual others runs _ _

theorem fails_construct (constructor : MethodDef) (arguments : List Value) :
    Fails failure (construct run constructor arguments) := by
  refine .bind .module fun module => ?_
  dsimp only
  split
  · exact .bind (.ofExcept (others.errs_zero _ _)) fun _ => fails_withTemporary fun _ =>
      .discard (fails_callMethod others runs _ _)
  · exact .bind (fails_newObject others _) fun _ =>
      .bind (.discard (fails_callMethod others runs _ _)) fun _ => .pure _

/-! ### Instructions -/

theorem fails_stepIndirectCall (stack : List Value) :
    Fails failure (stepIndirectCall run instruction stack) := by
  refine .bind .module fun module => .bind (fails_tokenOperand others _) fun token =>
    .bind (.ofExcept (others.errs_standAloneSignature _ _)) fun signature => ?_
  cases signature with
  | locals slots => exact fails_other others rfl
  | method site =>
      have function (machine : Machine) (pointer : FunctionPointer) :
          ErrsOnly failure (machine.function pointer) := by
        unfold Machine.function
        split
        · exact .ok _
        · exact .error (others _ rfl)
      refine .bind (fails_pop others _ _) fun popped => ?_
      split
      · exact .bind (fails_popArguments others _ _ _) fun _ => .bind .get fun _ =>
          .bind (.ofExcept (function _ _)) fun _ => .bind (fails_invoke others runs _ _) fun _ =>
          .pure _
      · exact fails_other others rfl

theorem fails_stepCall (scope : Scope) (constraint? : Option Token) (stack : List Value) :
    Fails failure (stepCall run scope instruction constraint? stack) := by
  have popped (count : Nat) : Fails failure (popArguments instruction count stack) :=
    fails_popArguments others _ _ _
  refine .bind (fails_tokenOperand others _) fun token =>
    .bind (fails_callTarget others _ _) fun target => ?_
  cases target with
  | native provided => exact .bind (popped _) fun _ => .bind (runs _) fun _ => .pure _
  | method method =>
      dsimp only
      split
      · exact .bind (popped _) fun _ => .bind (fails_construct others runs _ _) fun _ => .pure _
      · exact .bind (fails_newFunction _) fun _ => .pure _
      · exact .bind (fails_pop others _ _) fun _ => .bind (fails_virtualTarget others _ _) fun _ =>
          .bind (fails_newFunction _) fun _ => .pure _
      · refine .bind (popped _) fun arguments => ?_
        split
        · exact .bind (fails_callConstrained others runs _ _ _) fun _ => .pure _
        · exact .bind (fails_callVirtual others runs _ _) fun _ => .pure _
        · exact .bind (fails_callMethod others runs _ _) fun _ => .pure _

theorem fails_stepStraight (scope : Scope) (frame : Nat) (constraint? : Option Token)
    (stack : List Value) (action : Action) :
    Fails failure (stepStraight run scope frame instruction constraint? stack action) := by
  have pop := fails_pop others instruction
  have popPair := fails_popPair others instruction
  have token := fails_tokenOperand others instruction
  cases action with
  | loadNull => exact .pure _
  | loadInt32 | loadInt64 | loadFloat =>
      exact .bind (fails_operand others _ _) fun _ => .pure _
  | loadString =>
      exact .bind .module fun _ => .bind token fun _ =>
        .bind (.ofExcept (others.errs_userString _ _)) fun _ =>
        .bind (fails_allocate others _) fun _ => .pure _
  | duplicate | discard => exact .bind (pop _) fun _ => .pure _
  | loadArgument => exact .bind (fails_loadArgument others _ _) fun _ => .pure _
  | loadArgumentAddress | loadLocalAddress =>
      exact .bind (fails_operand others _ _) fun _ => .pure _
  | storeArgument => exact fails_storeArgument others _ _ _
  | loadLocal => exact .bind (fails_loadLocal others _ _) fun _ => .pure _
  | storeLocal => exact fails_storeLocal others _ _ _
  | binary op | shift op | compare condition =>
      exact .bind (popPair _) fun _ => .bind (fails_orFault others _ _) fun _ => .pure _
  | unary op | convert conversion =>
      exact .bind (pop _) fun _ => .bind (fails_orFault others _ _) fun _ => .pure _
  | call | callVirtual | construct | loadFunction | loadVirtualFunction =>
      exact fails_stepCall others _ runs _ _ _
  | callIndirect => exact fails_stepIndirectCall others _ runs _
  | loadField =>
      exact .bind token fun _ => .bind (pop _) fun _ =>
        .bind (fails_loadFieldOf others _ _ _) fun _ => .pure _
  | loadFieldAddress =>
      exact .bind token fun _ => .bind (pop _) fun _ =>
        .bind (fails_fieldAddress others _ _ _) fun _ => .pure _
  | storeField =>
      exact .bind token fun _ => .bind (popPair _) fun _ =>
        .bind (fails_storeFieldOf others _ _ _ _) fun _ => .pure _
  | loadStatic => exact .bind token fun _ => .bind (fails_loadStatic others _) fun _ => .pure _
  | loadStaticAddress => exact .bind token fun _ => .pure _
  | storeStatic => exact .bind (pop _) fun _ => .bind token fun _ => .bind .modify fun _ => .pure _
  | box =>
      exact .bind (pop _) fun _ => .bind token fun _ => .bind (fails_box others _ _) fun _ =>
        .pure _
  | unbox =>
      exact .bind token fun _ => .bind (pop _) fun _ => .bind (fails_boxOf others _ _) fun _ =>
        .pure _
  | unboxAny =>
      exact .bind token fun _ => .bind (pop _) fun _ => .bind (fails_unboxAny others _ _) fun _ =>
        .pure _
  | cast throws =>
      exact .bind token fun _ => .bind (pop _) fun _ => .bind (fails_cast others _ _ _) fun _ =>
        .pure _
  | setToZero =>
      exact .bind (pop _) fun _ => .bind .module fun _ => .bind token fun _ =>
        .bind (.ofExcept (others.errs_zeroOfType _ _)) fun _ =>
        .bind (.ofExcept (others.errs_asPointer _)) fun _ =>
        .bind (fails_store others _ _) fun _ => .pure _
  | loadIndirect width? =>
      refine .bind (pop _) fun _ => .bind (.ofExcept (others.errs_asPointer _)) fun _ =>
        .bind (fails_load others _) fun value => ?_
      cases width? with
      | some width => exact .bind (fails_orFault others _ _) fun _ => .pure _
      | none => exact .pure _
  | storeIndirect width? =>
      refine .bind (popPair _) fun popped => ?_
      have stored (value : Value) : Fails failure (do
          store (← ofExcept popped.1.asPointer) value
          return popped.2.2) :=
        .bind (.ofExcept (others.errs_asPointer _)) fun _ =>
          .bind (fails_store others _ _) fun _ => .pure _
      cases width? with
      | some width => exact .bind (fails_orFault others _ _) fun _ => stored _
      | none => exact .bind (.pure _) fun _ => stored _
  | newArray =>
      exact .bind (pop _) fun _ => .bind (.ofExcept (others.errs_asInt64 _)) fun _ =>
        .bind token fun _ => .bind (fails_newArray others _ _) fun _ => .pure _
  | arrayLength => exact .bind (pop _) fun _ => .bind (fails_arrayLength others _) fun _ => .pure _
  | loadElementAddress => exact .bind (fails_popElementAddress others _ _) fun _ => .pure _
  | loadElement =>
      exact .bind (fails_popElementAddress others _ _) fun _ =>
        .bind (fails_load others _) fun _ => .pure _
  | storeElement =>
      exact .bind (pop _) fun _ => .bind (fails_popElementAddress others _ _) fun _ =>
        .bind (fails_store others _ _) fun _ => .pure _
  | _ => exact .pure _

/-- An instruction fails only in ways that are allowed, if what it calls does. -/
theorem fails_step (clauses : List Clause) (scope : Scope) (frame : Nat)
    (constraint? : Option Token) (stack : List Value) :
    Fails failure (step run clauses scope frame instruction constraint? stack) := by
  have pop := fails_pop others instruction
  have target := fails_branchTarget others instruction
  unfold step
  cases instruction.opcode.action? with
  | none => exact fails_other others rfl
  | some action =>
      cases action with
      | mark | returnValue | endFinally => exact .pure _
      | constrain => exact .bind (fails_tokenOperand others _) fun _ => .pure _
      | jump | leave => exact .bind target fun _ => .pure _
      | jumpIf expected =>
          refine .bind (pop _) fun popped => ?_
          dsimp only
          split
          · exact .bind target fun _ => .pure _
          · exact .pure _
      | jumpWhen condition =>
          refine .bind (fails_popPair others _ _) fun popped =>
            .bind (fails_orFault others _ _) fun holds => ?_
          split
          · exact .bind target fun _ => .pure _
          · exact .pure _
      | select =>
          refine .bind (pop _) fun popped =>
            .bind (.ofExcept (others.errs_asInt32 _)) fun selector => ?_
          split
          · exact .pure _
          · split
            · exact .pure _
            · exact .pure _
      | endFilter => exact .bind (pop _) fun _ => .pure _
      | throw =>
          refine .bind (pop _) fun popped => ?_
          split
          · exact .pure _
          · exact fails_nullReference others
          · exact fails_other others rfl
      | rethrow => exact .bind (fails_rethrown others _ _ _) fun _ => .pure _
      | _ => exact .bind (fails_stepStraight others _ runs _ _ _ _ _) fun _ => .pure _

end Others

end Exec

end Cil
