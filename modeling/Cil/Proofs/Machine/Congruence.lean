import Cil.Isolation.Dispatch
import Cil.Machine.Thread
import Cil.Proofs.Machine.Quiet
import Cil.Proofs.Machine.Running

/-!
# Relations that calls respect

What makes calls is put together from pieces that call nothing, from runs of activations, from
changes of the tables of code, and from uses of temporary slots.  A relation between pieces of
execution that respects these relates two ways of making a call if it relates the two ways of
running what is called.
-/

namespace Cil

open MonadExcept (ofExcept)

namespace Exec

theorem discard_eq {α : Type} (action : Exec α) :
    discard action = action >>= fun _ => pure ⟨⟩ := by
  funext context machine
  change EStateM.map _ (action context) machine = EStateM.bind (action context) _ machine
  unfold EStateM.map EStateM.bind
  cases action context machine <;> rfl

/-! ## Targets of calls -/

theorem steady_callTarget (scope : Scope) (token : Token) : Steady (callTarget scope token) := by
  unfold callTarget
  split
  · split
    · exact .pure _
    · exact .bind .module fun _ => .bind (.ofExcept _) fun _ => .pure _
    · exact .throw _
  · exact .bind .module fun _ => .bind (.ofExcept _) fun _ => .pure _

theorem steady_virtualTarget (receiver : Value) (method : MethodDef) :
    Steady (virtualTarget receiver method) := by
  unfold virtualTarget
  dsimp only
  split
  · refine .bind steady_nullReference fun _ => .bind (steady_runtimeType? _) fun type? => ?_
    cases type? with
    | some type => exact .bind .module fun _ => .ofExcept _
    | none => exact .pure _
  · refine .bind (steady_runtimeType? _) fun type? => ?_
    cases type? with
    | some type => exact .bind .module fun _ => .ofExcept _
    | none => exact .pure _

/-- A relation between pieces of execution that everything which is not a call keeps. -/
structure Congruence (relation : {α : Type} → Exec α → Exec α → Prop) : Prop where
  bind {α β : Type} {first second : Exec α} {next other : α → Exec β} :
    relation first second → (∀ value, relation (next value) (other value)) →
      relation (first >>= next) (second >>= other)
  steady {α : Type} {action : Exec α} : Steady action → relation action action
  newFunction (callable : Callable) :
    relation (newFunction callable) (Exec.newFunction callable)
  executable (method : MethodDef) : relation (executable method) (Exec.executable method)
  implementation (site : Stub) (method : MethodDef) (forInterface : Bool) :
    relation (implementation site method forInterface)
      (Exec.implementation site method forInterface)
  withTemporary {initial : Value} {first second : Pointer → Exec Unit} :
    (∀ location, relation (first location) (second location)) →
      relation (withTemporary initial first) (Exec.withTemporary initial second)

namespace Congruence

variable {relation : {α : Type} → Exec α → Exec α → Prop} {α β : Type}
  (related : Congruence @relation)

include related

theorem steady_bind {first : Exec α} {next other : α → Exec β} (kept : Steady first)
    (nexts : ∀ value, relation (next value) (other value)) :
    relation (first >>= next) (first >>= other) :=
  related.bind (related.steady kept) nexts

theorem bind_pure {first second : Exec α} (firsts : relation first second) (value : α → β) :
    relation (first >>= fun result => pure (value result))
      (second >>= fun result => pure (value result)) :=
  related.bind firsts fun _ => related.steady (.pure _)

theorem discard {first second : Exec α} (firsts : relation first second) :
    relation (discard first) (Functor.discard second) := by
  rw [discard_eq, discard_eq]
  exact related.bind_pure firsts _

variable {run other : Runner} (runs : ∀ activation, relation (run activation) (other activation))

include runs

/-! ## Calls -/

theorem callMethod (method : MethodDef) (arguments : List Value) :
    relation (callMethod run method arguments) (Exec.callMethod other method arguments) := by
  refine related.steady_bind .get fun machine => ?_
  split
  · exact runs _
  · have body : relation (do run (.code (← Exec.executable method) {} arguments))
        (do other (.code (← Exec.executable method) {} arguments)) :=
      related.bind (related.executable method) fun _ => runs _
    split
    · exact related.steady_bind .module fun _ => related.steady_bind (.throw _) fun _ => body
    · exact body

theorem invoke (callable : Callable) (arguments : List Value) :
    relation (invoke run callable arguments) (Exec.invoke other callable arguments) := by
  cases callable with
  | method definition => exact related.callMethod runs _ _
  | dynamic assembled => exact runs _
  | native provided => exact runs _

end Congruence

/-- A virtual call on a receiver that is not null. -/
def callChosen (run : Runner) (method : MethodDef) (receiver : Value) (others : List Value) :
    Exec Value := do
  match ← receiverType? receiver with
  | none => callMethod run method (receiver :: others)
  | some type =>
    let module ← module
    let target ← ofExcept (module.resolveVirtual type method)
    let receiver :=
      if module.isValueType target.declaringType then unboxedReceiver receiver
      else receiver
    callMethod run target (receiver :: others)

/-- Runs the replacement of a shim, or what runs for the method. -/
def callReplaced (run : Runner) (site : Stub) (method : MethodDef) (arguments : List Value)
    (shim? : Option Shim) : Exec Value := do
  match shim? with
  | some shim => runReplacement run shim.replacement arguments
  | none => invoke run (← implementation site method false) arguments

/-- The pointer to what a receiver has in the slot of a method. -/
def pointerFor (site : Stub) (method : MethodDef) (receiver? : Option Receiver) : Exec Value := do
  match receiver? with
  | none => nullReference
  | some receiver =>
    let resolved ← resolve method receiver
    let takesBox := (← module).isValueType resolved.declaringType
    newFunction (← implementation site resolved takesBox)

namespace Congruence

variable {relation : {α : Type} → Exec α → Exec α → Prop} (related : Congruence @relation)
  {run other : Runner} (runs : ∀ activation, relation (run activation) (other activation))

include related runs

theorem callVirtual (method : MethodDef) (arguments : List Value) :
    relation (callVirtual run method arguments) (Exec.callVirtual other method arguments) := by
  cases arguments with
  | nil => exact related.steady (.throw _)
  | cons receiver others =>
      have chosen : relation (callChosen run method receiver others)
          (callChosen other method receiver others) := by
        refine related.steady_bind (steady_receiverType? _) fun type? => ?_
        cases type? with
        | none => exact related.callMethod runs _ _
        | some type =>
            exact related.steady_bind .module fun _ => related.steady_bind (.ofExcept _) fun _ =>
              related.callMethod runs _ _
      unfold Exec.callVirtual
      dsimp only
      split
      · exact related.steady_bind steady_nullReference fun _ => chosen
      · exact chosen

theorem callConstrained (constraint : Token) (method : MethodDef) (arguments : List Value) :
    relation (callConstrained run constraint method arguments)
      (Exec.callConstrained other constraint method arguments) := by
  unfold Exec.callConstrained
  split
  · refine related.steady_bind .module fun module => ?_
    split
    · exact related.steady_bind (steady_load _) fun _ => related.callVirtual runs _ _
    · refine related.steady_bind (.ofExcept _) fun target => ?_
      split
      · exact related.callMethod runs _ _
      · exact related.steady_bind (steady_load _) fun _ =>
          related.steady_bind (steady_box _ _) fun _ => related.callVirtual runs _ _
  · exact related.callVirtual runs _ _

theorem construct (constructor : MethodDef) (arguments : List Value) :
    relation (construct run constructor arguments)
      (Exec.construct other constructor arguments) := by
  refine related.steady_bind .module fun module => ?_
  dsimp only
  split
  · exact related.steady_bind (.ofExcept _) fun _ => related.withTemporary fun _ =>
      related.discard (related.callMethod runs _ _)
  · exact related.steady_bind (steady_newObject _) fun _ =>
      related.bind_pure (related.discard (related.callMethod runs _ _)) _

/-! ## Instructions -/

theorem stepIndirectCall (instruction : Instruction) (stack : List Value) :
    relation (stepIndirectCall run instruction stack)
      (Exec.stepIndirectCall other instruction stack) := by
  refine related.steady_bind .module fun module =>
    related.steady_bind (steady_tokenOperand _) fun token =>
    related.steady_bind (.ofExcept _) fun signature => ?_
  cases signature with
  | locals slots => exact related.steady (.throw _)
  | method site =>
      refine related.steady_bind (steady_pop _ _) fun popped => ?_
      split
      · exact related.steady_bind (steady_popArguments _ _ _) fun _ =>
          related.steady_bind .get fun _ => related.steady_bind (.ofExcept _) fun _ =>
          related.bind_pure (related.invoke runs _ _) _
      · exact related.steady (.throw _)

theorem stepCall (scope : Scope) (instruction : Instruction) (constraint? : Option Token)
    (stack : List Value) :
    relation (stepCall run scope instruction constraint? stack)
      (Exec.stepCall other scope instruction constraint? stack) := by
  have popped (count : Nat) : Steady (popArguments instruction count stack) :=
    steady_popArguments _ _ _
  refine related.steady_bind (steady_tokenOperand _) fun token =>
    related.steady_bind (steady_callTarget _ _) fun target => ?_
  cases target with
  | native provided =>
      exact related.steady_bind (popped _) fun _ => related.bind_pure (runs _) _
  | method method =>
      dsimp only
      split
      · exact related.steady_bind (popped _) fun _ =>
          related.bind_pure (related.construct runs _ _) _
      · exact related.bind_pure (related.newFunction _) _
      · exact related.steady_bind (steady_pop _ _) fun _ =>
          related.steady_bind (steady_virtualTarget _ _) fun _ =>
          related.bind_pure (related.newFunction _) _
      · refine related.steady_bind (popped _) fun arguments => ?_
        split
        · exact related.bind_pure (related.callConstrained runs _ _ _) _
        · exact related.bind_pure (related.callVirtual runs _ _) _
        · exact related.bind_pure (related.callMethod runs _ _) _

theorem step (clauses : List Clause) (scope : Scope) (frame : Nat) (instruction : Instruction)
    (constraint? : Option Token) (stack : List Value) :
    relation (step run clauses scope frame instruction constraint? stack)
      (Exec.step other clauses scope frame instruction constraint? stack) := by
  -- How calls are run matters only to instructions that call something.
  by_cases reaching :
      ∃ action, instruction.opcode.action? = some action ∧ action.reaches = true
  · obtain ⟨action, acts, reaches⟩ := reaching
    rw [step_of_reaches _ _ _ _ _ _ acts reaches, step_of_reaches _ _ _ _ _ _ acts reaches]
    refine related.bind_pure ?_ _
    cases action with
    | callIndirect => exact related.stepIndirectCall runs _ _
    | call | callVirtual | construct | loadFunction | loadVirtualFunction =>
        exact related.stepCall runs _ _ _ _
    | _ => cases reaches
  · have stays (action : Action) (acts : instruction.opcode.action? = some action) :
        action.reaches = false :=
      Bool.eq_false_iff.mpr fun reaches => reaching ⟨action, acts, reaches⟩
    rw [step_congr run _ _ _ _ _ other stays]
    exact related.steady (steady_step _ _ _ _ _ _ stays)

/-! ## Native methods -/

theorem invokeDelegate (reference : HeapRef) :
    relation (invokeDelegate run reference) (Exec.invokeDelegate other reference) := by
  refine related.steady_bind (.readHeap _) fun object => ?_
  cases object with
  | delegate type target pointer =>
      refine related.steady_bind .get fun machine =>
        related.steady_bind (.ofExcept _) fun callable => ?_
      cases callable with
      | method definition =>
          dsimp only
          split
          · exact related.callVirtual runs _ _
          · exact related.invoke runs _ _
      | dynamic body => exact related.invoke runs _ _
      | native provided => exact related.invoke runs _ _
  | _ => exact related.steady (.throw _)

theorem runCore (operation : CoreNative) (arguments : List Value) :
    relation (runCore run operation arguments) (Exec.runCore other operation arguments) := by
  by_cases calls : operation = .invokeDelegate
  · subst calls
    exact related.steady_bind (steady_argument _ _) fun _ =>
      related.steady_bind (steady_objectOf _) fun _ => related.invokeDelegate runs _
  · rw [runCore_congr run other calls]
    exact related.steady (steady_runCore calls arguments)

theorem answer (request : Request) :
    relation (answer run request) (Exec.answer other request) := by
  have named (token : Token) : Steady (method token) := .bind .module fun _ => .ofExcept _
  cases request with
  | call token arguments =>
      exact related.steady_bind (named _) fun _ => related.callMethod runs _ _
  | callVirtual token arguments =>
      exact related.steady_bind (named _) fun _ => related.callVirtual runs _ _
  | construct token arguments =>
      exact related.steady_bind (named _) fun _ => related.construct runs _ _
  | functionPointer token => exact related.steady_bind (named _) fun _ => related.newFunction _
  | _ => exact related.steady (steady_answer rfl)

theorem runProgram (program : Program) :
    relation (runProgram run program) (Exec.runProgram other program) := by
  induction program with
  | done value => exact related.steady (.pure _)
  | fail error => exact related.steady (.throw _)
  | perform request next ih => exact related.bind (related.answer runs request) ih
  | readString reference next ih =>
      exact related.steady_bind (.attempt (steady_stringText? _)) ih

/-! ## Stubs -/

theorem runReplacement (replacement : Replacement) (arguments : List Value) :
    relation (runReplacement run replacement arguments)
      (Exec.runReplacement other replacement arguments) := by
  cases replacement with
  | native provided => exact runs _
  | managed token target? =>
      refine related.steady_bind .module fun _ => related.steady_bind (.ofExcept _) fun method => ?_
      dsimp only
      split
      · exact related.callVirtual runs _ _
      · exact related.callMethod runs _ _

variable (site : Stub)

theorem callReplaced (method : MethodDef) (arguments : List Value) (shim? : Option Shim) :
    relation (callReplaced run site method arguments shim?)
      (Exec.callReplaced other site method arguments shim?) := by
  cases shim? with
  | some shim => exact related.runReplacement runs _ _
  | none => exact related.bind (related.implementation site _ _) fun _ => related.invoke runs _ _

theorem stubCall (method : MethodDef) (arguments : List Value) :
    relation (stubCall run site method arguments)
      (Exec.stubCall other site method arguments) := by
  -- Constructors that are called on existing objects are never replaced.
  let replace (run : Runner) (receiver? : Option Receiver) : Exec Value :=
    if method.isConstructor then pure none >>= Exec.callReplaced run site method arguments
    else shimFor? site method receiver? >>= Exec.callReplaced run site method arguments
  have replaces (receiver? : Option Receiver) :
      relation (replace run receiver?) (replace other receiver?) := by
    dsimp only [replace]
    split
    · exact related.steady_bind (.pure _) fun _ => related.callReplaced runs site _ _ _
    · exact related.steady_bind (steady_shimFor? site _ _) fun _ =>
        related.callReplaced runs site _ _ _
  unfold Exec.stubCall
  dsimp only
  split
  · exact related.steady_bind (steady_receiverOf? _) replaces
  · exact related.steady_bind (.pure _) replaces

theorem stubVirtual (method : MethodDef) (arguments : List Value) :
    relation (stubVirtual run site method arguments)
      (Exec.stubVirtual other site method arguments) := by
  cases arguments with
  | nil => exact related.steady (.throw _)
  | cons first others =>
      refine related.steady_bind (steady_receiverOf? _) fun receiver? => ?_
      cases receiver? with
      | none => exact related.steady steady_nullReference
      | some receiver =>
          refine related.steady_bind (steady_resolve _ _) fun resolved =>
            related.steady_bind (steady_shimFor? site _ _) fun shim? => ?_
          cases shim? with
          | some shim => exact related.runReplacement runs _ _
          | none =>
              refine related.steady_bind .module fun module =>
                related.steady_bind (.ofExcept _) fun owner =>
                related.bind (related.implementation site _ _) fun callable => ?_
              dsimp only
              split
              · exact related.steady_bind (steady_adjustReceiver _ _ _) fun _ =>
                  related.invoke runs _ _
              · exact related.steady_bind (.pure _) fun _ => related.invoke runs _ _

theorem stubConstrained (constraint : Token) (method : MethodDef) (arguments : List Value) :
    relation (stubConstrained run site constraint method arguments)
      (Exec.stubConstrained other site constraint method arguments) := by
  unfold Exec.stubConstrained
  split
  · refine related.steady_bind .module fun module => ?_
    split
    · exact related.steady_bind (steady_load _) fun _ => related.stubVirtual runs site _ _
    · refine related.steady_bind (.ofExcept _) fun resolved => ?_
      split
      · exact related.stubCall runs site _ _
      · exact related.steady_bind (steady_load _) fun _ =>
          related.steady_bind (steady_box _ _) fun _ => related.stubVirtual runs site _ _
  · exact related.stubVirtual runs site _ _

theorem stubConstruct (constructor : MethodDef) (arguments : List Value) :
    relation (stubConstruct run site constructor arguments)
      (Exec.stubConstruct other site constructor arguments) := by
  refine related.steady_bind (steady_shimFor? site _ _) fun shim? => ?_
  cases shim? with
  | some shim => exact related.runReplacement runs _ _
  | none =>
      refine related.bind (related.implementation site _ _) fun callable => ?_
      cases callable with
      | dynamic body =>
          refine related.steady_bind .module fun module => ?_
          dsimp only
          split
          · exact related.steady_bind (.ofExcept _) fun _ => related.withTemporary fun _ =>
              related.discard (runs _)
          · exact related.steady_bind (steady_newObject _) fun _ =>
              related.bind_pure (related.discard (runs _)) _
      | method definition => exact related.construct runs _ _
      | native provided => exact related.construct runs _ _

omit runs in
theorem stubFunction (method : MethodDef) :
    relation (stubFunction site method) (Exec.stubFunction site method) :=
  related.bind (related.implementation site _ _) fun _ => related.newFunction _

omit runs in
theorem stubVirtualFunction (method : MethodDef) (arguments : List Value) :
    relation (stubVirtualFunction site method arguments)
      (Exec.stubVirtualFunction site method arguments) := by
  have finishes (receiver? : Option Receiver) :
      relation (pointerFor site method receiver?) (pointerFor site method receiver?) := by
    cases receiver? with
    | none => exact related.steady steady_nullReference
    | some receiver =>
        exact related.steady_bind (steady_resolve _ _) fun _ =>
          related.steady_bind .module fun _ =>
          related.bind (related.implementation site _ _) fun _ => related.newFunction _
  unfold Exec.stubVirtualFunction
  dsimp only
  split
  · exact related.steady_bind (steady_receiverOf? _) finishes
  · exact related.steady_bind (.pure _) finishes

theorem runStub (arguments : List Value) :
    relation (runStub run site arguments) (Exec.runStub other site arguments) := by
  refine related.bind (related.discard (related.steady (steady_runOf site))) fun _ => ?_
  cases site.kind with
  | call => exact related.stubCall runs site _ _
  | «virtual» => exact related.stubVirtual runs site _ _
  | constrained constraint => exact related.stubConstrained runs site _ _ _
  | construct => exact related.stubConstruct runs site _ _
  | functionPointer => exact related.stubFunction site _
  | virtualFunctionPointer => exact related.stubVirtualFunction site _ _

theorem runNative (body : NativeBody) (arguments : List Value) :
    relation (runNative run body arguments) (Exec.runNative other body arguments) := by
  cases body with
  | core operation => exact related.runCore runs _ _
  | stub site => exact related.runStub runs site _
  | host program => exact related.runProgram runs _

end Congruence

end Exec

end Cil
