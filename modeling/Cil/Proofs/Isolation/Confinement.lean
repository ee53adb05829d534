import Cil.Machine.Thread
import Cil.Proofs.Isolation.Enclosure
import Cil.Proofs.Machine.Agreement
import Cil.Proofs.Machine.CallsInProgress

/-!
# Isolated execution is confined to instrumented code

As long as only code of a run can be reached, it does not matter how other code would be run:
whatever is called, by a call, a stub, a function pointer, a delegate or a constructor, is
code of the run again or has no body.
-/

namespace Cil

open Stateful
open MonadExcept (ofExcept)
open Instrumentation (isCallSite)

namespace Enclosure

variable {enclosure : Enclosure}

/-! ## Machines from which only code of the run can be reached -/

theorem Confines.of_sameCode (before after : Machine) (same : before.SameCode after)
    (confines : enclosure.Confines before) : enclosure.Confines after := by
  obtain ⟨functions, natives, bodies, runs⟩ := same
  refine ⟨functions ▸ confines.functions, natives ▸ confines.natives,
    bodies.trans confines.bodies, ?_⟩
  rw [Machine.run?, runs]
  exact confines.run

variable {machine : Machine} (confines : enclosure.Confines machine)

include confines

theorem Confines.addFunction {callable : Callable} (admits : enclosure.Admits callable) :
    enclosure.Confines (machine.addFunction callable).2 := by
  refine ⟨fun other member => ?_, confines.natives, confines.bodies, confines.run⟩
  rcases Array.mem_push.mp member with old | rfl
  · exact confines.functions other old
  · exact admits

theorem Confines.admits_of_function {pointer : FunctionPointer} {callable : Callable}
    (found : machine.function pointer = .ok callable) : enclosure.Admits callable := by
  unfold Machine.function at found
  split at found
  · rename_i isFound
    cases found
    exact confines.functions _ (Array.mem_of_getElem? isFound)
  · cases found

theorem Confines.setRun {run : IsolationRun} (carries : enclosure.Carries run) :
    enclosure.Confines { machine with runs := machine.runs.set! enclosure.id (some run) } := by
  refine ⟨confines.functions, confines.natives, confines.bodies, run, ?_, carries⟩
  obtain ⟨_, active, _⟩ := confines.run
  have inside : enclosure.id < machine.runs.size := by
    unfold Machine.run? at active
    by_contra outside
    rw [Array.getElem?_eq_none (by omega)] at active
    cases active
  simp [Machine.run?, Array.getElem?_setIfInBounds_self_of_lt inside]

end Enclosure

namespace Exec

variable {enclosure : Enclosure} {limits : Limits}

/-- Two pieces of execution that agree as long as only code of the run can be reached. -/
abbrev Confined {α : Type} (enclosure : Enclosure) (limits : Limits) (first second : Exec α) :
    Prop :=
  Agrees ⟨enclosure.module, limits⟩ enclosure.Confines first second

/-- A piece of execution after which only code of the run can be reached, with a result. -/
abbrev Ensures {α : Type} (enclosure : Enclosure) (limits : Limits) (result : α → Prop)
    (action : Exec α) : Prop :=
  Agree ⟨enclosure.module, limits⟩ enclosure.Confines result action action

theorem Steady.confined {α : Type} {action : Exec α} (kept : Steady action) :
    Confined enclosure limits action action :=
  .same kept.keeps fun before after steady => .of_sameCode before after steady.code

theorem Steady.confined_bind {α β : Type} {first : Exec α} {next other : α → Exec β}
    {result : β → Prop} (kept : Steady first)
    (nexts : ∀ value, Agree ⟨enclosure.module, limits⟩ enclosure.Confines result (next value)
      (other value)) :
    Agree ⟨enclosure.module, limits⟩ enclosure.Confines result (first >>= next)
      (first >>= other) :=
  kept.confined.seq nexts

theorem ensures_module : Ensures enclosure limits (· = enclosure.module) module :=
  .module

/-! ## Methods and function pointers -/

/-- No method without a body is executable. -/
theorem ensures_executable {method : MethodDef} (lacks : enclosure.module.LacksBody method) :
    Ensures enclosure limits (fun _ => False) (executable method) := by
  obtain ⟨error, unreadable, _⟩ := lacks
  have decodes : Ensures enclosure limits (fun _ => False) (decoded method) := by
    refine .bind .get fun machine confines => ?_
    -- No decoded bodies are remembered, so the missing body is looked for and not found.
    rw [confines.bodies]
    refine .bind ensures_module fun module isModule => .bind (.ofExcept _) fun code read => ?_
    rw [isModule, unreadable] at read
    cases read
  refine .bind (.attempt decodes) fun outcome fails => ?_
  cases outcome with
  | ok code => exact (fails code rfl).elim
  | error error =>
      split
      · rename_i impossible
        cases impossible
      · exact .bind .module fun _ _ => .throw _
      · exact .throw _

theorem ensures_method (token : Token) :
    Ensures enclosure limits (enclosure.module.method token = .ok ·) (method token) := by
  refine .bind ensures_module fun module isModule => ?_
  rw [isModule]
  exact .ofExcept _

theorem confined_newFunction {callable : Callable} (admits : enclosure.Admits callable) :
    Confined enclosure limits (newFunction callable) (newFunction callable) :=
  fun _ confines => ⟨rfl, confines.addFunction admits, trivial⟩

theorem ensures_resolved (receiver : Value) (method : MethodDef) :
    Ensures enclosure limits (enclosure.module.LeadsTo true method) (do
      match ← runtimeType? receiver with
      | some type => ofExcept ((← module).resolveVirtual type method)
      | none => return method) := by
  refine (steady_runtimeType? _).confined_bind fun type? => ?_
  cases type? with
  | some type =>
      refine .bind ensures_module fun module isModule =>
        .weaken (.ofExcept _) fun target found => ?_
      exact Or.inr ⟨rfl, type, isModule ▸ found⟩
  | none => exact .pure (Or.inl rfl)

theorem ensures_virtualTarget (receiver : Value) (method : MethodDef) :
    Ensures enclosure limits (enclosure.module.LeadsTo true method)
      (virtualTarget receiver method) := by
  unfold virtualTarget
  dsimp only
  split
  · exact steady_nullReference.confined_bind fun _ => ensures_resolved receiver method
  · exact ensures_resolved receiver method

theorem ensures_tokenOperand (instruction : Instruction) :
    Ensures enclosure limits (instruction.token? = some ·) (tokenOperand instruction) := by
  unfold tokenOperand operand
  cases instruction.token? with
  | some token => exact .pure rfl
  | none => exact .throw _

/-- What a call of a body names: a stub of the run, or a method of the module. -/
def Targets (enclosure : Enclosure) (token : Token) : CallTarget → Prop
  | .native provided => enclosure.IsStub provided
  | .method definition =>
      token.isDynamic = false ∧ enclosure.module.method token = .ok definition

theorem ensures_callTarget {body : DynamicMethod} (holds : enclosure.Holds body)
    (token : Token) :
    Ensures enclosure limits (Targets enclosure token) (callTarget body.scope token) := by
  unfold callTarget
  split
  · cases found : body.scope.find? token with
    | none => exact .throw _
    | some entry =>
        obtain ⟨index, _, listed⟩ := Option.bind_eq_some_iff.mp found
        obtain ⟨stub, rfl, isStub⟩ := holds.scope entry (Array.mem_of_getElem? listed)
        exact .pure isStub
  · rename_i notDynamic
    refine .bind ensures_module fun module isModule =>
      .bind (.ofExcept _) fun method known => .pure ?_
    exact ⟨by simpa using notDynamic, isModule ▸ known⟩

/-! ## The run -/

theorem ensures_resolve {method : MethodDef} (knows : enclosure.module.Knows method)
    (receiver : Receiver) :
    Ensures enclosure limits (fun resolved => enclosure.module.LeadsTo true method resolved ∧
      enclosure.module.Knows resolved) (resolve method receiver) := by
  unfold resolve
  cases receiver.runtimeType? with
  | none => exact .pure ⟨Or.inl rfl, knows⟩
  | some type =>
      refine .bind ensures_module fun module isModule =>
        .weaken (.ofExcept _) fun resolved found => ?_
      rw [isModule] at found
      exact ⟨Or.inr ⟨rfl, type, found⟩, knows.of_resolveVirtual found⟩

theorem ensures_onRun {α : Type} {result : α → Prop} {action : EStateM Error IsolationRun α}
    {failure : Error → Prop} (yields : Yields enclosure.Carries result failure action)
    {isolation : IsolationRun} (carries : enclosure.Carries isolation) :
    Ensures enclosure limits result (onRun enclosure.id isolation action) := by
  intro machine confines
  have ends := yields isolation carries
  refine ⟨rfl, ?_⟩
  unfold onRun
  cases ran : action isolation with
  | ok value after =>
      rw [ran] at ends
      exact ⟨confines.setRun ends.1, ends.2⟩
  | error error after =>
      rw [ran] at ends
      exact ⟨confines.setRun ends.1, trivial⟩

section Site

variable {site : Stub} (serves : enclosure.Serves site)

include serves

theorem ensures_runOf : Ensures enclosure limits enclosure.Carries (runOf site) := by
  refine .bind .get fun machine confines => ?_
  obtain ⟨isolation, active, carries⟩ := confines.run
  rw [serves.run, active]
  exact .pure carries

variable (secure : enclosure.Secure)

include secure

theorem ensures_shimFor? (method : MethodDef) (receiver? : Option Receiver) :
    Ensures enclosure limits (fun shim? => ∀ shim, shim? = some shim → shim.replacement.Quiet)
      (shimFor? site method receiver?) := by
  refine .bind (ensures_runOf serves) fun isolation carries => .bind .module fun module _ =>
    .pure fun shim chosen => ?_
  obtain ⟨index, _, found⟩ := Option.bind_eq_some_iff.mp chosen
  rw [carries.arises.setup.1] at found
  exact secure.quiet shim (List.mem_of_getElem? found)

theorem ensures_implementation {method : MethodDef} (knows : enclosure.module.Knows method)
    (forInterface : Bool) :
    Ensures enclosure limits (enclosure.Implements method)
      (implementation site method forInterface) := by
  refine .bind (ensures_runOf serves) fun isolation carries =>
    .bind ensures_module fun module isModule => ?_
  rw [isModule, serves.run]
  exact ensures_onRun (Enclosure.yields_implementation secure knows forInterface) carries

theorem confined_stubFunction {method : MethodDef} (knows : enclosure.module.Knows method)
    (points : enclosure.module.PointsSafely false method) :
    Confined enclosure limits (stubFunction site method) (stubFunction site method) :=
  .bind (ensures_implementation serves secure knows _) fun _ implements =>
    confined_newFunction (implements.admits points)

theorem confined_stubVirtualFunction {method : MethodDef}
    (knows : enclosure.module.Knows method)
    (points : enclosure.module.PointsSafely true method) (arguments : List Value) :
    Confined enclosure limits (stubVirtualFunction site method arguments)
      (stubVirtualFunction site method arguments) := by
  have finishes (receiver? : Option Receiver) :
      Confined enclosure limits (pointerFor site method receiver?)
        (pointerFor site method receiver?) := by
    cases receiver? with
    | none => exact steady_nullReference.confined
    | some receiver =>
        exact .bind (ensures_resolve knows _) fun resolved found => .bind .module fun _ _ =>
          .bind (ensures_implementation serves secure found.2 _) fun _ implements =>
          confined_newFunction (implements.admits (points.of_leadsTo found.1))
  unfold stubVirtualFunction
  dsimp only
  split
  · exact (steady_receiverOf? _).confined_bind finishes
  · exact .seq (.pure trivial) finishes

end Site

/-! ## Calls -/

theorem confined_withTemporary {initial : Value} {first second : Pointer → Exec Unit}
    (uses : ∀ pointer, Confined enclosure limits (first pointer) (second pointer)) :
    Confined enclosure limits (withTemporary initial first) (withTemporary initial second) := by
  refine .bind .get fun machine _ =>
    .seq (agrees_modify Enclosure.Confines.of_sameCode fun _ => ⟨rfl, rfl, rfl, rfl⟩) fun _ =>
    .bind (.attempt (uses _)) fun result _ => .bind .get fun machine _ =>
    .seq (agrees_modify Enclosure.Confines.of_sameCode fun _ => ⟨rfl, rfl, rfl, rfl⟩) fun _ =>
    .bind (.ofExcept _) fun _ _ => .pure trivial

/-- Two ways of running activations that agree where only code of the run is run. -/
def RunnersAgree (enclosure : Enclosure) (limits : Limits) (first second : Runner) : Prop :=
  ∀ activation, enclosure.Permits activation →
    Confined enclosure limits (first activation) (second activation)

section Runs

variable {run other : Runner} (runs : RunnersAgree enclosure limits run other)

include runs

theorem confined_callMethod {method : MethodDef} (lacks : enclosure.module.LacksBody method)
    (arguments : List Value) : Confined enclosure limits (callMethod run method arguments)
      (callMethod other method arguments) := by
  refine .bind .get fun machine confines => ?_
  split
  · rename_i native found
    obtain ⟨operation, core⟩ := confines.natives _ (mem_of_lookup found)
    have quiet : native.Quiet := by
      unfold Native.Quiet
      rw [core]
      trivial
    exact runs _ (Or.inl quiet)
  -- Without a native implementation the missing body ends the call before anything runs.
  · have runs : Confined enclosure limits
        (do run (.code (← executable method) {} arguments))
        (do other (.code (← executable method) {} arguments)) :=
      .bind (ensures_executable lacks) fun _ impossible => impossible.elim
    split
    · exact .bind .module fun _ _ => .seq (.throw _) fun _ => runs
    · exact runs

theorem confined_invoke {callable : Callable} (invokes : enclosure.Invokes callable)
    (arguments : List Value) : Confined enclosure limits (invoke run callable arguments)
      (invoke other callable arguments) := by
  cases callable with
  | method definition => exact confined_callMethod runs invokes arguments
  | dynamic body => exact runs _ ⟨body, invokes, rfl, rfl⟩
  | native provided => exact runs _ invokes

theorem confined_callVirtual {method : MethodDef} (lacks : enclosure.module.LacksBody method)
    (hollow : enclosure.module.Hollow method) (arguments : List Value) :
    Confined enclosure limits (callVirtual run method arguments)
      (callVirtual other method arguments) := by
  cases arguments with
  | nil => exact .throw _
  | cons receiver others =>
      have chosen : Confined enclosure limits (callChosen run method receiver others)
          (callChosen other method receiver others) := by
        refine (steady_receiverType? _).confined_bind fun type? => ?_
        cases type? with
        | none => exact confined_callMethod runs lacks _
        | some type =>
            refine .bind ensures_module fun module isModule =>
              .bind (.ofExcept _) fun target found => ?_
            rw [isModule] at found
            -- The method that the receiver chooses has no body either, as the called one is
            -- hollow.
            exact confined_callMethod runs (hollow type target found) _
      unfold callVirtual
      dsimp only
      split
      · exact steady_nullReference.confined_bind fun _ => chosen
      · exact chosen

theorem confined_callConstrained {method : MethodDef}
    (lacks : enclosure.module.LacksBody method) (hollow : enclosure.module.Hollow method)
    (constraint : Token) (arguments : List Value) :
    Confined enclosure limits (callConstrained run constraint method arguments)
      (callConstrained other constraint method arguments) := by
  unfold callConstrained
  split
  · refine .bind .module fun module isModule => ?_
    split
    · exact (steady_load _).confined_bind fun _ =>
        confined_callVirtual runs lacks hollow _
    · refine .bind (.ofExcept _) fun target found => ?_
      rw [isModule] at found
      split
      · exact confined_callMethod runs (hollow _ target found) _
      · exact (steady_load _).confined_bind fun _ =>
          (steady_box _ _).confined_bind fun _ =>
          confined_callVirtual runs lacks hollow _
  · exact confined_callVirtual runs lacks hollow _

theorem confined_construct {constructor : MethodDef}
    (lacks : enclosure.module.LacksBody constructor) (arguments : List Value) :
    Confined enclosure limits (construct run constructor arguments)
      (construct other constructor arguments) := by
  refine .bind .module fun module _ => ?_
  dsimp only
  split
  · exact .bind (.ofExcept _) fun _ _ => confined_withTemporary fun _ =>
      .discard (confined_callMethod runs lacks _)
  · exact (steady_newObject _).confined_bind fun _ =>
      .seq (.discard (confined_callMethod runs lacks _)) fun _ => .pure trivial

/-! ## Instructions -/

theorem confined_stepIndirectCall (instruction : Instruction) (stack : List Value) :
    Confined enclosure limits (stepIndirectCall run instruction stack)
      (stepIndirectCall other instruction stack) := by
  refine .bind .module fun module _ => (steady_tokenOperand _).confined_bind
    fun token => .bind (.ofExcept _) fun signature _ => ?_
  cases signature with
  | locals slots => exact .throw _
  | method site =>
      refine (steady_pop _ _).confined_bind fun popped => ?_
      split
      · exact (steady_popArguments _ _ _).confined_bind fun _ =>
          .bind .get fun machine confines => .bind (.ofExcept _) fun callable found =>
          .seq (confined_invoke runs (confines.admits_of_function found).invokes _) fun _ =>
          .pure trivial
      · exact .throw _

/-- Takes the arguments of a call from the stack and leaves its result. -/
def callPopped (instruction : Instruction) (method : MethodDef) (stack : List Value)
    (call : List Value → Exec Value) : Exec (List Value) := do
  let (arguments, stack) ← popArguments instruction method.signature.stackPops stack
  return pushResult method.signature.hasResult (← call arguments) stack

theorem confined_stepCall {body : DynamicMethod} (holds : enclosure.Holds body)
    {instruction : Instruction} (member : instruction ∈ body.code.instructions.toList)
    (isCall : isCallSite instruction.opcode) (constraint? : Option Token) (stack : List Value) :
    Confined enclosure limits (stepCall run body.scope instruction constraint? stack)
      (stepCall other body.scope instruction constraint? stack) := by
  have popped (count : Nat) : Steady (popArguments instruction count stack) :=
    steady_popArguments _ _ _
  refine .bind (ensures_tokenOperand _) fun token named =>
    .bind (ensures_callTarget holds token) fun target targets => ?_
  cases target with
  | native provided =>
      exact (popped _).confined_bind fun _ =>
        .seq (runs _ (Or.inr targets)) fun _ => .pure trivial
  | method method =>
      -- What a body names without a stub was forwarded, and so has no body.
      obtain ⟨lacks, hollow, points⟩ :=
        holds.passes instruction member isCall token method named targets.1 targets.2
      have directs {first second : List Value → Exec Value}
          (calls : ∀ arguments, Confined enclosure limits (first arguments) (second arguments)) :
          Confined enclosure limits (callPopped instruction method stack first)
            (callPopped instruction method stack second) :=
        (popped _).confined_bind fun _ => .seq (calls _) fun _ => .pure trivial
      generalize instruction.opcode = opcode at isCall lacks hollow points ⊢
      rcases Instrumentation.opcode_of_isCallSite isCall with rfl | rfl | rfl | rfl | rfl
      · exact directs fun _ => confined_callMethod runs lacks _
      · cases constraint? with
        | none => exact directs fun _ => confined_callVirtual runs lacks (hollow rfl) _
        | some constraint =>
            exact directs fun _ => confined_callConstrained runs lacks (hollow rfl) _ _
      · exact (popped _).confined_bind fun _ =>
          .seq (confined_construct runs lacks _) fun _ => .pure trivial
      · have safe := points (Or.inl rfl)
        refine .seq (confined_newFunction ⟨lacks, fun definition same isVirtual => ?_⟩) fun _ =>
          .pure trivial
        cases same
        exact safe method (Or.inl rfl) lacks isVirtual
      -- A virtual function pointer leads to what the receiver has in the slot, which is safe as
      -- well.
      · have safe := points (Or.inr rfl)
        refine (steady_pop _ _).confined_bind fun _ =>
          .bind (ensures_virtualTarget _ _) fun target leads => ?_
        have targetLacks : enclosure.module.LacksBody target := by
          rcases leads with rfl | ⟨_, type, resolved⟩
          · exact lacks
          · exact hollow rfl type target resolved
        refine .seq (confined_newFunction ⟨targetLacks, fun definition same isVirtual => ?_⟩)
          fun _ => .pure trivial
        cases same
        exact safe target leads targetLacks isVirtual

omit runs in
theorem isCallSite_of_reaches {opcode : Opcode} {action : Action}
    (acts : opcode.action? = some action) (reaches : action.reaches)
    (direct : action ≠ .callIndirect) : isCallSite opcode := by
  cases opcode <;> cases acts <;>
    first | exact absurd reaches Bool.false_ne_true | exact absurd rfl direct | rfl

/-- Executing an instruction of a body of the run. -/
theorem confined_step {body : DynamicMethod} (holds : enclosure.Holds body)
    {instruction : Instruction} (member : instruction ∈ body.code.instructions.toList)
    (clauses : List Clause) (frame : Nat) (constraint? : Option Token) (stack : List Value) :
    Confined enclosure limits
      (step run clauses body.scope frame instruction constraint? stack)
      (step other clauses body.scope frame instruction constraint? stack) := by
  -- How other code is run matters only to instructions that call or make function pointers.
  by_cases reaching :
      ∃ action, instruction.opcode.action? = some action ∧ action.reaches = true
  · obtain ⟨action, acts, reaches⟩ := reaching
    rw [step_of_reaches _ _ _ _ _ _ acts reaches, step_of_reaches _ _ _ _ _ _ acts reaches]
    refine .seq ?_ fun _ => .pure trivial
    have call (direct : action ≠ .callIndirect) : Confined enclosure limits
        (stepCall run body.scope instruction constraint? stack)
        (stepCall other body.scope instruction constraint? stack) :=
      confined_stepCall runs holds member
        (isCallSite_of_reaches acts reaches direct) constraint? stack
    cases action with
    | callIndirect => exact confined_stepIndirectCall runs _ _
    | call | callVirtual | construct | loadFunction | loadVirtualFunction =>
        exact call (by simp)
    | _ => cases reaches
  · have stays (action : Action) (acts : instruction.opcode.action? = some action) :
        action.reaches = false :=
      Bool.eq_false_iff.mpr fun reaches => reaching ⟨action, acts, reaches⟩
    rw [step_congr run _ _ _ _ _ other stays]
    exact (steady_step _ _ _ _ _ _ stays).confined

/-! ## Methods of the core library -/

theorem confined_invokeDelegate (reference : HeapRef) :
    Confined enclosure limits (invokeDelegate run reference) (invokeDelegate other reference) := by
  refine (Steady.readHeap _).confined_bind fun object => ?_
  cases object with
  | delegate type target pointer =>
      refine .bind .get fun machine confines => .bind (.ofExcept _) fun callable found => ?_
      have admits := confines.admits_of_function found
      cases callable with
      -- A delegate on a virtual method chooses the method anew.
      | method definition =>
          dsimp only
          split
          · rename_i isVirtual
            exact confined_callVirtual runs admits.invokes (admits.hollow _ rfl isVirtual) _
          · exact confined_invoke runs admits.invokes _
      | dynamic body => exact confined_invoke runs admits.invokes _
      | native provided => exact confined_invoke runs admits.invokes _
  | _ => exact .throw _

theorem confined_runCore (operation : CoreNative) (arguments : List Value) :
    Confined enclosure limits (runCore run operation arguments)
      (runCore other operation arguments) := by
  by_cases calls : operation = .invokeDelegate
  · subst calls
    exact (steady_argument _ _).confined_bind fun _ => (steady_objectOf _).confined_bind fun _ =>
      confined_invokeDelegate runs _
  · rw [runCore_congr run other calls]
    exact (steady_runCore calls arguments).confined

/-! ## Stubs -/

theorem confined_runReplacement {replacement : Replacement} (quiet : replacement.Quiet)
    (arguments : List Value) :
    Confined enclosure limits (runReplacement run replacement arguments)
      (runReplacement other replacement arguments) := by
  cases replacement with
  | native provided => exact runs _ (Or.inl quiet)
  | managed token target? => exact quiet.elim

variable {site : Stub} (serves : enclosure.Serves site) (secure : enclosure.Secure)

include serves secure

theorem confined_stubCall {method : MethodDef} (knows : enclosure.module.Knows method)
    (arguments : List Value) :
    Confined enclosure limits (stubCall run site method arguments)
      (stubCall other site method arguments) := by
  have finishes (shim? : Option Shim)
      (quietShim : ∀ shim, shim? = some shim → shim.replacement.Quiet) :
      Confined enclosure limits (callReplaced run site method arguments shim?)
        (callReplaced other site method arguments shim?) := by
    cases shim? with
    | some shim => exact confined_runReplacement runs (quietShim shim rfl) _
    | none =>
        exact .bind (ensures_implementation serves secure knows _) fun _ implements =>
          confined_invoke runs implements.invokes _
  -- Constructors that are called on existing objects are never replaced.
  let replace (run : Runner) (receiver? : Option Receiver) : Exec Value :=
    if method.isConstructor then pure none >>= callReplaced run site method arguments
    else shimFor? site method receiver? >>= callReplaced run site method arguments
  have replaces (receiver? : Option Receiver) :
      Confined enclosure limits (replace run receiver?) (replace other receiver?) := by
    dsimp only [replace]
    split
    · change Confined enclosure limits (callReplaced run site method arguments none)
        (callReplaced other site method arguments none)
      exact finishes none fun _ chosen => by cases chosen
    · exact .bind (ensures_shimFor? serves secure _ _) fun _ quietShim => finishes _ quietShim
  unfold stubCall
  dsimp only
  split
  · exact (steady_receiverOf? _).confined_bind replaces
  · exact .seq (.pure trivial) replaces

theorem confined_stubVirtual {method : MethodDef} (knows : enclosure.module.Knows method)
    (arguments : List Value) :
    Confined enclosure limits (stubVirtual run site method arguments)
      (stubVirtual other site method arguments) := by
  cases arguments with
  | nil => exact .throw _
  | cons first others =>
      refine (steady_receiverOf? _).confined_bind fun receiver? => ?_
      cases receiver? with
      | none => exact steady_nullReference.confined
      | some receiver =>
          refine .bind (ensures_resolve knows _) fun resolved found =>
            .bind (ensures_shimFor? serves secure _ _) fun shim? quietShim => ?_
          cases shim? with
          | some shim => exact confined_runReplacement runs (quietShim shim rfl) _
          | none =>
              refine .bind .module fun module _ => .bind (.ofExcept _) fun owner _ =>
                .bind (ensures_implementation serves secure found.2 _) fun callable implements => ?_
              dsimp only
              split
              · exact (steady_adjustReceiver _ _ _).confined_bind fun _ =>
                  confined_invoke runs implements.invokes _
              · exact .seq (.pure trivial) fun _ => confined_invoke runs implements.invokes _

theorem confined_stubConstrained (constraint : Token) {method : MethodDef}
    (knows : enclosure.module.Knows method) (arguments : List Value) :
    Confined enclosure limits (stubConstrained run site constraint method arguments)
      (stubConstrained other site constraint method arguments) := by
  have virtually (arguments : List Value) : Confined enclosure limits
      (stubVirtual run site method arguments) (stubVirtual other site method arguments) :=
    confined_stubVirtual runs serves secure knows arguments
  unfold stubConstrained
  split
  · refine .bind ensures_module fun module isModule => ?_
    split
    · exact (steady_load _).confined_bind fun _ => virtually _
    · refine .bind (.ofExcept _) fun resolved found => ?_
      rw [isModule] at found
      split
      · exact confined_stubCall runs serves secure (knows.of_resolveVirtual found) _
      · exact (steady_load _).confined_bind fun _ =>
          (steady_box _ _).confined_bind fun _ => virtually _
  · exact virtually _

theorem confined_stubConstruct {constructor : MethodDef}
    (knows : enclosure.module.Knows constructor) (arguments : List Value) :
    Confined enclosure limits (stubConstruct run site constructor arguments)
      (stubConstruct other site constructor arguments) := by
  refine .bind (ensures_shimFor? serves secure _ _) fun shim? quietShim => ?_
  cases shim? with
  | some shim => exact confined_runReplacement runs (quietShim shim rfl) _
  | none =>
      refine .bind (ensures_implementation serves secure knows _) fun callable implements => ?_
      cases implements with
      | body holds =>
          have calls (arguments : List Value) := runs (.code _ _ arguments) ⟨_, holds, rfl, rfl⟩
          refine .bind .module fun module _ => ?_
          dsimp only
          split
          · exact .bind (.ofExcept _) fun _ _ => confined_withTemporary fun _ =>
              .discard (calls _)
          · exact (steady_newObject _).confined_bind fun _ =>
              .seq (.discard (calls _)) fun _ => .pure trivial
      | plain lacks => exact confined_construct runs lacks _

theorem confined_runStub (arguments : List Value) :
    Confined enclosure limits (runStub run site arguments) (runStub other site arguments) := by
  refine .seq (.discard (ensures_runOf serves)) fun _ => ?_
  have points := serves.points
  cases isKind : site.kind with
  | call => exact confined_stubCall runs serves secure serves.known _
  | «virtual» => exact confined_stubVirtual runs serves secure serves.known _
  | constrained constraint =>
      exact confined_stubConstrained runs serves secure _ serves.known _
  | construct => exact confined_stubConstruct runs serves secure serves.known _
  | functionPointer =>
      rw [isKind] at points
      exact confined_stubFunction serves secure serves.known (points (Or.inl rfl))
  | virtualFunctionPointer =>
      rw [isKind] at points
      exact confined_stubVirtualFunction serves secure serves.known (points (Or.inr rfl)) _

/-! ## Native methods -/

omit serves

theorem confined_runNative {provided : Native}
    (allowed : provided.Quiet ∨ enclosure.IsStub provided) (arguments : List Value) :
    Confined enclosure limits (runNative run provided.body arguments)
      (runNative other provided.body arguments) := by
  rcases allowed with quietNative | ⟨site, isSite, serves⟩
  · unfold Native.Quiet at quietNative
    cases isBody : provided.body with
    | core operation => exact confined_runCore runs _ _
    | stub site =>
        rw [isBody] at quietNative
        exact quietNative.elim
    | host program =>
        rw [isBody] at quietNative
        unfold runNative
        dsimp only
        rw [runProgram_congr run other (quietNative arguments)]
        exact (steady_runProgram (quietNative arguments)).confined
  · rw [isSite]
    exact confined_runStub runs serves secure _

end Runs

end Exec

end Cil
