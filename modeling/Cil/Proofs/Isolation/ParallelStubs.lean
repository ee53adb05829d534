import Cil.Proofs.Isolation.ParallelSites

/-!
# Stubs beside calls

Where the isolated thread runs a stub, the plain one makes the call that the stub stands for.  The
stub finds the method that the call finds, and runs the body that the run made from it on the
receiver that the call passes, or on the box in which it is.
-/

namespace Cil

open MonadExcept (ofExcept)

/-- Only a method without a readable body is legible and has no code. -/
theorem Module.blamesBody_of_isLegible {module : Module} {method : MethodDef}
    (isLegible : module.isLegible method = true) {error : Error}
    (read : MethodCode.ofMethod module method = .error error) : error.blamesBody = true := by
  unfold Module.isLegible at isLegible
  rw [read] at isLegible
  cases error with
  | unreadableMethodBody token => rfl
  | _ => cases isLegible

namespace Exec

section Found

variable {context : Context} {machine : Machine} {site : Stub} {isolation : IsolationRun}

theorem implementation_run (active : machine.run? site.run = some isolation) (method : MethodDef)
    (forInterface : Bool) :
    implementation site method forInterface context machine =
      onRun site.run isolation
        (IsolationRun.implementation context.module site.run method forInterface) context
        machine := by
  unfold implementation
  rw [bind_of_ok (runOf_of_active active), bind_of_ok module_run]

end Found

/-! ## Receivers -/

section Receivers

variable {comparison : Comparison} {standing : Guises} {tables : CodeBond}
  {method : MethodDef} {receiver address : Value}

/-- What a receiver is described by, once it has been loaded. -/
theorem mirrored_described (value : Value) :
    Mirrored comparison standing tables (do
      match value with
      | .null => return none
      | .object reference =>
        return some { object? := some reference, runtimeType? := ← runtimeType? value }
      | other => return some { object? := none, runtimeType? := ← runtimeType? other } :
        Exec (Option Receiver)) := by
  cases value with
  | null => exact .pure rfl
  | _ => exact .seq (mirrored_runtimeType? _) fun _ => .pure rfl

theorem mirrored_receiverOf? (spared : standing.SparesValue receiver) :
    Mirrored comparison standing tables (receiverOf? receiver) := by
  unfold receiverOf?
  cases receiver with
  | pointer location => exact .seq (mirrored_load spared) mirrored_described
  | _ => exact .seq (.pure rfl) mirrored_described

theorem mirrored_resolve (known : Receiver) :
    Mirrored comparison standing tables (resolve method known) := by
  unfold resolve
  split
  · exact .module_bind (.ofExcept _)
  · exact .pure rfl

/-- What a plan passes on is spared. -/
def Plan.Spared (standing : Guises) (address : Value) : Plan → Prop
  | .own _ => standing.SparesValue address
  | .virtual given => standing.SparesValue given

theorem mirrored_stubTarget? {plan : Plan} (spared : plan.Spared standing address) :
    Mirrored comparison standing tables (plan.stubTarget? method address) := by
  cases plan with
  | own target => exact .seq (mirrored_receiverOf? spared) fun _ => .pure rfl
  | virtual given =>
      refine .seq (mirrored_receiverOf? spared) fun known? => ?_
      cases known? with
      | none => exact .pure rfl
      | some known => exact .seq (mirrored_resolve known) fun _ => .pure rfl

theorem Plan.Spared.passed {plan : Plan} (spared : plan.Spared standing address) (module : Module)
    (target : MethodDef) : standing.SparesValue (plan.passed module target address) := by
  cases plan with
  | own target => exact spared
  | virtual given => exact sparesValue_passed spared address

end Receivers

section Plans

variable {context : Context} {machine middle : Machine} {constraint? : Option Token}
  {method : MethodDef} {receiver : Value} {plan : Plan}

/-- A stub finds the method that the call finds. -/
theorem PassesPlainly.stubTarget?_eq
    (passes : PassesPlainly context machine constraint? method receiver)
    (plans : planned constraint? method receiver context machine = .ok plan middle) :
    plan.stubTarget? method receiver context middle = plan.target? method context middle := by
  cases plan with
  | own target =>
      obtain ⟨known?, read⟩ := passes.own plans
      exact bind_of_ok read
  | virtual given =>
      refine stubTarget?_virtual fun location isPointer isNull => ?_
      subst isPointer
      exact passes.notToNull plans (load_of_holds isNull)

theorem Plan.run_eq (run : Runner) (others : List Value)
    (same : plan.stubTarget? method receiver context middle =
      plan.target? method context middle) :
    plan.run run method receiver others context middle = (do
      match ← plan.stubTarget? method receiver with
      | none => nullReference
      | some target =>
        callMethod run target (plan.passed (← module) target receiver :: others)) context
          middle := by
  unfold Plan.run
  rewrite [bind_run, bind_run, same]
  rfl

/-- The method that a virtual call finds is known if the called one is, and no more static. -/
theorem found_cases {target : MethodDef} {after : Machine} (knows : context.module.Knows method)
    (isInstance : method.isStatic = false)
    (plans : planned constraint? method receiver context machine = .ok plan middle)
    (found : plan.target? method context middle = .ok (some target) after) :
    context.module.Knows target ∧ target.isStatic = false := by
  have resolved {type : Token} (resolves : context.module.resolveVirtual type method = .ok target) :
      context.module.Knows target ∧ target.isStatic = false :=
    ⟨knows.of_resolveVirtual resolves, Module.isInstance_of_resolveVirtual isInstance resolves⟩
  cases plan with
  | own own =>
      obtain ⟨type, resolves⟩ := resolved_of_planned plans
      cases found
      exact resolved resolves
  | virtual given =>
      rcases (target?_cases found).2 target rfl with rfl | ⟨type, resolves⟩
      · exact ⟨knows, isInstance⟩
      · exact resolved resolves

/-- What a stub passes to a body, where the call passes something to the method of the body. -/
theorem Plan.stubPassed_cases {module : Module} {heap : Heap} {target : MethodDef}
    {address : Value} (dynamic : Bool) (isInstance : target.isStatic = false)
    (others : List Value)
    (box : ∀ given, plan = .virtual given → module.isInterface method.declaringType = true →
      module.isValueType target.declaringType = true →
        ∃ box, given = .object box ∧ heap.HoldsBox target.declaringType box) :
    ∃ passed,
      plan.stubPassed module target (plan.forInterface module method && dynamic) address =
        (pure passed : Exec Value) ∧
      (dynamic = false → passed = plan.passed module target address) ∧
      (dynamic = true →
        heap.Hands (module.boxedOwner? target (plan.forInterface module method))
          (plan.passed module target address :: others) (passed :: others)) := by
  cases plan with
  | own _ => exact ⟨address, rfl, fun _ => rfl, fun _ => Heap.hands_self rfl _⟩
  | virtual given =>
      simp only [stubPassed, Plan.passed, forInterface, Module.boxedOwner?, isInstance,
        Bool.not_false, Bool.and_true]
      cases isValueType : module.isValueType target.declaringType with
      | false =>
          simp only [Bool.and_false, Bool.false_eq_true, if_false]
          exact ⟨given, rfl, fun _ => rfl, fun _ => rfl⟩
      | true =>
          simp only [Bool.and_true, if_true]
          cases isInterface : module.isInterface method.declaringType with
          | false =>
              refine ⟨unboxedReceiver given, ?_, fun _ => rfl, fun _ => rfl⟩
              cases given <;> rfl
          | true =>
              obtain ⟨reference, rfl, holdsBox⟩ := box given rfl isInterface isValueType
              cases dynamic with
              | false => exact ⟨_, rfl, fun _ => rfl, by simp⟩
              | true => exact ⟨_, rfl, by simp, fun _ => ⟨reference, others, holdsBox, rfl, rfl⟩⟩

/-! ## Virtual function pointers -/

/-- What a virtual function pointer leads to is what a virtual call of the object runs. -/
theorem virtualTarget_eq (notAddress : receiver.isAddress = false) :
    virtualTarget receiver method = (do
      match ← (Plan.virtual receiver).target? method with
      | none => nullReference
      | some target => return target) := by
  unfold virtualTarget Plan.target?
  cases receiver with
  | null => simp only [Value.isNull, if_true, pure_bind, nullReference, raise_bind]
  | pointer location => cases notAddress
  | _ =>
      simp only [Value.isNull, Bool.false_eq_true, if_false, receiverType?, bind_assoc]
      refine bind_congr fun type? => ?_
      cases type? with
      | none => rfl
      | some type => simp only [bind_assoc, pure_bind, bind_pure]

theorem stubVirtualFunction_eq (site : Stub) (others : List Value) :
    stubVirtualFunction site method (receiver :: others) = (do
      match ← (Plan.virtual receiver).stubTarget? method receiver with
      | none => nullReference
      | some target =>
        let takesBox := (← module).isValueType target.declaringType
        newFunction (← implementation site target takesBox)) := by
  simp only [stubVirtualFunction, Plan.stubTarget?, bind_assoc]
  refine bind_congr fun known? => ?_
  cases known? with
  | none => rfl
  | some known => simp only [bind_assoc, pure_bind]

/-- A virtual function pointer is made for an object, and leads to a method that can be rewritten
and takes its receiver in a box if it is one of a value type. -/
structure PointsPlainly (context : Context) (machine : Machine) (method : MethodDef)
    (receiver : Value) : Prop where
  notAddress : receiver.isAddress = false
  isLegible {target : MethodDef} {after : Machine} :
    (Plan.virtual receiver).target? method context machine = .ok (some target) after →
      context.module.isLegible target = true
  bindsBox {target : MethodDef} {after : Machine} :
    (Plan.virtual receiver).target? method context machine = .ok (some target) after →
      context.module.isValueType target.declaringType = context.module.bindsBox target

theorem pointsPlainly_of_allows (allows : Allows (pointsPlainly method receiver) context machine) :
    PointsPlainly context machine method receiver := by
  unfold pointsPlainly at allows
  by_cases isAddress : receiver.isAddress = true
  · rw [if_pos isAddress] at allows
    cases allows.answer
  rw [if_neg isAddress] at allows
  rw [Bool.not_eq_true] at isAddress
  have answers {target : MethodDef} {after : Machine}
      (found : (Plan.virtual receiver).target? method context machine = .ok (some target) after) :
      context.module.isLegible target = true ∧
        (context.module.isValueType target.declaringType = false ∨ target.isVirtual = true) := by
    have pointed : virtualTarget receiver method context machine = .ok target after := by
      rw [virtualTarget_eq isAddress, bind_of_ok found]
      rfl
    simpa using ((allows.after module_run).after pointed).answer
  refine ⟨isAddress, fun found => (answers found).1, fun found => ?_⟩
  unfold Module.bindsBox
  rcases (answers found).2 with isReference | isVirtual
  · rw [isReference, Bool.false_and]
  · rw [isVirtual, Bool.and_true]

end Plans

section Alike

variable {comparison : Comparison} {standing : Guises} {enclosure : Enclosure}
  {one two : Machine} (isolates : comparison.Isolates enclosure) {run other : Runner}
  (alike : comparison.RunsAlike enclosure run other) {arguments : List Value}
  (holds : (standing.bond enclosure.parallel).Holds one two) {site : Stub}
  (isRun : site.run = enclosure.id) {method : MethodDef}
  (knows : enclosure.module.Knows method)

include holds isRun in
/-- The run that the stub belongs to is still there. -/
theorem active_of_holds (isolates : comparison.Isolates enclosure) :
    ∃ isolation, two.run? site.run = some isolation ∧ isolation.shims = [] := by
  obtain ⟨isolation, active, remembers⟩ := holds.2.run
  exact ⟨isolation, isRun ▸ active, remembers.arises.setup.1.trans isolates.bare.shims⟩

include isolates holds isRun knows

/-! ## What runs for a method -/

/-- The isolated thread finds, in its run, what runs for a method. -/
theorem tallies_implementation {α β : Type} {values : α → β → Prop}
    {result : EStateM.Result Error Machine α} (forInterface : Bool) {next : Callable → Exec β}
    (nexts : ∀ callable final, enclosure.Runs method forInterface callable →
      (standing.bond enclosure.parallel).Holds one final →
        comparison.Tallies (standing.bond enclosure.parallel) values result
          (next callable comparison.second final))
    (undecodable : ∀ error final,
      MethodCode.ofMethod enclosure.module method = .error error → error.blamesBody = false →
        (standing.bond enclosure.parallel).Holds one final →
          comparison.Tallies (standing.bond enclosure.parallel) values result
            (.error error final)) :
    comparison.Tallies (standing.bond enclosure.parallel) values result
      ((implementation site method forInterface >>= next) comparison.second two) := by
  obtain ⟨isolation, active, remembers⟩ := holds.2.run
  have yields :=
    Enclosure.remembers_implementation knows isolates.bare forInterface isolation remembers
  have stays (run : IsolationRun) (remembers : enclosure.Remembers run) :
      (standing.bond enclosure.parallel).Holds one
        { two with runs := two.runs.set! enclosure.id (some run) } :=
    ⟨holds.1.of_same ⟨rfl, rfl, rfl, rfl⟩ ⟨rfl, rfl, rfl, rfl⟩, holds.2.setRun remembers⟩
  rw [bind_run, implementation_run (isRun ▸ active), isRun, comparison.sameModule,
    isolates.module, onRun]
  cases ran : IsolationRun.implementation enclosure.module enclosure.id method forInterface
      isolation with
  | ok callable after =>
      rw [ran] at yields
      exact nexts callable _ yields.2 (stays after yields.1)
  | error error after =>
      rw [ran] at yields
      rcases yields.2 with refuses | ⟨read, spared⟩
      · exact .second (isolates.refused error refuses)
      · exact undecodable error _ read spared (stays after yields.1)

include alike

/-- The plain thread calls a method, and the isolated one what runs for it in the run. -/
theorem tallies_callImplementation (forInterface : Bool) {next : Callable → Exec Value}
    (spared : ∀ value ∈ arguments, standing.SparesValue value)
    (invokes : ∀ callable final, ∃ others,
      next callable comparison.second final =
        invoke other callable others comparison.second final ∧
      (isDynamic callable = false → others = arguments) ∧
      (isDynamic callable = true →
        one.heap.Hands (enclosure.module.boxedOwner? method forInterface) arguments others)) :
    comparison.Tallies (standing.bond enclosure.parallel) Eq
      (callMethod run method arguments comparison.first one)
      ((implementation site method forInterface >>= next) comparison.second two) := by
  refine tallies_implementation isolates holds isRun knows forInterface
    (fun callable final runs after => ?_) fun error final read blameless after => ?_
  · obtain ⟨others, invoked, plain, hands⟩ := invokes callable final
    rw [invoked]
    cases runs with
    | rewritten rewrites => exact tallies_callBody isolates alike knows after rewrites (hands rfl)
    | plain =>
        rw [plain rfl]
        exact tally_callMethod isolates alike knows spared _ _ after
  · rw [callMethod_of_error isolates after knows run arguments read blameless]
    exact Comparison.Tally.throwSame error _ _ after

/-! ## Calls of exactly a method -/

/-- Once the receiver of a call is known, no shim is found for it. -/
theorem tallies_unshimmed (receiver? : Option Receiver)
    (spared : ∀ value ∈ arguments, standing.SparesValue value) :
    comparison.Tallies (standing.bond enclosure.parallel) Eq
      (callMethod run method arguments comparison.first one)
      ((do
        let shim? ← if method.isConstructor then pure none else shimFor? site method receiver?
        match shim? with
        | some shim => runReplacement other shim.replacement arguments
        | none => invoke other (← implementation site method false) arguments : Exec Value)
        comparison.second two) := by
  have goesOn : comparison.Tallies (standing.bond enclosure.parallel) Eq
      (callMethod run method arguments comparison.first one)
      ((implementation site method false >>= fun callable => invoke other callable arguments)
        comparison.second two) :=
    tallies_callImplementation isolates alike holds isRun knows false spared
      fun callable _ => ⟨arguments, rfl, fun _ => rfl, fun _ => Heap.hands_self rfl _⟩
  obtain ⟨isolation, active, noShims⟩ := active_of_holds holds isRun isolates
  dsimp only
  split
  · exact goesOn
  · rw [bind_of_ok (shimFor?_of_noShims active noShims method receiver?)]
    exact goesOn

theorem tallies_stubCall (spared : ∀ value ∈ arguments, standing.SparesValue value)
    (allows : Allows (callsPlainly .call method arguments) comparison.first one) :
    comparison.Tallies (standing.bond enclosure.parallel) Eq
      (callMethod run method arguments comparison.first one)
      (stubCall other site method arguments comparison.second two) := by
  have rest (receiver? : Option Receiver) {one two : Machine}
      (holds : (standing.bond enclosure.parallel).Holds one two) :=
    tallies_unshimmed isolates alike holds isRun knows receiver? spared
  unfold stubCall
  cases isStatic : method.isStatic with
  | true => exact rest none holds
  | false =>
      cases arguments with
      | nil => exact rest none holds
      | cons receiver others =>
          have answer := ((allows.after rfl).after rfl).answer
          rw [isStatic, Bool.false_or] at answer
          obtain ⟨known?, final, read⟩ := ran_of_succeeds answer
          obtain ⟨rfl, _⟩ := receiverOf?_ok read
          have reads : (receiverOf? receiver >>= fun _ =>
              callMethod run method (receiver :: others)) comparison.first one =
                callMethod run method (receiver :: others) comparison.first one := bind_of_ok read
          rw [← reads]
          exact (mirrored_receiverOf? (spared receiver (by simp)) one two holds).seq_run
            fun known? _ _ after _ => rest known? after

/-! ## Virtual calls -/

theorem tallies_stubbedCall (isInstance : method.isStatic = false) (constraint? : Option Token)
    (spared : ∀ value ∈ arguments, standing.SparesValue value)
    (passes : ∀ receiver ∈ arguments.head?,
      PassesPlainly comparison.first one constraint? method receiver) :
    comparison.Tallies (standing.bond enclosure.parallel) Eq
      (virtualCall run constraint? method arguments comparison.first one)
      (stubbedCall other site constraint? method arguments comparison.second two) := by
  cases arguments with
  | nil => cases constraint? <;> exact Comparison.Tally.throwSame _ _ _ holds
  | cons receiver others =>
      have passes := passes receiver rfl
      have sparedReceiver := spared receiver (by simp)
      have call : UnshimmedCall comparison.second two site method :=
        { isInstance
          declared := by
            rw [comparison.sameModule, isolates.module]
            exact isolates.bare.reachable.typeDef_of_knows knows
          active := active_of_holds holds isRun isolates }
      rw [virtualCall_eq, stubbedCall_eq call]
      refine (mirrored_planned sparedReceiver one two holds).seq_run
        fun plan middle final after plans => ?_
      have sparedPlan : plan.Spared standing receiver := by
        cases plan with
        | own target => exact sparedReceiver
        | virtual given =>
            exact sparesValue_of_planned (fun _ _ plans => passes.object plans) sparedReceiver plans
      have sameTarget := passes.stubTarget?_eq plans
      rw [Plan.run_eq run others sameTarget]
      refine (mirrored_stubTarget? sparedPlan _ _ after).seq_run
        fun target? middle final after found => ?_
      cases target? with
      | none => exact tally_nullReference _ _ after
      | some target =>
          have found := sameTarget.symm.trans found
          obtain ⟨knowsTarget, isInstance⟩ :=
            found_cases (isolates.module ▸ knows) isInstance plans found
          have box := fun given (isVirtual : plan = .virtual given) =>
            passes.box (isVirtual ▸ plans) (isVirtual ▸ found)
          rw [isolates.module] at knowsTarget box
          dsimp only [Plan.runStub]
          rw [bind_of_ok module_run, bind_of_ok module_run, comparison.sameModule,
            isolates.module]
          refine tallies_callImplementation isolates alike after isRun knowsTarget
            (plan.forInterface enclosure.module method) (fun value member => ?_)
            fun callable final => ?_
          · rcases List.mem_cons.mp member with rfl | member
            · exact sparedPlan.passed _ _
            · exact spared value (by simp [member])
          · obtain ⟨passed, isPassed, plain, hands⟩ :=
              plan.stubPassed_cases (isDynamic callable) isInstance others box
            refine ⟨passed :: others, ?_, fun isPlain => by rw [plain isPlain], hands⟩
            rw [bind_of_ok module_run, comparison.sameModule, isolates.module, isPassed, pure_bind]

/-! ## Constructors -/

theorem tallies_stubConstruct (spared : ∀ value ∈ arguments, standing.SparesValue value)
    (allows : Allows (callsPlainly .construct method arguments) comparison.first one) :
    comparison.Tallies (standing.bond enclosure.parallel) Eq
      (construct run method arguments comparison.first one)
      (stubConstruct other site method arguments comparison.second two) := by
  have isLegible := (allows.after module_run).answer
  rw [isolates.module] at isLegible
  obtain ⟨isolation, active, noShims⟩ := active_of_holds holds isRun isolates
  unfold stubConstruct
  rw [bind_of_ok (shimFor?_of_noShims active noShims method none)]
  refine tallies_implementation isolates holds isRun knows false
    (fun callable final runs after => ?_) fun error final read blameless _ =>
      absurd blameless (by simp [Module.blamesBody_of_isLegible isLegible read])
  cases runs with
  | plain => exact tally_construct isolates alike knows spared _ _ after
  | @rewritten body rewrites =>
      have onObject {standing : Guises} (object : Value) :
          comparison.Tally (standing.bond enclosure.parallel) Eq
            (callMethod run method (object :: arguments))
            (other (.code body.code body.scope (object :: arguments))) :=
        fun _ _ holds => tallies_callBody isolates alike knows holds rewrites
          (Heap.hands_self rfl _)
      have tables := isolates.bare.reachable.tables
      rw [← isolates.module] at tables
      exact tallies_constructBy after (fun object => callMethod run method (object :: arguments))
        (fun object => other (.code body.code body.scope (object :: arguments)))
        (fun module type => module.zeroOfType type) tables.zeroOfType_eq (onObject _)
        fun _ => onObject _

/-! ## Function pointers -/

omit alike

theorem tallies_stubFunction
    (allows : Allows (callsPlainly .functionPointer method arguments) comparison.first one) :
    comparison.Tallies (standing.bond enclosure.parallel) Eq
      (newFunction (.method method) comparison.first one)
      (stubFunction site method comparison.second two) := by
  have answer := (allows.after module_run).answer
  rw [isolates.module, Bool.and_eq_true, Bool.not_eq_true'] at answer
  obtain ⟨isLegible, noBox⟩ := answer
  refine tallies_implementation isolates holds isRun knows false
    (fun callable final runs after => ?_) fun error final read blameless _ =>
      absurd blameless (by simp [Module.blamesBody_of_isLegible isLegible read])
  cases runs with
  | plain => exact tallies_newFunction after (.same knows)
  | rewritten rewrites => exact tallies_newFunction after (.rewritten knows (noBox ▸ rewrites))

theorem tallies_stubVirtualFunction (isInstance : method.isStatic = false)
    (allows : Allows (callsPlainly .virtualFunctionPointer method arguments) comparison.first one) :
    comparison.Tallies (standing.bond enclosure.parallel) Eq
      (StubKind.perform .virtualFunctionPointer run method arguments comparison.first one)
      (stubVirtualFunction site method arguments comparison.second two) := by
  cases arguments with
  | nil => exact tally_nullReference one two holds
  | cons receiver others =>
      have points := pointsPlainly_of_allows allows
      have sameTarget : (Plan.virtual receiver).stubTarget? method receiver comparison.first one =
          (Plan.virtual receiver).target? method comparison.first one := by
        refine stubTarget?_virtual fun location isPointer => ?_
        cases isPointer.symm ▸ points.notAddress
      have spared : (Plan.virtual receiver).Spared standing receiver :=
        sparesValue_of_isAddress points.notAddress
      dsimp only [StubKind.perform]
      rw [virtualTarget_eq points.notAddress, stubVirtualFunction_eq, bind_assoc, bind_run,
        ← sameTarget, ← bind_run]
      refine (mirrored_stubTarget? spared one two holds).seq_run
        fun target? middle final after found => ?_
      have found := sameTarget.symm.trans found
      cases target? with
      | none =>
          have raises : (nullReference >>= fun target => newFunction (.method target)) =
              nullReference := raise_bind ..
          dsimp only
          rw [raises]
          exact tally_nullReference _ _ after
      | some target =>
          obtain ⟨rfl, _⟩ := target?_cases found
          obtain ⟨knowsTarget, _⟩ := found_cases (isolates.module ▸ knows) isInstance
            (show planned none method receiver comparison.first one = .ok _ one from rfl) found
          have isLegible := points.isLegible found
          have bindsBox := points.bindsBox found
          rw [isolates.module] at knowsTarget isLegible bindsBox
          dsimp only
          rw [bind_of_ok module_run, comparison.sameModule, isolates.module, bindsBox]
          refine tallies_implementation isolates after isRun knowsTarget _
            (fun callable final runs after => ?_) fun error final read blameless _ =>
              absurd blameless (by simp [Module.blamesBody_of_isLegible isLegible read])
          cases runs with
          | plain => exact tallies_newFunction after (.same knowsTarget)
          | rewritten rewrites => exact tallies_newFunction after (.rewritten knowsTarget rewrites)

include alike

/-! ## Stubs -/

omit knows in
/-- The plain thread makes a call, and the isolated one runs the stub that stands for it. -/
theorem tallies_runStub (knows : enclosure.module.Knows site.target)
    (isInstance : site.kind.isVirtual = true → site.target.isStatic = false)
    (spared : ∀ value ∈ arguments, standing.SparesValue value)
    (allows : Allows (callsPlainly site.kind site.target arguments) comparison.first one) :
    comparison.Tallies (standing.bond enclosure.parallel) Eq
      (site.kind.perform run site.target arguments comparison.first one)
      (runStub other site arguments comparison.second two) := by
  obtain ⟨isolation, active, _⟩ := active_of_holds holds isRun isolates
  unfold runStub
  rw [bind_of_ok (discard_of_ok (runOf_of_active active))]
  cases kind : site.kind with
  | call =>
      rw [kind] at allows
      exact tallies_stubCall isolates alike holds isRun knows spared allows
  | virtual =>
      rw [kind] at allows isInstance
      refine tallies_stubbedCall isolates alike holds isRun knows (isInstance rfl) none spared
        fun receiver isFirst => ?_
      obtain ⟨others, rfl⟩ := List.head?_eq_some_iff.mp isFirst
      exact passesPlainly_of_allows allows
  | constrained constraint =>
      rw [kind] at allows isInstance
      refine tallies_stubbedCall isolates alike holds isRun knows (isInstance rfl)
        (some constraint) spared fun receiver isFirst => ?_
      obtain ⟨others, rfl⟩ := List.head?_eq_some_iff.mp isFirst
      exact passesPlainly_of_allows allows
  | construct =>
      rw [kind] at allows
      exact tallies_stubConstruct isolates alike holds isRun knows spared allows
  | functionPointer =>
      rw [kind] at allows
      exact tallies_stubFunction isolates holds isRun knows allows
  | virtualFunctionPointer =>
      rw [kind] at allows isInstance
      exact tallies_stubVirtualFunction isolates holds isRun knows (isInstance rfl) allows

end Alike

end Exec

end Cil
