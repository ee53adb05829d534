import Cil.Proofs.Isolation.VirtualDispatch

/-!
# Receivers of virtual calls

A stub of a run without shims calls the method that the interpreter calls, and what the method
writes through its receiver can be seen where it can be seen after the interpreter's call.
There are exceptions.  The stub takes the address of a null reference for null.  It reads an
address that the interpreter only passes on.  And a body that was rewritten for interface
calls takes a box: a value that is given by address is copied into one, so what the body
writes is lost, and a box of another type is refused.
-/

namespace Cil

open Stateful
open MonadExcept (ofExcept)

namespace Exec

variable {context : Context} {machine middle after final : Machine} {site : Stub}
  {method target : MethodDef} {receiver address : Value}

/-! ## The method that is called -/

/-- What a stub knows about a receiver is the type that the interpreter finds. -/
theorem receiverOf?_eq (notNull : receiver.isNull = false)
    (notToNull : ∀ location, receiver = .pointer location →
      ¬ machine.Holds context.module location .null) :
    ∃ object?, receiverOf? receiver context machine =
      (receiverType? receiver >>= fun type? => pure (some ⟨object?, type?⟩)) context machine := by
  cases receiver with
  | null => cases notNull
  | pointer location =>
    cases loaded : load location context machine with
    | error =>
      refine ⟨none, ?_⟩
      simp only [receiverOf?, receiverType?, bind_run, loaded]
    | ok value middle =>
      obtain ⟨holds, rfl⟩ := holds_of_load loaded
      have described : ∃ object?, receiverOf? (.pointer location) context middle =
          (runtimeType? value >>= fun type? => pure (some ⟨object?, type?⟩))
            context middle := by
        cases value with
        | null => exact absurd holds (notToNull location rfl)
        | object reference => exact ⟨some reference, bind_of_ok loaded⟩
        | _ => exact ⟨none, bind_of_ok loaded⟩
      obtain ⟨object?, described⟩ := described
      refine ⟨object?, described.trans ?_⟩
      simp only [receiverType?, bind_assoc]
      rw [bind_of_ok loaded]
  | object reference => exact ⟨some reference, rfl⟩
  | _ => exact ⟨none, rfl⟩

theorem stubTarget?_virtual (notToNull : ∀ location, receiver = .pointer location →
      ¬ machine.Holds context.module location .null) :
    (Plan.virtual receiver).stubTarget? method address context machine =
      (Plan.virtual receiver).target? method context machine := by
  cases isNull : receiver.isNull with
  | true =>
    cases receiver with
    | null => rfl
    | _ => cases isNull
  | false =>
    obtain ⟨object?, described⟩ := receiverOf?_eq isNull notToNull
    simp only [Plan.stubTarget?, Plan.target?, isNull, Bool.false_eq_true, if_false]
    rw [bind_run, described, bind_run, bind_run]
    cases receiverType? receiver context machine with
    | error => rfl
    | ok type? middle => cases type? <;> simp only [pure_run, resolve, pure_bind, bind_assoc]

theorem runtimeType?_ok {value : Value} {type? : Option Token}
    (ran : runtimeType? value context machine = .ok type? final) : machine = final := by
  cases value with
  | object reference =>
    obtain ⟨_, _, read, answered⟩ := bind_ok_iff.mp ran
    obtain ⟨_, rfl⟩ := readHeap_ok_iff.mp read
    exact (pure_ok_iff.mp answered).2
  | _ => exact (pure_ok_iff.mp ran).2

theorem receiverOf?_ok {known? : Option Receiver}
    (ran : receiverOf? receiver context machine = .ok known? final) :
    machine = final ∧ ∀ location, receiver = .pointer location →
      ∃ value, machine.Holds context.module location value := by
  cases receiver with
  | null =>
    cases ran
    exact ⟨rfl, nofun⟩
  | pointer location =>
    obtain ⟨value, _, read, described⟩ := bind_ok_iff.mp ran
    obtain ⟨holds, rfl⟩ := holds_of_load read
    refine ⟨?_, ?_⟩
    · cases value with
      | null => exact (pure_ok_iff.mp described).2
      | _ =>
        obtain ⟨_, _, typed, answered⟩ := bind_ok_iff.mp described
        obtain rfl := runtimeType?_ok typed
        exact (pure_ok_iff.mp answered).2
    · rintro _ ⟨⟩
      exact ⟨value, holds⟩
  | _ =>
    obtain ⟨_, _, given, described⟩ := bind_ok_iff.mp ran
    obtain ⟨rfl, rfl⟩ := pure_ok_iff.mp given
    obtain ⟨_, _, typed, answered⟩ := bind_ok_iff.mp described
    obtain rfl := runtimeType?_ok typed
    exact ⟨(pure_ok_iff.mp answered).2, nofun⟩

theorem runOf_ok {isolation : IsolationRun}
    (ran : runOf site context machine = .ok isolation final) : machine = final := by
  unfold runOf at ran
  rw [bind_of_ok get_run] at ran
  cases active : machine.run? site.run with
  | some isolation =>
    rw [active] at ran
    exact (pure_ok_iff.mp ran).2
  | none =>
    rw [active] at ran
    cases ran

theorem implementation_ok {forInterface : Bool} {callable : Callable}
    (ran : implementation site target forInterface context machine = .ok callable after) :
    ∃ runs, after = { machine with runs } := by
  obtain ⟨isolation, _, active, made⟩ := bind_ok_iff.mp ran
  have unchanged : machine = _ := runOf_ok active
  subst unchanged
  obtain ⟨_, _, isModule, made⟩ := bind_ok_iff.mp made
  cases isModule
  unfold onRun at made
  split at made
  · cases made
    exact ⟨_, rfl⟩
  · cases made

/-! ## Writes through a receiver -/

/-- A location inside of what a receiver leads to. -/
def locationThrough? (receiver : Value) (path : List Token) : Option Pointer :=
  match receiver, path with
  | .pointer location, path => some (location.through path)
  | .object reference, [] => some (.boxed reference)
  | .object reference, field :: path =>
    some ((Pointer.objectField reference field).through path)
  | _, _ => none

/-- A write that succeeds through the receiver that a body works on, and that is seen through
another value afterwards. -/
def Shows (context : Context) (machine : Machine) (working : Exec Value) (observer : Value)
    (path : List Token) (value : Value) : Prop :=
  ∃ receiver middle written final watched,
    working context machine = .ok receiver middle ∧
      locationThrough? receiver path = some written ∧
      store written value context middle = .ok ⟨⟩ final ∧
      locationThrough? observer path = some watched ∧
      load watched context final = .ok value final

/-- Whether a stub runs a body that takes its receiver in a box. -/
def takesBox (module : Module) (target : MethodDef) (forInterface : Bool)
    (callable : Callable) : Bool :=
  forInterface && isDynamic callable && module.isValueType target.declaringType

/-- The receiver that the body works on that a stub runs. -/
def Plan.working (module : Module) (target : MethodDef) (forInterface : Bool)
    (callable : Callable) (address : Value) (plan : Plan) : Exec Value := do
  let passed ← plan.stubPassed module target (forInterface && isDynamic callable) address
  if takesBox module target forInterface callable then
    return .pointer (.boxed (← boxOf passed target.declaringType))
  else return passed

variable {forInterface : Bool} {callable : Callable} {observer : Value} {path : List Token}
  {value : Value}

/-- Isolation runs do not matter to what is seen. -/
theorem Shows.withRuns (shows : Shows context machine (pure receiver) observer path value)
    (runs : Array (Option IsolationRun)) :
    Shows context { machine with runs } (pure receiver) observer path value := by
  obtain ⟨_, _, written, final, watched, worked, leads, stored, observes, loaded⟩ := shows
  obtain ⟨rfl, rfl⟩ := pure_ok_iff.mp worked
  refine ⟨receiver, _, written, { final with runs }, watched, rfl, leads, ?_, observes, ?_⟩
  · exact store_of_stores ((stores_of_store stored).withRuns runs)
  · obtain ⟨holds, _⟩ := holds_of_load loaded
    exact load_of_holds (holds.extend ⟨rfl, rfl, fun _ _ live => live⟩)

theorem shows_withRuns_iff {runs : Array (Option IsolationRun)} :
    Shows context { machine with runs } (pure receiver) observer path value ↔
      Shows context machine (pure receiver) observer path value :=
  ⟨fun shows => shows.withRuns machine.runs, fun shows => shows.withRuns runs⟩

theorem invalidCast_ne_ok {α : Type} {type : Token} {result : α} :
    invalidCast value type context machine ≠ .ok result final := by
  intro ran
  obtain ⟨_, _, _, rest⟩ := bind_ok_iff.mp ran
  obtain ⟨_, _, _, raised⟩ := bind_ok_iff.mp rest
  exact raise_ne_ok raised

theorem objectOf_eq_ok {reference : HeapRef} :
    objectOf receiver context machine = .ok reference final ↔
      receiver = .object reference ∧ machine = final := by
  constructor
  · intro ran
    obtain ⟨reference?, _, given, rest⟩ := bind_ok_iff.mp ran
    obtain ⟨isObject, rfl⟩ := ofExcept_ok_iff.mp given
    cases receiver with
    | object reference =>
      cases isObject
      cases rest
      exact ⟨rfl, rfl⟩
    | null =>
      cases isObject
      exact absurd rest raise_ne_ok
    | _ => cases isObject
  · rintro ⟨rfl, rfl⟩
    rfl

theorem boxOf_eq_ok {type : Token} {reference : HeapRef} :
    boxOf receiver type context machine = .ok reference final ↔
      receiver = .object reference ∧ machine = final ∧
        ∃ inside, machine.heap.get reference = .ok (.boxed type inside) := by
  constructor
  · intro ran
    obtain ⟨object, _, isObject, rest⟩ := bind_ok_iff.mp ran
    obtain ⟨rfl, rfl⟩ := objectOf_eq_ok.mp isObject
    obtain ⟨found, _, read, rest⟩ := bind_ok_iff.mp rest
    obtain ⟨live, rfl⟩ := readHeap_ok_iff.mp read
    cases found with
    | boxed boxedType inside =>
      dsimp only at rest
      by_cases same : boxedType = type
      · rw [if_pos same] at rest
        obtain ⟨rfl, rfl⟩ := pure_ok_iff.mp rest
        exact ⟨rfl, rfl, inside, same ▸ live⟩
      · rw [if_neg same] at rest
        exact absurd rest invalidCast_ne_ok
    | _ => exact absurd rest invalidCast_ne_ok
  · rintro ⟨rfl, rfl, inside, live⟩
    refine bind_ok_iff.mpr ⟨reference, machine, rfl, ?_⟩
    rw [bind_of_ok (readHeap_of_ok live)]
    dsimp only
    rw [if_pos rfl, pure_run]

theorem exists_boxed_of_stores {module : Module} {reference : HeapRef}
    (stores : machine.Stores module ((Pointer.boxed reference).through path) value final) :
    ∃ type inside, machine.heap.get reference = .ok (.boxed type inside) := by
  rcases stores.whole with ⟨_, holds⟩ | ⟨_, stores⟩
  · cases holds with
    | boxed live => exact ⟨_, _, live⟩
  · cases stores with
    | boxed live => exact ⟨_, _, live⟩

/-! ## Calls that go alike -/

section Calls

variable {constraint? : Option Token} {plan : Plan}

/-- What a stub has found when it passes the receiver on. -/
structure Prepares (context : Context) (machine : Machine) (site : Stub)
    (constraint? : Option Token) (method : MethodDef) (receiver : Value) (plan : Plan)
    (middle : Machine) (target : MethodDef) (callable : Callable) (after : Machine) :
    Prop where
  plans : planned constraint? method receiver context machine = .ok plan middle
  chooses : plan.stubTarget? method receiver context middle = .ok (some target) middle
  implements : implementation site target (plan.forInterface context.module method) context
    middle = .ok callable after

/-- A stub and the interpreter find the same method or the same failure, and null for the same
receivers, and what is written through the receiver can be seen through the same values. -/
structure DispatchesAlike (context : Context) (machine : Machine) (site : Stub)
    (constraint? : Option Token) (method : MethodDef) (receiver : Value) : Prop where
  targets : (planned constraint? method receiver >>= Plan.target? method) context machine =
    (planned constraint? method receiver >>= Plan.stubTarget? method receiver) context machine
  writes : ∀ {plan middle target callable after},
    Prepares context machine site constraint? method receiver plan middle target callable
      after → ∀ observer path value,
    (Shows context middle (pure (plan.passed context.module target receiver)) observer path
        value ↔
      Shows context after (plan.working context.module target
        (plan.forInterface context.module method) callable receiver) observer path value)

/-- What sets the call of a stub apart from the interpreter's. -/
inductive Strays (context : Context) (machine : Machine) (site : Stub)
    (constraint? : Option Token) (method : MethodDef) (receiver : Value) : Prop
  /-- The receiver is the address of a null reference. -/
  | null {location : Pointer} {middle : Machine}
      (plans : planned constraint? method receiver context machine =
        .ok (.virtual (.pointer location)) middle)
      (holds : middle.Holds context.module location .null)
  /-- What is at the address cannot be read. -/
  | unread {target : MethodDef} {error : Error} {middle final : Machine}
      (plans : planned constraint? method receiver context machine = .ok (.own target) middle)
      (fails : receiverOf? receiver context middle = .error error final)
  /-- The body works on a copy of what is at the address. -/
  | copied {location : Pointer} {middle after : Machine} {target : MethodDef}
      {callable : Callable}
      (prepares : Prepares context machine site constraint? method receiver
        (.virtual (.pointer location)) middle target callable after)
      (boxes : takesBox context.module target
        (context.module.isInterface method.declaringType) callable)
  /-- The body refuses the box. -/
  | refused {reference : HeapRef} {type : Token} {inside : Value} {middle after : Machine}
      {target : MethodDef} {callable : Callable}
      (prepares : Prepares context machine site constraint? method receiver
        (.virtual (.object reference)) middle target callable after)
      (boxes : takesBox context.module target
        (context.module.isInterface method.declaringType) callable)
      (live : middle.heap.get reference = .ok (.boxed type inside))
      (other : type ≠ target.declaringType)

/-! ### Calls that do not stray -/

theorem targets_of_not_strays
    (regular : ¬ Strays context machine site constraint? method receiver) :
    (planned constraint? method receiver >>= Plan.target? method) context machine =
      (planned constraint? method receiver >>= Plan.stubTarget? method receiver) context
        machine := by
  rw [bind_run, bind_run]
  cases plans : planned constraint? method receiver context machine with
  | error => rfl
  | ok plan middle =>
    cases plan with
    | own target =>
      dsimp only [Plan.target?, Plan.stubTarget?]
      cases described : receiverOf? receiver context middle with
      | error => exact absurd (.unread plans described) regular
      | ok known? final =>
        obtain ⟨rfl, _⟩ := receiverOf?_ok described
        rw [bind_of_ok described]
    | virtual value =>
      refine (stubTarget?_virtual ?_).symm
      rintro location rfl holds
      exact regular (.null plans holds)

theorem shows_iff_of_runs {working : Exec Value} {seen : Value}
    {runs : Array (Option IsolationRun)}
    (worked : working context { machine with runs } = .ok seen { machine with runs }) :
    Shows context machine (pure seen) observer path value ↔
      Shows context { machine with runs } working observer path value := by
  have same : Shows context { machine with runs } (pure seen) observer path value ↔
      Shows context machine (pure seen) observer path value := shows_withRuns_iff
  rw [← same]
  unfold Shows
  rw [worked]
  rfl

/-- Without a box, a body works on the receiver that the interpreter passes on. -/
theorem working_of_not_takesBox
    (noBox : takesBox context.module target (plan.forInterface context.module method) callable =
      false) :
    plan.working context.module target (plan.forInterface context.module method) callable
      address context machine = .ok (plan.passed context.module target address) machine := by
  simp only [Plan.working, noBox, Bool.false_eq_true, if_false, bind_pure]
  cases plan with
  | own _ => rfl
  | virtual value =>
    by_cases isValueType : context.module.isValueType target.declaringType = true
    · have plain : ((Plan.virtual value).forInterface context.module method &&
          isDynamic callable) = false := by
        simpa [takesBox, isValueType] using noBox
      simp only [Plan.stubPassed, Plan.passed, isValueType, if_true, plain]
      cases value <;> rfl
    · simp only [Plan.stubPassed, Plan.passed, isValueType]
      rfl

theorem adjustReceiver_of_takesBox {given : Value}
    (boxes : takesBox context.module target forInterface callable) :
    (Plan.virtual given).stubPassed context.module target (forInterface && isDynamic callable)
      address = adjustReceiver target.declaringType true given := by
  obtain ⟨wantsBox, isValueType⟩ := Bool.and_eq_true_iff.mp boxes
  simp only [Plan.stubPassed, wantsBox, isValueType, if_true]

/-- A body that takes a box works on what is in the box. -/
theorem working_object {reference : HeapRef} {inside : Value}
    (boxes : takesBox context.module target forInterface callable)
    (live : machine.heap.get reference = .ok (.boxed target.declaringType inside)) :
    (Plan.virtual (.object reference)).working context.module target forInterface callable
      address context machine = .ok (.pointer (.boxed reference)) machine := by
  have unboxed : boxOf (.object reference) target.declaringType context machine =
      .ok reference machine := boxOf_eq_ok.mpr ⟨rfl, rfl, inside, live⟩
  simp only [Plan.working, adjustReceiver_of_takesBox boxes, boxes, if_true, adjustReceiver,
    pure_bind]
  rw [bind_of_ok unboxed, pure_run]

/-- If a body that takes a box gets to work, then on what is in the box that was given, or in
a new one. -/
theorem working_ok {given working : Value}
    (boxes : takesBox context.module target forInterface callable)
    (worked : (Plan.virtual given).working context.module target forInterface callable address
      context machine = .ok working final) :
    ∃ reference inside, working = .pointer (.boxed reference) ∧
      final.heap.get reference = .ok (.boxed target.declaringType inside) ∧
      ((given = .object reference ∧ machine = final) ∨
        (∃ location, given = .pointer location) ∧ machine.heap.count < reference.id ∧
          machine.Extends final) := by
  obtain ⟨passed, middle, adjusted, rest⟩ := bind_ok_iff.mp worked
  rw [adjustReceiver_of_takesBox boxes] at adjusted
  rw [if_pos boxes] at rest
  obtain ⟨reference, _, unboxed, answered⟩ := bind_ok_iff.mp rest
  obtain ⟨rfl, rfl, inside, live⟩ := boxOf_eq_ok.mp unboxed
  obtain ⟨rfl, rfl⟩ := pure_ok_iff.mp answered
  refine ⟨reference, inside, rfl, live, ?_⟩
  cases given with
  | object given =>
    obtain ⟨same, rfl⟩ := pure_ok_iff.mp adjusted
    exact .inl ⟨same, rfl⟩
  | pointer location =>
    obtain ⟨value, _, loaded, boxed⟩ := bind_ok_iff.mp adjusted
    obtain ⟨_, rfl⟩ := holds_of_load loaded
    obtain ⟨_, _, isModule, boxed⟩ := bind_ok_iff.mp boxed
    cases isModule
    obtain ⟨_, isValueType⟩ := Bool.and_eq_true_iff.mp boxes
    rw [if_pos isValueType] at boxed
    obtain ⟨_, _, onHeap, answered⟩ := bind_ok_iff.mp boxed
    obtain ⟨_, allocated, rfl⟩ := onHeap_ok_iff.mp onHeap
    obtain ⟨_, rfl, rfl⟩ := Heap.allocate_eq_ok.mp allocated
    cases answered
    exact .inr ⟨⟨location, rfl⟩, Nat.lt_succ_self _, Machine.extends_push _ _⟩
  | _ => cases adjusted

/-- Where the interpreter's call can write, the receiver is a box of the type. -/
theorem isBox_of_shows_passed {middle after : Machine} {target : MethodDef} {callable : Callable}
    {given : Value}
    (prepares : Prepares context machine site constraint? method receiver (.virtual given) middle
      target callable after)
    (regular : ¬ Strays context machine site constraint? method receiver)
    (boxes : takesBox context.module target
      ((Plan.virtual given).forInterface context.module method) callable = true)
    (shows : Shows context middle (pure (unboxedReceiver given)) observer path value) :
    ∃ reference inside, given = .object reference ∧
      middle.heap.get reference = .ok (.boxed target.declaringType inside) := by
  obtain ⟨_, _, written, final, _, worked, leads, stored, _⟩ := shows
  obtain ⟨rfl, rfl⟩ := pure_ok_iff.mp worked
  cases given with
  | pointer location => exact absurd (.copied prepares boxes) regular
  | object reference =>
    obtain rfl := Option.some.inj leads
    obtain ⟨type, inside, live⟩ := exists_boxed_of_stores (stores_of_store stored)
    by_cases same : type = target.declaringType
    · exact ⟨reference, inside, rfl, same ▸ live⟩
    · exact absurd (.refused prepares boxes live same) regular
  | _ => cases leads

/-- So it is where a body that takes a box can write. -/
theorem isBox_of_shows_working {middle after : Machine} {target : MethodDef} {callable : Callable}
    {given : Value} {runs : Array (Option IsolationRun)}
    (prepares : Prepares context machine site constraint? method receiver (.virtual given) middle
      target callable after)
    (regular : ¬ Strays context machine site constraint? method receiver)
    (boxes : takesBox context.module target
      ((Plan.virtual given).forInterface context.module method) callable = true)
    (shows : Shows context { middle with runs } ((Plan.virtual given).working context.module
      target ((Plan.virtual given).forInterface context.module method) callable receiver)
      observer path value) :
    ∃ reference inside, given = .object reference ∧
      middle.heap.get reference = .ok (.boxed target.declaringType inside) := by
  obtain ⟨working, final, _, _, _, worked, _⟩ := shows
  obtain ⟨reference, inside, _, live, ⟨rfl, rfl⟩ | ⟨⟨location, rfl⟩, _⟩⟩ :=
    working_ok boxes worked
  · exact ⟨reference, inside, rfl, live⟩
  · exact absurd (.copied prepares boxes) regular

theorem shows_iff_of_not_strays {middle after : Machine} {target : MethodDef}
    {callable : Callable}
    (prepares : Prepares context machine site constraint? method receiver plan middle target
      callable after)
    (regular : ¬ Strays context machine site constraint? method receiver) :
    Shows context middle (pure (plan.passed context.module target receiver)) observer path
        value ↔
      Shows context after (plan.working context.module target
        (plan.forInterface context.module method) callable receiver) observer path value := by
  obtain ⟨runs, rfl⟩ := implementation_ok prepares.implements
  cases boxes : takesBox context.module target (plan.forInterface context.module method)
    callable with
  | false => exact shows_iff_of_runs (working_of_not_takesBox boxes)
  | true =>
    cases plan with
    | own _ => cases boxes
    | virtual given =>
      have isValueType : context.module.isValueType target.declaringType :=
        (Bool.and_eq_true_iff.mp boxes).2
      have passed : (Plan.virtual given).passed context.module target receiver =
          unboxedReceiver given := by
        simp only [Plan.passed, isValueType, if_true]
      rw [passed]
      by_cases isBox : ∃ reference inside, given = .object reference ∧
          middle.heap.get reference = .ok (.boxed target.declaringType inside)
      · obtain ⟨reference, inside, rfl, live⟩ := isBox
        exact shows_iff_of_runs (working_object boxes live)
      -- What is no box of the type can be written neither here nor there.
      · exact ⟨fun shows => absurd (isBox_of_shows_passed prepares regular boxes shows) isBox,
          fun shows => absurd (isBox_of_shows_working prepares regular boxes shows) isBox⟩

/-! ### Calls that stray -/

theorem targets_differ_of_null {location : Pointer}
    (plans : planned constraint? method receiver context machine =
      .ok (.virtual (.pointer location)) middle)
    (holds : middle.Holds context.module location .null) :
    (planned constraint? method receiver >>= Plan.target? method) context machine ≠
      (planned constraint? method receiver >>= Plan.stubTarget? method receiver) context
        machine := by
  have typed : receiverType? (.pointer location) context middle = .ok none middle := by
    dsimp only [receiverType?]
    rw [bind_of_ok (load_of_holds holds)]
    rfl
  have described : receiverOf? (.pointer location) context middle = .ok none middle := by
    dsimp only [receiverOf?]
    rw [bind_of_ok (load_of_holds holds)]
    rfl
  rw [bind_of_ok plans, bind_of_ok plans]
  have present : (Value.pointer location).isNull = false := rfl
  simp only [Plan.target?, Plan.stubTarget?, present, Bool.false_eq_true, if_false]
  rw [bind_of_ok typed, bind_of_ok described]
  intro same
  cases same

theorem targets_differ_of_unread {error : Error}
    (plans : planned constraint? method receiver context machine = .ok (.own target) middle)
    (fails : receiverOf? receiver context middle = .error error final) :
    (planned constraint? method receiver >>= Plan.target? method) context machine ≠
      (planned constraint? method receiver >>= Plan.stubTarget? method receiver) context
        machine := by
  rw [bind_of_ok plans, bind_of_ok plans]
  dsimp only [Plan.target?, Plan.stubTarget?]
  rw [bind_run, fails]
  intro same
  cases same

theorem exists_ne (value : Value) : ∃ other : Value, other ≠ value := by
  cases value with
  | void => exact ⟨.null, nofun⟩
  | _ => exact ⟨.void, nofun⟩

/-- What the interpreter's call writes can be seen at the address; a copy in a box is another
place. -/
theorem writes_differ_of_copied {location : Pointer}
    (prepares : Prepares context machine site constraint? method receiver
      (.virtual (.pointer location)) middle target callable after)
    (boxes : takesBox context.module target
      (context.module.isInterface method.declaringType) callable) :
    ∃ value,
      Shows context middle (pure ((Plan.virtual (.pointer location)).passed context.module
        target receiver)) (.pointer location) [] value ∧
      ¬ Shows context after ((Plan.virtual (.pointer location)).working context.module target
        (context.module.isInterface method.declaringType) callable receiver)
        (.pointer location) [] value := by
  obtain ⟨runs, rfl⟩ := implementation_ok prepares.implements
  obtain ⟨_, _, read, _⟩ := bind_ok_iff.mp prepares.chooses
  obtain ⟨rfl, readable⟩ := receiverOf?_ok read
  obtain ⟨held, holds⟩ := readable location rfl
  obtain ⟨value, other⟩ := exists_ne held
  refine ⟨value, ?_, ?_⟩
  · have passed : (Plan.virtual (.pointer location)).passed context.module target receiver =
        .pointer location := by
      simp only [Plan.passed, unboxedReceiver, ite_self]
    obtain ⟨final, stores⟩ := holds.exists_stores value
    exact ⟨.pointer location, _, location, final, location, by rw [passed, pure_run], rfl,
      store_of_stores stores, rfl, load_of_holds (stores.holds_new holds)⟩
  · rintro ⟨working, _, _, final, _, worked, leads, stored, observes, loaded⟩
    obtain ⟨reference, inside, rfl, _, ⟨impossible, _⟩ | ⟨_, fresh, extension⟩⟩ :=
      working_ok boxes worked
    · cases impossible
    · obtain rfl := Option.some.inj leads
      obtain rfl := Option.some.inj observes
      have copied : Machine.Holds context.module { middle with runs } location held :=
        holds.extend ⟨rfl, rfl, fun _ _ live => live⟩
      have kept : final.Holds context.module location held :=
        copied.extend (extension.store_fresh fresh (stores_of_store stored))
      have reread : load location context final = .ok value final := loaded
      rw [load_of_holds kept] at reread
      cases reread
      exact other rfl

/-- What the interpreter's call writes into the box can be seen there; the other body does not
get to work. -/
theorem writes_differ_of_refused {reference : HeapRef} {type : Token} {inside : Value}
    (prepares : Prepares context machine site constraint? method receiver
      (.virtual (.object reference)) middle target callable after)
    (boxes : takesBox context.module target
      (context.module.isInterface method.declaringType) callable)
    (live : middle.heap.get reference = .ok (.boxed type inside))
    (other : type ≠ target.declaringType) (value : Value) :
    Shows context middle (pure ((Plan.virtual (.object reference)).passed context.module
        target receiver)) (.object reference) [] value ∧
      ¬ Shows context after ((Plan.virtual (.object reference)).working context.module target
        (context.module.isInterface method.declaringType) callable receiver)
        (.object reference) [] value := by
  obtain ⟨runs, rfl⟩ := implementation_ok prepares.implements
  constructor
  · have passed : (Plan.virtual (.object reference)).passed context.module target receiver =
        .pointer (.boxed reference) := by
      have isValueType : context.module.isValueType target.declaringType :=
        (Bool.and_eq_true_iff.mp boxes).2
      simp only [Plan.passed, unboxedReceiver, isValueType, if_true]
    have stores : middle.Stores context.module (.boxed reference) value _ := .boxed live
    exact ⟨.pointer (.boxed reference), _, .boxed reference, _, .boxed reference,
      by rw [passed, pure_run], rfl, store_of_stores stores, rfl,
      load_of_holds (stores.holds_new (.boxed live))⟩
  · rintro ⟨working, _, _, _, _, worked, _⟩
    obtain ⟨found, _, _, boxed, ⟨same, rfl⟩ | ⟨⟨_, impossible⟩, _⟩⟩ := working_ok boxes worked
    · cases same
      cases live.symm.trans boxed
      exact other rfl
    · cases impossible

/-- A stub calls as the interpreter does, unless the call strays. -/
theorem dispatchesAlike_iff :
    DispatchesAlike context machine site constraint? method receiver ↔
      ¬ Strays context machine site constraint? method receiver := by
  constructor
  · intro alike strays
    cases strays with
    | null plans holds => exact targets_differ_of_null plans holds alike.targets
    | unread plans fails => exact targets_differ_of_unread plans fails alike.targets
    | copied prepares boxes =>
      obtain ⟨value, seen, unseen⟩ := writes_differ_of_copied prepares boxes
      exact unseen ((alike.writes prepares _ _ _).mp seen)
    | refused prepares boxes live other =>
      obtain ⟨seen, unseen⟩ := writes_differ_of_refused prepares boxes live other .void
      exact unseen ((alike.writes prepares _ _ _).mp seen)
  · intro regular
    exact ⟨targets_of_not_strays regular,
      fun prepares _ _ _ => shows_iff_of_not_strays prepares regular⟩

/-- A virtual call and the same call through a stub: what they come to, and that it is alike
unless the call strays. -/
theorem stubbedCall_alike_iff (call : UnshimmedCall context machine site method)
    (constraint? : Option Token) (receiver : Value) :
    (∀ run, stubbedCall run site constraint? method [] context machine =
      virtualCall run constraint? method [] context machine) ∧
    (∀ run others, virtualCall run constraint? method (receiver :: others) context machine =
      (planned constraint? method receiver >>= Plan.run run method receiver others)
        context machine) ∧
    (∀ run others, stubbedCall run site constraint? method (receiver :: others) context machine =
      (planned constraint? method receiver >>= Plan.runStub run site method receiver others)
        context machine) ∧
    (DispatchesAlike context machine site constraint? method receiver ↔
      ¬ Strays context machine site constraint? method receiver) := by
  refine ⟨fun run => ?_, fun run others => by rw [virtualCall_eq],
    fun run others => stubbedCall_eq call run constraint? receiver others, dispatchesAlike_iff⟩
  cases constraint? <;> rfl

end Calls

end Exec

/-! ## Cells -/

namespace Cells

def interface : Token := .ofRow .typeDef 18
def cell : Token := .ofRow .typeDef 19
def content : Token := .ofRow .field 2

def set : MethodDeclaration :=
  { name := "Set", flags := MethodModifiers.isVirtual, returnType := .void }

def declared : Module :=
  finalState (Module.declareField cell { name := "content", signature := .int32 } (finalState
    (Module.declareType (TypeDeclaration.asValueType
      { space := "Demo", name := "Cell", interfaces := [interface] }) (finalState
      (Module.declareMethod interface set.asAbstract (finalState
        (Module.declareType (TypeDeclaration.asInterface { space := "Demo", name := "ISet" })
          Module.initial)))))))

/-- The method of the cell stores five into it. -/
def module : Module :=
  finalState (Module.setBody (.ofRow .methodDef 27)
    [0x22, 0x02, 0x1B, 0x7D, 0x02, 0x00, 0x00, 0x04, 0x2A] (finalState
      (Module.declareMethod cell set declared)))

def method (row : Nat) : MethodDef :=
  ((module.method (.ofRow .methodDef row)).toOption).getD default

def zero : Value := .record cell [(content, .int32 0)]

def machine : Machine :=
  { Machine.ofModule module .standard with
    heap := ⟨#[.boxed cell zero], 0⟩
    frames := #[{ arguments := #[], locals := #[zero] }]
    runs := #[some { shims := [], config := {} }] }

def site : Stub := ⟨0, .virtual, method 26⟩

theorem call : Exec.UnshimmedCall ⟨module, .standard⟩ machine site (method 26) where
  isInstance := by decide +kernel
  declared := ⟨_, rfl⟩
  active := ⟨_, rfl, rfl⟩

theorem resolved : module.resolveVirtual cell (method 26) = .ok (method 27) := by
  have found : (module.resolveVirtual cell (method 26)).toOption = some (method 27) := by
    decide +kernel
  cases target : module.resolveVirtual cell (method 26) with
  | error => rw [target] at found; cases found
  | ok other => rw [target] at found; rw [Option.some.inj found]

theorem chooses {receiver : Value} {object? : Option HeapRef}
    (described : Exec.receiverOf? receiver ⟨module, .standard⟩ machine =
      .ok (some ⟨object?, some cell⟩) machine) :
    (Exec.Plan.virtual receiver).stubTarget? (method 26) receiver ⟨module, .standard⟩ machine =
      .ok (some (method 27)) machine := by
  have found : Exec.resolve (method 26) ⟨object?, some cell⟩ ⟨module, .standard⟩ machine =
      .ok (method 27) machine :=
    Exec.bind_ok_iff.mpr ⟨_, _, Exec.module_run, Exec.ofExcept_ok_iff.mpr ⟨resolved, rfl⟩⟩
  dsimp only [Exec.Plan.stubTarget?]
  rw [Exec.bind_of_ok described]
  dsimp only
  rw [Exec.bind_of_ok found, Exec.pure_run]

/-- The value is given by address: what the rewritten method stores is lost. -/
theorem address_not_alike :
    ¬ ∀ (context : Context) (machine : Machine) (site : Stub) (constraint? : Option Token)
      (method : MethodDef) (receiver : Value),
      Exec.UnshimmedCall context machine site method →
        Exec.DispatchesAlike context machine site constraint? method receiver := by
  intro alike
  have instruments : ∃ callable after,
      Exec.implementation site (method 27) true ⟨module, .standard⟩ machine =
        .ok callable after ∧ Exec.isDynamic callable = true := by
    have dynamic : (match Exec.implementation site (method 27) true ⟨module, .standard⟩
        machine with
      | .ok callable _ => Exec.isDynamic callable
      | .error _ _ => false) = true := by
      decide +kernel
    cases made : Exec.implementation site (method 27) true ⟨module, .standard⟩ machine with
    | ok callable after => exact ⟨callable, after, rfl, by rw [made] at dynamic; exact dynamic⟩
    | error => rw [made] at dynamic; cases dynamic
  obtain ⟨callable, after, implements, dynamic⟩ := instruments
  have isInterface : module.isInterface (method 26).declaringType = true := by decide +kernel
  have isValueType : module.isValueType (method 27).declaringType = true := by decide +kernel
  have prepares : Exec.Prepares ⟨module, .standard⟩ machine site none (method 26)
      (.pointer (.localSlot 0 0)) (.virtual (.pointer (.localSlot 0 0))) machine (method 27)
      callable after := by
    refine ⟨rfl, chooses rfl, ?_⟩
    simpa only [Exec.Plan.forInterface, isInterface] using implements
  refine Exec.dispatchesAlike_iff.mp (alike _ _ _ none _ _ call) (.copied prepares ?_)
  simp [Exec.takesBox, isInterface, dynamic, isValueType]

/-- The value is given in a box of its own type. -/
theorem box_alike :
    Exec.DispatchesAlike ⟨module, .standard⟩ machine site none (method 26) (.object ⟨1⟩) := by
  obtain ⟨_, _, _, alike⟩ := Exec.stubbedCall_alike_iff call none (.object ⟨1⟩)
  rw [alike]
  intro strays
  cases strays with
  | null plans _ => cases plans
  | unread plans _ => cases plans
  | copied prepares _ => cases prepares.plans
  | refused prepares _ live other =>
    cases prepares.plans
    cases prepares.chooses.symm.trans (chooses rfl)
    cases live
    exact other (by decide +kernel)

end Cells

end Cil
