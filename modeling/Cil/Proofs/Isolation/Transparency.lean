import Cil.Isolation.Isolate
import Cil.Proofs.Isolation.Interception
import Cil.Proofs.Isolation.ParallelRuns

/-!
# Isolated runs without shims

A run without shims does what a plain call of its entry method does, as long as nothing happens
that isolation does not keep: where the care lets the plain call go on to its end, both return the
same value or fail alike, with the same lines on the console and the same static fields.  The
isolated run may also fail to rewrite a method.
-/

namespace Cil

open Stateful

/-! ## Runs within bounds -/

namespace Machine

/-- Calls a method with care and within bounds. -/
def invokeUnder (care : Care) (bounds : Bounds) (machine : Machine) (module : Module)
    (entry : Token) (arguments : List Value) : Except Error Value × Machine :=
  machine.onThread module machine.limits do
    Exec.runToEndUnder care bounds (.method (← Exec.method entry)) arguments

/-- Runs a method in isolation and within bounds. -/
def invokeIsolatedWithin (bounds : Bounds) (machine : Machine) (module : Module) (id : Nat)
    (entry : Token) (arguments : List Value) : Except Error Value × Machine :=
  machine.onThread module (machine.runLimits id) do
    let stub ← Exec.stubOf id .call (← Exec.method entry)
    Exec.runToEndUnder .none bounds (.native stub) arguments

theorem invokeUnder_none (machine : Machine) (module : Module) (entry : Token)
    (arguments : List Value) :
    machine.invokeUnder .none .machine module entry arguments =
      machine.invoke module entry arguments := by
  simp only [invokeUnder, Exec.runToEndUnder_none, invoke]

theorem invokeIsolatedWithin_machine (machine : Machine) (module : Module) (id : Nat)
    (entry : Token) (arguments : List Value) :
    machine.invokeIsolatedWithin .machine module id entry arguments =
      machine.invokeIsolated module id entry arguments := by
  simp only [invokeIsolatedWithin, Exec.runToEndUnder_none, invokeIsolated]

end Machine

/-! ## What can be seen of a run -/

/-- Outcomes that look the same: the same value, the same managed exception that nobody handled,
or another error of the same kind. -/
inductive Outcome.Alike : Except Error Value → Except Error Value → Prop
  | returned (value : Value) : Alike (.ok value) (.ok value)
  | unhandled (type message : String) :
      Alike (.error (.managedException type message)) (.error (.managedException type message))
  | failed {error other : Error} (unmanaged : error.kind ≠ "ManagedException")
      (kind : other.kind = error.kind) : Alike (.error error) (.error other)

/-- Runs that look the same from outside. -/
structure Machine.EndsAlike (first second : Except Error Value × Machine) : Prop where
  outcome : Outcome.Alike first.1 second.1
  console : second.2.console = first.2.console
  statics : second.2.statics = first.2.statics

theorem Outcome.Alike.of_resembles {error other : Error} (resembles : error.Resembles other) :
    Outcome.Alike (.error error) (.error other) := by
  by_cases managed : error.kind = "ManagedException"
  · obtain rfl := resembles.described managed
    cases other with
    | managedException type message => exact .unhandled type message
    | _ => exact absurd managed (by simp [Error.kind])
  · exact .failed managed resembles.kind

/-- The run fails with the error of a method that it cannot rewrite. -/
def Enclosure.IsRefused (enclosure : Enclosure) (outcome : Except Error Value) : Prop :=
  ∃ error, outcome = .error error ∧ enclosure.Refuses error

/-- Bounds that leave room for what the other thread does, where a thread that runs out of fuel is
not excused. -/
structure Comparison.LeavesRoom (comparison : Comparison) (bounds otherBounds : Bounds) : Prop where
  first : ¬ comparison.ExcusesFirst .outOfFuel →
    otherBounds.rounds comparison.second.limits * (Token.rowBound + 1) + Token.rowBound ≤
        bounds.rounds comparison.first.limits ∧
      otherBounds.calls comparison.second.limits ≤ bounds.calls comparison.first.limits + 1
  second : ¬ comparison.ExcusesSecond .outOfFuel →
    2 * bounds.rounds comparison.first.limits ≤ otherBounds.rounds comparison.second.limits ∧
      2 * bounds.calls comparison.first.limits < otherBounds.calls comparison.second.limits

theorem Stub.exists_native_of_isStatic (module : Module) (id : Nat) {method : MethodDef}
    (isStatic : method.isStatic = true) :
    ∃ native, Stub.native module ⟨id, .call, method⟩ = .ok native := by
  have signed : StubKind.signature module .call method = .ok (method.params, method.returnType) :=
    if_pos isStatic
  exact ⟨_, except_bind_eq_ok.mpr ⟨_, signed, rfl⟩⟩

theorem Guises.sparesValue_nil (value : Value) : Guises.SparesValue [] value := by
  cases value with
  | pointer location =>
      intro frame guise _ isGuise
      cases isGuise
  | _ => trivial

namespace Exec

theorem method_run {context : Context} {machine : Machine} {token : Token} {method : MethodDef}
    (known : context.module.method token = .ok method) :
    Exec.method token context machine = .ok method machine := by
  unfold Exec.method
  rw [bind_of_ok module_run, known]
  rfl

section Entry

variable {comparison : Comparison} {standing : Guises} {enclosure : Enclosure}
  {one two : Machine} {arguments : List Value}

/-! ## Calls to the end -/

/-- Both threads describe what nobody handles. -/
theorem tallies_runToEndIn {tables : CodeBond} {run otherRun : Exec Runner}
    {callable other : Callable}
    (called : comparison.Tallies (standing.bond tables) Eq
      ((do invoke (← run) callable arguments : Exec Value) comparison.first one)
      ((do invoke (← otherRun) other arguments : Exec Value) comparison.second two)) :
    comparison.Tallies (standing.bond tables) Eq
      (runToEndIn run callable arguments comparison.first one)
      (runToEndIn otherRun other arguments comparison.second two) := by
  refine called.catchThrown.bind_run (fun outcome other middle final related holds _ => ?_)
    fun _ _ => id
  rcases related.cases with ⟨value, otherValue, rfl, rfl, same⟩ | ⟨exception, rfl, rfl⟩
  · exact .value same holds
  · exact (mirrored_describeException exception).seq (fun _ => .throwSame _) _ _ holds

variable {method : MethodDef} (knows : enclosure.module.Knows method)
  (isStatic : method.isStatic = true) (holds : (standing.bond enclosure.parallel).Holds one two)

include knows isStatic holds

/-- An isolated run starts with a stub for its entry method. -/
theorem stubOf_entry {context : Context} (bare : enclosure.Bare)
    (isModule : context.module = enclosure.module) :
    ∃ native final, stubOf enclosure.id .call method context two = .ok native final ∧
      native.body = .stub ⟨enclosure.id, .call, method⟩ ∧
      (standing.bond enclosure.parallel).Holds one final := by
  obtain ⟨isolation, active, remembers⟩ := holds.2.run
  have made : ∃ native after,
      IsolationRun.stubOf enclosure.module enclosure.id .call method isolation =
        .ok native after := by
    rw [IsolationRun.stubOf_run]
    cases isolation.stub? .call method.identity with
    | some native => exact ⟨native, isolation, rfl⟩
    | none =>
        obtain ⟨native, made⟩ :=
          Stub.exists_native_of_isStatic enclosure.module enclosure.id isStatic
        rw [made]
        exact ⟨native, _, rfl⟩
  obtain ⟨native, after, made⟩ := made
  have yields : Stateful.Ends _ _ _ (IsolationRun.stubOf enclosure.module enclosure.id .call method
      isolation) := Enclosure.remembers_stubOf knows isolation remembers
  rw [made] at yields
  obtain ⟨⟨run, kind, target⟩, body, isRun, isKind, isTarget⟩ := exists_site bare yields.2
    (IsolationRun.madeFor_of_stubOf remembers.arises.reachable.stubsMade made) knows
  obtain ⟨rfl, rfl, rfl⟩ : run = enclosure.id ∧ kind = .call ∧ target = method :=
    ⟨isRun, isKind, isTarget⟩
  refine ⟨native, { two with runs := two.runs.set! enclosure.id (some after) }, ?_, body,
    holds.1.of_same ⟨rfl, rfl, rfl, rfl⟩ ⟨rfl, rfl, rfl, rfl⟩, holds.2.setRun yields.1⟩
  unfold stubOf
  rw [bind_of_ok (runOf_of_active active), bind_of_ok module_run, isModule, onRun, made]

variable {stray : Error} {bounds otherBounds : Bounds} (isolates : comparison.Isolates enclosure)
  (excused : comparison.ExcusesFirst stray) (regular : enclosure.module.KeepsRegular)
  (room : comparison.LeavesRoom bounds otherBounds)
  (spared : ∀ value ∈ arguments, standing.SparesValue value)

include isolates excused regular room spared

/-- A careful call of a method and the isolated run that starts with it. -/
theorem tallies_entry :
    comparison.Tallies (standing.bond enclosure.parallel) Eq
      (runToEndUnder (.disciplined stray) bounds (.method method) arguments comparison.first one)
      ((do
        let stub ← stubOf enclosure.id .call method
        runToEndUnder .none otherBounds (.native stub) arguments : Exec Value)
        comparison.second two) := by
  obtain ⟨native, final, made, body, after⟩ := stubOf_entry knows isStatic holds isolates.bare
    (comparison.sameModule.trans isolates.module)
  have plays : comparison.Plays enclosure stray bounds.rounds otherBounds.rounds :=
    { isolates, excused, regular
      paced :=
        { first := fun counts => (room.first counts).1
          second := fun counts => (room.second counts).1 } }
  -- The stub itself takes the first call of the isolated thread.
  have nests (rest : Nat) (more : otherBounds.calls comparison.second.limits = rest + 1) :
      comparison.Nests (bounds.calls comparison.first.limits) rest :=
    { first := fun counts => by
        have := (room.first counts).2
        omega
      second := fun counts => by
        have := (room.second counts).2
        omega }
  have stubs := stubsAlike_of_inner isolates (fun rest more => runsAlike plays (nests rest more))
    fun none => by
      by_contra counts
      have := (room.second counts).2
      omega
  rw [bind_of_ok made]
  refine tallies_runToEndIn ?_
  refine stubs standing native ⟨enclosure.id, .call, method⟩ arguments one final body rfl knows
    nofun spared ?_ after
  intro answer final asked
  cases arguments with
  | nil => exact (pure_ok_iff.mp asked).1.symm
  | cons receiver others =>
      obtain ⟨_, _, _, asked⟩ := bind_ok_iff.mp asked
      obtain ⟨_, _, _, asked⟩ := bind_ok_iff.mp asked
      rw [isStatic] at asked
      exact (pure_ok_iff.mp asked).1.symm

end Entry

end Exec

/-! ## Threads of their own -/

section Threads

variable {comparison : Comparison} {bond : Bond} {module : Module} {limits otherLimits : Limits}
  {machine other : Machine} {first second : Exec Value}

/-- Threads that tally look the same from outside, unless they end in an excused way. -/
theorem Comparison.Tallies.endsAlike
    (tallies : comparison.Tallies bond Eq
      (first ⟨module, limits⟩ { machine with frames := #[], depth := 0, executed := 0 })
      (second ⟨module, otherLimits⟩ { other with frames := #[], depth := 0, executed := 0 })) :
    (∃ error, (machine.onThread module limits first).1 = .error error ∧
        comparison.ExcusesFirst error) ∨
      (∃ error, (other.onThread module otherLimits second).1 = .error error ∧
        comparison.ExcusesSecond error) ∨
      Machine.EndsAlike (machine.onThread module limits first)
        (other.onThread module otherLimits second) := by
  unfold Machine.onThread
  dsimp only
  revert tallies
  generalize first _ _ = ended
  generalize second _ _ = otherEnded
  intro tallies
  cases tallies with
  | value related holds =>
      obtain rfl := related
      exact .inr (.inr ⟨.returned _, bond.console holds, bond.statics holds⟩)
  | thrown holds =>
      exact .inr (.inr ⟨.failed (by simp [Error.kind]) rfl, bond.console holds,
        bond.statics holds⟩)
  | failed resembles statics console =>
      exact .inr (.inr ⟨.of_resembles resembles, console, statics⟩)
  | first excused => exact .inl ⟨_, rfl, excused⟩
  | second excused => exact .inr (.inl ⟨_, rfl, excused⟩)

end Threads

/-! ## Runs that have just started -/

/-- Limits that bound neither how deep calls nest nor how many instructions are executed. -/
def Limits.Endless (limits : Limits) : Prop :=
  limits.callDepth = 0 ∧ limits.instructions = 0

/-- A run without shims, on a machine that has executed nothing yet.  The code of the module is
regular. -/
structure BareRun (module : Module) (limits : Limits) (config : IsolationConfig) (id : Nat)
    (started : Machine) : Prop where
  reachable : module.Reachable
  fits : module.methods.size < Token.rowBound
  regular : module.KeepsRegular
  endless : limits.Endless
  ownEndless : ∀ own ∈ config.limits?, own.Endless
  start : (Machine.ofModule module limits).startRun module [] config = .ok (id, started)

namespace BareRun

variable {module : Module} {limits : Limits} {config : IsolationConfig} {id : Nat}
  {started : Machine} (bareRun : BareRun module limits config id started)

include bareRun

theorem bare : Enclosure.Bare ⟨module, [], config, id⟩ where
  reachable := bareRun.reachable
  fits := bareRun.fits
  shims := rfl

theorem started_eq : started =
    { Machine.ofModule module limits with runs := #[some { shims := [], config }] } ∧ id = 0 := by
  obtain ⟨_, _, start⟩ := except_bind_eq_ok.mp bareRun.start
  cases start
  exact ⟨rfl, rfl⟩

theorem runLimits_endless : (started.runLimits id).Endless := by
  obtain ⟨rfl, rfl⟩ := bareRun.started_eq
  cases own : config.limits? with
  | none =>
      have same : Machine.runLimits { Machine.ofModule module limits with
          runs := #[some { shims := [], config }] } 0 = limits := by
        simp [Machine.runLimits, Machine.run?, own, Machine.ofModule]
      rw [same]
      exact bareRun.endless
  | some limits =>
      simpa [Machine.runLimits, Machine.run?, own] using bareRun.ownEndless limits own

/-- The threads start side by side. -/
theorem holds : (Guises.bond [] (Enclosure.parallel ⟨module, [], config, id⟩)).Holds
    { Machine.ofModule module limits with frames := #[], depth := 0, executed := 0 }
    { started with frames := #[], depth := 0, executed := 0 } := by
  obtain ⟨rfl, rfl⟩ := bareRun.started_eq
  have remembers : Enclosure.Remembers ⟨module, [], config, 0⟩ { shims := [], config } :=
    { arises := .start
      stubs := by simp
      bodies := fun _ _ _ _ found => by cases found }
  exact
    ⟨{ heap := rfl
       statics := rfl
       console := rfl
       firstSize := rfl
       secondSize := rfl
       frames := fun _ _ _ _ isGuise => by cases isGuise },
     { natives := rfl
       core := fun _ _ found => Machine.native?_ofModule found
       functions := .nil
       firstBodies := fun _ _ _ found => by cases found
       secondBodies := fun _ _ _ found => by cases found
       run := ⟨_, rfl, remembers⟩ }⟩

end BareRun

/-! ## Transparency -/

namespace Machine

/-- A careful call that does not stop is the call that asks nothing. -/
theorem invokeUnder_of_careful {machine : Machine} {module : Module} {entry : Token}
    {arguments : List Value} {stray : Error} {bounds : Bounds}
    (uncaught : ∀ exception, stray ≠ .thrown exception)
    (careful : (machine.invokeUnder (.disciplined stray) bounds module entry arguments).1 ≠
      .error stray) :
    machine.invokeUnder (.disciplined stray) bounds module entry arguments =
      machine.invokeUnder .none bounds module entry arguments := by
  have stops : Exec.Stops stray
      (do Exec.runToEndUnder (.disciplined stray) bounds (.method (← Exec.method entry)) arguments)
      (do Exec.runToEndUnder .none bounds (.method (← Exec.method entry)) arguments) :=
    .bind (.refl _) fun _ =>
      Exec.stops_runToEndUnder uncaught (Exec.stopsOnly_disciplined stray) _ _ _
  unfold invokeUnder onThread at careful ⊢
  rcases stops ⟨module, machine.limits⟩ { machine with frames := #[], depth := 0, executed := 0 }
    with ⟨final, stopped⟩ | same
  · dsimp only at careful
    rw [stopped] at careful
    exact absurd rfl careful
  · dsimp only
    rw [same]

end Machine

namespace Enclosure

variable (enclosure : Enclosure) (limits otherLimits : Limits) {stray : Error}
  (uncaught : ∀ exception, stray ≠ .thrown exception)

/-- A careful thread of the module and one of the run.  That a thread runs out of fuel is excused
where it is known to end. -/
def threads (ends otherEnds : Prop) : Comparison where
  first := ⟨enclosure.module, limits⟩
  second := ⟨enclosure.module, otherLimits⟩
  sameModule := rfl
  ExcusesFirst error := error = stray ∨ ends ∧ error = .outOfFuel
  ExcusesSecond error := enclosure.Refuses error ∨ otherEnds ∧ error = .outOfFuel
  first_ne {error} excused isThrown := by
    obtain ⟨exception, rfl⟩ := Error.eq_thrown_of_kind isThrown
    rcases excused with same | ⟨_, same⟩
    · exact uncaught exception same.symm
    · cases same
  second_ne {error} excused isThrown := by
    obtain ⟨exception, rfl⟩ := Error.eq_thrown_of_kind isThrown
    rcases excused with refuses | ⟨_, same⟩
    · cases refuses.isOrdinary
    · cases same

end Enclosure

namespace BareRun

variable {module : Module} {limits : Limits} {config : IsolationConfig} {id : Nat}
  {started : Machine} (bareRun : BareRun module limits config id started) {entry : Token}
  {method : MethodDef} (known : module.method entry = .ok method)
  (isStatic : method.isStatic = true) (arguments : List Value) {stray : Error}
  (uncaught : ∀ exception, stray ≠ .thrown exception)

include bareRun known isStatic uncaught

/-- The isolated run ends as the plain call does, where each of them ends or has bounds that leave
room for what the other one does. -/
theorem endsAlike_of_enough {bounds otherBounds : Bounds}
    (careful : ((Machine.ofModule module limits).invokeUnder (.disciplined stray) bounds module
      entry arguments).1 ≠ .error stray)
    (enough : ((Machine.ofModule module limits).invokeUnder .none bounds module entry
        arguments).1 ≠ .error .outOfFuel ∨
      otherBounds.rounds (started.runLimits id) * (Token.rowBound + 1) + Token.rowBound ≤
          bounds.rounds limits ∧
        otherBounds.calls (started.runLimits id) ≤ bounds.calls limits + 1)
    (otherEnough : (started.invokeIsolatedWithin otherBounds module id entry arguments).1 ≠
        .error .outOfFuel ∨
      2 * bounds.rounds limits ≤ otherBounds.rounds (started.runLimits id) ∧
        2 * bounds.calls limits < otherBounds.calls (started.runLimits id)) :
    Enclosure.IsRefused ⟨module, [], config, id⟩
        (started.invokeIsolatedWithin otherBounds module id entry arguments).1 ∨
      Machine.EndsAlike
        ((Machine.ofModule module limits).invokeUnder .none bounds module entry arguments)
        (started.invokeIsolatedWithin otherBounds module id entry arguments) := by
  have same := Machine.invokeUnder_of_careful uncaught careful
  let enclosure : Enclosure := ⟨module, [], config, id⟩
  let comparison := enclosure.threads limits (started.runLimits id) uncaught
    (((Machine.ofModule module limits).invokeUnder .none bounds module entry arguments).1 ≠
      .error .outOfFuel)
    ((started.invokeIsolatedWithin otherBounds module id entry arguments).1 ≠ .error .outOfFuel)
  have room : comparison.LeavesRoom bounds otherBounds :=
    { first := fun counts => enough.resolve_left fun ends => counts (.inr ⟨ends, rfl⟩)
      second := fun counts => otherEnough.resolve_left fun ends => counts (.inr ⟨ends, rfl⟩) }
  have isolates : comparison.Isolates enclosure :=
    { bare := bareRun.bare
      module := rfl
      refused := fun _ refuses => .inl refuses
      unlimited :=
        { instructions := bareRun.endless.2
          otherInstructions := bareRun.runLimits_endless.2
          calls := bareRun.endless.1
          otherCalls := bareRun.runLimits_endless.1 } }
  have tallies (one two : Machine) (holds : (Guises.bond [] enclosure.parallel).Holds one two) :
      comparison.Tallies (Guises.bond [] enclosure.parallel) Eq
        ((do
          Exec.runToEndUnder (.disciplined stray) bounds (.method (← Exec.method entry)) arguments :
          Exec Value) comparison.first one)
        ((do
          let stub ← Exec.stubOf id .call (← Exec.method entry)
          Exec.runToEndUnder .none otherBounds (.native stub) arguments : Exec Value)
          comparison.second two) := by
    rw [Exec.bind_of_ok (Exec.method_run known), Exec.bind_of_ok (Exec.method_run known)]
    exact Exec.tallies_entry (.inr ⟨entry, known⟩) isStatic holds isolates (.inl rfl)
      bareRun.regular room fun value _ => Guises.sparesValue_nil value
  rcases (tallies _ _ bareRun.holds).endsAlike with
    ⟨error, ended, isStray | ⟨ends, isFuel⟩⟩ | ⟨error, ended, refuses | ⟨ends, isFuel⟩⟩ | alike
  · exact absurd (isStray ▸ ended) careful
  · rw [← same] at ends
    exact absurd (isFuel ▸ ended) ends
  · exact .inl ⟨error, ended, refuses⟩
  · exact absurd (isFuel ▸ ended) ends
  · rw [← same]
    exact .inr alike

end BareRun

/-- Without instantiations the code of a module is that of its own methods. -/
theorem Module.keepsRegular_of_declared {module : Module} (plain : module.instantiations = #[])
    (regular : ∀ method ∈ module.methods.toList,
      ∀ code ∈ (MethodCode.ofMethod module method).toOption, code.Regular) :
    module.KeepsRegular := by
  intro method code knows read
  refine regular method (Array.mem_toList_iff.mpr (module.mem_methods_of_knows plain knows)) code ?_
  rw [read]
  rfl

/-- The care lets a plain call of a method go on to its end, within bounds. -/
def Machine.KeepsDiscipline (machine : Machine) (module : Module) (entry : Token)
    (arguments : List Value) (bounds : Bounds) : Prop :=
  ∃ stray : Error, (∀ exception, stray ≠ .thrown exception) ∧
    (machine.invokeUnder (.disciplined stray) bounds module entry arguments).1 ≠ .error stray

/-- A run without shims of regular code does what a plain call of its entry method does, where the
care lets that call go on to its end.  Within bounds that leave room for its stubs it ends where the
plain call does, and within bounds for the marks that it drops the plain call ends where it does. -/
theorem BareRun.invokeIsolated_alike {module : Module} {limits : Limits} {config : IsolationConfig}
    {id : Nat} {started : Machine} {entry : Token} {method : MethodDef}
    (bareRun : BareRun module limits config id started) (known : module.method entry = .ok method)
    (isStatic : method.isStatic = true) (arguments : List Value) :
    let machine := Machine.ofModule module limits
    let IsRefused := Enclosure.IsRefused ⟨module, [], config, id⟩
    (machine.KeepsDiscipline module entry arguments .machine →
      (machine.invoke module entry arguments).1 ≠ .error .outOfFuel →
      (started.invokeIsolated module id entry arguments).1 ≠ .error .outOfFuel →
        IsRefused (started.invokeIsolated module id entry arguments).1 ∨
          Machine.EndsAlike (machine.invoke module entry arguments)
            (started.invokeIsolated module id entry arguments)) ∧
    (∀ rounds calls,
      machine.KeepsDiscipline module entry arguments (.fixed rounds calls) →
      (machine.invokeUnder .none (.fixed rounds calls) module entry arguments).1 ≠
        .error .outOfFuel →
        let isolated := started.invokeIsolatedWithin (.fixed (2 * rounds) (2 * calls + 1)) module id
          entry arguments
        IsRefused isolated.1 ∨ Machine.EndsAlike
          (machine.invokeUnder .none (.fixed rounds calls) module entry arguments) isolated) ∧
    (∀ rounds calls,
      let enough := Bounds.fixed (rounds * (Token.rowBound + 1) + Token.rowBound) calls
      let isolated := started.invokeIsolatedWithin (.fixed rounds calls) module id entry arguments
      machine.KeepsDiscipline module entry arguments enough →
      isolated.1 ≠ .error .outOfFuel →
        IsRefused isolated.1 ∨
          Machine.EndsAlike (machine.invokeUnder .none enough module entry arguments)
            isolated) := by
  refine ⟨fun keeps ends otherEnds => ?_, fun rounds calls keeps ends => ?_,
    fun rounds calls keeps otherEnds => ?_⟩
  · obtain ⟨stray, uncaught, careful⟩ := keeps
    rw [← Machine.invokeUnder_none] at ends ⊢
    rw [← Machine.invokeIsolatedWithin_machine] at otherEnds ⊢
    exact bareRun.endsAlike_of_enough known isStatic arguments uncaught careful (.inl ends)
      (.inl otherEnds)
  · obtain ⟨stray, uncaught, careful⟩ := keeps
    exact bareRun.endsAlike_of_enough known isStatic arguments uncaught careful (.inl ends)
      (.inr ⟨Nat.le_refl _, Nat.lt_succ_self _⟩)
  · obtain ⟨stray, uncaught, careful⟩ := keeps
    exact bareRun.endsAlike_of_enough known isStatic arguments uncaught careful
      (.inr ⟨Nat.le_refl _, Nat.le_succ _⟩) (.inl otherEnds)

/-! ## Delegates on an override and on what it overrides -/

namespace Overriding

def base : Token := .ofRow .typeDef 18
def derived : Token := .ofRow .typeDef 19
def main : Token := .ofRow .methodDef 30

def virtualMethod : MethodDeclaration :=
  { name := "Act", flags := MethodModifiers.isVirtual }

/-- A type that overrides a virtual method of its base type.  Both methods store a number into a
field.  The main method calls a delegate on the method in a row and returns what the field holds
then. -/
@[irreducible]
def module (pointed : UInt8) : Module :=
  let onBase := finalState (Module.declareMethod base virtualMethod (finalState
    (Module.declareMethod base MethodDeclaration.ofConstructor (finalState
    (Module.declareField base
      (FieldDeclaration.asStatic { name := "last", signature := .int32 }) (finalState
    (Module.declareType { space := "Demo", name := "Base" } Module.initial)))))))
  let declarations := finalState (Module.declareMethod derived
      { name := "Main", flags := MethodModifiers.isStatic, returnType := .int32 } (finalState
    (Module.declareMethod derived virtualMethod (finalState
    (Module.declareMethod derived MethodDeclaration.ofConstructor (finalState
    (Module.declareType { space := "Demo", name := "Derived", base? := some base } onBase)))))))
  finalState (Module.setBody main
      [0x6E, 0x73, 0x1C, 0, 0, 6, 0xFE, 0x06, pointed, 0, 0, 6, 0x73, 0x18, 0, 0, 6,
        0x6F, 0x19, 0, 0, 6, 0x7E, 2, 0, 0, 4, 0x2A] (finalState
    (Module.setBody (.ofRow .methodDef 29) [0x1E, 0x18, 0x80, 2, 0, 0, 4, 0x2A] (finalState
    (Module.setBody (.ofRow .methodDef 28) [0x06, 0x2A] (finalState
    (Module.setBody (.ofRow .methodDef 27) [0x1E, 0x17, 0x80, 2, 0, 0, 4, 0x2A] (finalState
    (Module.setBody (.ofRow .methodDef 26) [0x06, 0x2A] declarations)))))))))

theorem module_reachable (pointed : UInt8) : (module pointed).Reachable := by
  unfold module
  exact .setBody _ _ <| .setBody _ _ <| .setBody _ _ <| .setBody _ _ <| .setBody _ _ <|
    .declareMethod _ _ <| .declareMethod _ _ <| .declareMethod _ _ <| .declareType _ <|
    .declareMethod _ _ <| .declareMethod _ _ <| .declareField _ _ <| .declareType _ .initial

def limits : Limits := { callDepth := 0, instructions := 0, heapObjects := 0 }

def machine (pointed : UInt8) : Machine := .ofModule (module pointed) limits

def started (pointed : UInt8) : Machine :=
  { machine pointed with runs := #[some { shims := [], config := {} }] }

def method (pointed : UInt8) : MethodDef :=
  ((module pointed).method main).toOption.getD default

def returns (number : Int32) (ended : Except Error Value × Machine) : Bool :=
  match ended.1 with
  | .ok (.int32 result) => result == number
  | _ => false

theorem ne_error_of_returns {number : Int32} {ended : Except Error Value × Machine}
    (returned : returns number ended = true) (error : Error) : ended.1 ≠ .error error := by
  intro failed
  rw [returns, failed] at returned
  cases returned

theorem returns_of_endsAlike {number : Int32} {first second : Except Error Value × Machine}
    (alike : Machine.EndsAlike first second) (returned : returns number first = true) :
    returns number second = true := by
  obtain ⟨outcome, machine⟩ := first
  obtain ⟨other, otherMachine⟩ := second
  cases alike.outcome with
  | returned value => exact returned
  | unhandled | failed => cases returned

section Pointed

variable (pointed : UInt8)

theorem start :
    (machine pointed).startRun (module pointed) [] {} = .ok (0, started pointed) :=
  Machine.startRun_eq_ok (machine pointed) {} (by simp)

theorem method_known (isKnown : ((module pointed).method main).toOption.isSome) :
    (module pointed).method main = .ok (method pointed) := by
  unfold method
  cases known : (module pointed).method main with
  | ok definition => rfl
  | error error =>
      rw [known] at isKnown
      cases isKnown

end Pointed

/-- The module with a delegate on the override. -/
theorem bareRun : BareRun (module 0x1D) limits {} 0 (started 0x1D) where
  reachable := module_reachable 0x1D
  fits := by decide +kernel
  regular := by
    have plain : (module 0x1D).instantiations = #[] :=
      Array.eq_empty_of_size_eq_zero (by decide +kernel)
    exact Module.keepsRegular_of_declared plain (by decide +kernel)
  endless := ⟨rfl, rfl⟩
  ownEndless := nofun
  start := start 0x1D

/-- A delegate on the override itself does the same in the run. -/
theorem override_alike :
    BareRun (module 0x1D) limits {} 0 (started 0x1D) ∧
    (machine 0x1D).KeepsDiscipline (module 0x1D) main [] .machine ∧
    Machine.EndsAlike ((machine 0x1D).invoke (module 0x1D) main [])
      ((started 0x1D).invokeIsolated (module 0x1D) 0 main []) ∧
    returns 2 ((machine 0x1D).invoke (module 0x1D) main []) := by
  have plain : returns 2 ((machine 0x1D).invoke (module 0x1D) main []) = true := by decide +kernel
  have isolated : returns 2 ((started 0x1D).invokeIsolated (module 0x1D) 0 main []) = true := by
    decide +kernel
  have careful : returns 2 ((machine 0x1D).invokeUnder (.disciplined .outOfBounds) .machine
      (module 0x1D) main []) = true := by
    decide +kernel
  have keeps : (machine 0x1D).KeepsDiscipline (module 0x1D) main [] .machine :=
    ⟨.outOfBounds, nofun, ne_error_of_returns careful _⟩
  obtain ⟨own, _, _⟩ := bareRun.invokeIsolated_alike (method_known 0x1D (by decide +kernel))
    (by decide +kernel) []
  refine ⟨bareRun, keeps, ?_, plain⟩
  rcases own keeps (ne_error_of_returns plain _) (ne_error_of_returns isolated _) with
    ⟨error, failed, _⟩ | alike
  · exact absurd failed (ne_error_of_returns isolated error)
  · exact alike

/-- A delegate on the overridden method runs that method in the run, and the override elsewhere. -/
theorem overridden_not_alike :
    ¬ ∀ (module : Module) (limits : Limits) (config : IsolationConfig) (id : Nat)
      (started : Machine) (entry : Token) (method : MethodDef) (arguments : List Value),
      module.Reachable → limits.Endless → (∀ own ∈ config.limits?, own.Endless) →
      (Machine.ofModule module limits).startRun module [] config = .ok (id, started) →
      module.method entry = .ok method → method.isStatic = true →
      (∀ offset obstacle, (started.invokeIsolated module id entry arguments).1 ≠
        .error (.unsupportedInstruction offset obstacle)) →
      Machine.EndsAlike ((Machine.ofModule module limits).invoke module entry arguments)
        (started.invokeIsolated module id entry arguments) := by
  intro transparent
  have plain : returns 2 ((machine 0x1B).invoke (module 0x1B) main []) = true := by decide +kernel
  have isolated : returns 1 ((started 0x1B).invokeIsolated (module 0x1B) 0 main []) = true := by
    decide +kernel
  have alike := transparent (module 0x1B) limits {} 0 (started 0x1B) main (method 0x1B) []
    (module_reachable 0x1B) ⟨rfl, rfl⟩ nofun (start 0x1B) (method_known 0x1B (by decide +kernel))
    (by decide +kernel) fun _ _ => ne_error_of_returns isolated _
  have other := returns_of_endsAlike alike plain
  unfold returns at isolated other
  split at isolated
  · rename_i result ended
    rw [ended] at other
    have one : result = 1 := by simpa using isolated
    have two : result = 2 := by simpa using other
    rw [one] at two
    cases two
  · cases isolated

end Overriding

end Cil
