import Cil.Isolation.Isolate
import Cil.Proofs.Isolation.RunCache
import Cil.Proofs.Machine.CallsInProgress

/-!
# Runs while machines execute

Stubs that execute make demands of the run that they belong to, in the midst of other code.
Whatever a machine executes, a run that it holds moves by demands alone.  So what holds of the
answers to demands holds of every mixture of demands and executions.
-/

namespace Cil

open Stateful
open MonadExcept (ofExcept)
open IsolationRun (Demand History)

namespace Machine

/-- A machine holds a run that demands made of an earlier one. -/
def HoldsRun (module : Module) (id : Nat) (start : IsolationRun) (machine : Machine) : Prop :=
  ∃ keys run, machine.run? id = some run ∧ History module id start keys run

theorem HoldsRun.of_runs {module : Module} {id : Nat} {start : IsolationRun}
    {before after : Machine} (holds : before.HoldsRun module id start)
    (same : after.runs = before.runs) : after.HoldsRun module id start := by
  obtain ⟨keys, run, found, history⟩ := holds
  exact ⟨keys, run, by rw [run?, same]; exact found, history⟩

theorem HoldsRun.of_sameCode {module : Module} {id : Nat} {start : IsolationRun}
    (before after : Machine) (same : before.SameCode after)
    (holds : before.HoldsRun module id start) : after.HoldsRun module id start :=
  holds.of_runs same.runs

theorem run?_set {machine : Machine} {id other : Nat} {run : IsolationRun}
    (active : machine.run? id = some run) (next : IsolationRun) :
    { machine with runs := machine.runs.set! id (some next) }.run? other =
      if other = id then some next else machine.run? other := by
  have inside : id < machine.runs.size :=
    (Array.getElem?_eq_some_iff.mp (Option.join_eq_some_iff.mp active)).1
  by_cases same : other = id
  · subst same
    simp [run?, inside]
  · rw [if_neg same]
    simp [run?, Ne.symm same]

/-- A demand of a run moves that run, and no other. -/
theorem HoldsRun.demand {module : Module} {id other : Nat} {start run : IsolationRun}
    {machine : Machine} (holds : machine.HoldsRun module id start)
    (active : machine.run? other = some run) (demand : Demand) :
    { machine with
      runs := machine.runs.set! other (some (demand.after module other run)) }.HoldsRun module id
        start := by
  obtain ⟨keys, current, found, history⟩ := holds
  by_cases same : id = other
  · subst same
    obtain rfl := Option.some.inj (active.symm.trans found)
    exact ⟨_, _, by rw [run?_set active, if_pos rfl], history.demand demand⟩
  · exact ⟨keys, current, by rw [run?_set active, if_neg same]; exact found, history⟩

end Machine

namespace Exec

variable {context : Context} {id : Nat} {start : IsolationRun}

/-- A piece of execution that moves a run by demands alone. -/
abbrev Serves (context : Context) (id : Nat) (start : IsolationRun) {α : Type}
    (action : Exec α) : Prop :=
  Agrees context (Machine.HoldsRun context.module id start) action action

theorem runOf_run (site : Stub) (machine : Machine) :
    runOf site context machine =
      match machine.run? site.run with
      | some isolation => .ok isolation machine
      | none => .error (.notSupported (.runEnded site.target.name)) machine := by
  rw [runOf, bind_of_ok get_run]
  cases machine.run? site.run <;> rfl

theorem serves_onRun {α : Type} (site : Stub) (demand : Demand)
    {answer : Module → EStateM Error IsolationRun α}
    (isDemand : ∀ run,
      finalState (answer context.module run) = demand.after context.module site.run run) :
    Serves context id start (do onRun site.run (← runOf site) (answer (← module))) := by
  intro machine holds
  rw [bind_run, runOf_run]
  cases active : machine.run? site.run with
  | none => exact ⟨rfl, holds, trivial⟩
  | some run =>
      have after := holds.demand active demand
      rw [← isDemand] at after
      dsimp only
      rw [bind_of_ok module_run, onRun]
      cases ran : answer context.module run <;> rw [ran] at after <;> exact ⟨rfl, after, trivial⟩

theorem serves_implementation (site : Stub) (method : MethodDef) (forInterface : Bool) :
    Serves context id start (implementation site method forInterface) :=
  serves_onRun site (.implementation method forInterface) fun _ => rfl

theorem serves_stubOf (other : Nat) (kind : StubKind) (target : MethodDef) :
    Serves context id start (stubOf other kind target) :=
  serves_onRun ⟨other, kind, target⟩ (.stub kind target) fun _ => rfl

theorem serves_executable (method : MethodDef) :
    Serves context id start (executable method) := by
  have decodes : Serves context id start (decoded method) := by
    refine .bind .get fun machine _ => ?_
    split
    · exact .pure trivial
    · exact .bind .module fun _ _ => .bind (.ofExcept _) fun _ _ =>
        .seq (fun _ holds => ⟨rfl, holds.of_runs rfl, trivial⟩) fun _ => .pure trivial
  refine .bind (.attempt decodes) fun outcome _ => ?_
  split
  · exact .pure trivial
  · exact .bind .module fun _ _ => .throw _
  · exact .throw _

theorem agrees_withTemporary {initial : Value} {first second : Pointer → Exec Unit}
    (uses : ∀ location,
      Agrees context (Machine.HoldsRun context.module id start) (first location)
        (second location)) :
    Agrees context (Machine.HoldsRun context.module id start) (withTemporary initial first)
      (withTemporary initial second) := by
  intro machine holds
  obtain ⟨same, ends⟩ := uses (.localSlot machine.frames.size 0)
    { machine with frames := machine.frames.push { arguments := #[], locals := #[initial] } }
    (holds.of_runs rfl)
  rw [withTemporary_run, withTemporary_run, ← same]
  refine ⟨rfl, ?_⟩
  cases ran : first (.localSlot machine.frames.size 0) context { machine with
      frames := machine.frames.push { arguments := #[], locals := #[initial] } } <;>
    rw [ran] at ends <;> exact ⟨ends.1.of_runs rfl, trivial⟩

theorem congruence_serves :
    Congruence fun first second =>
      Agrees context (Machine.HoldsRun context.module id start) first second where
  bind firsts nexts := .seq firsts nexts
  steady kept := .same kept.keeps fun before after steady => .of_sameCode before after steady.code
  newFunction _ _ holds := ⟨rfl, holds.of_runs rfl, trivial⟩
  executable _ := serves_executable _
  implementation _ _ _ := serves_implementation _ _ _
  withTemporary uses := agrees_withTemporary uses

/-- Whatever is activated, runs move by demands alone. -/
theorem serves_activate (calls : Nat) (activation : Activation) :
    Serves context id start (activate calls activation) := by
  induction calls generalizing activation with
  | zero => exact .throw _
  | succ calls ih =>
      cases activation with
      | native provided arguments =>
          exact agrees_asCall Machine.HoldsRun.of_sameCode
            (congruence_serves.runNative ih provided.body arguments)
      | code code scope arguments =>
          exact agrees_runCode Machine.HoldsRun.of_sameCode arguments
            fun frame instruction _ constraint? stack =>
              congruence_serves.step ih _ _ _ _ _ _

theorem serves_runToEnd (callable : Callable) (arguments : List Value) :
    Serves context id start (runToEnd callable arguments) := by
  have called : Serves context id start
      (calling fun run => invoke run callable arguments) :=
    .bind .read fun reader _ =>
      congruence_serves.invoke (serves_activate _)
        callable arguments
  refine .bind (.catchThrown called) fun outcome _ => ?_
  cases outcome with
  | ok value => exact .pure trivial
  | error exception =>
      exact .seq (congruence_serves.steady (steady_describeException exception)) fun _ => .throw _

end Exec

/-! ## Uses of a run -/

/-- What is done with a run: a demand is made, something is run, which may be a stub, or a
method is run in isolation. -/
inductive Use
  | demand (demand : Demand)
  | run (callable : Callable) (arguments : List Value)
  | isolated (entry : Token) (arguments : List Value)

namespace Use

open Exec

def perform (id : Nat) : Use → Exec Unit
  | .demand (.stub kind target) => discard (stubOf id kind target)
  | .demand (.body method forInterface) =>
    discard do
      onRun id (← runOf ⟨id, .call, method⟩) (IsolationRun.bodyOf (← module) id method forInterface)
  | .demand (.implementation method forInterface) =>
    discard (implementation ⟨id, .call, method⟩ method forInterface)
  | .run callable arguments => discard (runToEnd callable arguments)
  | .isolated entry arguments => do
    let stub ← stubOf id .call (← method entry)
    discard (runToEnd (.native stub) arguments)

theorem serves_perform {context : Context} {id other : Nat} {start : IsolationRun} (use : Use) :
    Serves context id start (use.perform other) := by
  cases use with
  | demand demand =>
      cases demand with
      | stub kind target => exact .discard (serves_stubOf other kind target)
      | body method forInterface =>
          exact .discard (serves_onRun ⟨other, .call, method⟩ (.body method forInterface)
            fun _ => rfl)
      | implementation method forInterface =>
          exact .discard (serves_implementation ⟨other, .call, method⟩ method forInterface)
  | run callable arguments => exact .discard (serves_runToEnd callable arguments)
  | isolated entry arguments =>
      have named : Steady (method entry) := .bind .module fun _ => .ofExcept _
      exact .seq (congruence_serves.steady named) fun target =>
        .seq (serves_stubOf other .call target) fun stub =>
        .discard (serves_runToEnd (.native stub) arguments)

end Use

namespace Machine

variable {module : Module} {id : Nat}

/-- The machines that uses of a run make of a machine. -/
inductive Used (module : Module) (id : Nat) (start : Machine) : Machine → Prop
  | start : Used module id start start
  | use {machine : Machine} (limits : Limits) (use : Use) : Used module id start machine →
      Used module id start (machine.onThread module limits (use.perform id)).2

theorem holds_onThread {start : IsolationRun} {machine : Machine}
    (holds : machine.HoldsRun module id start) (limits : Limits) (use : Use) :
    (machine.onThread module limits (use.perform id)).2.HoldsRun module id start := by
  have serves : Exec.Serves ⟨module, limits⟩ id start (use.perform id) := use.serves_perform
  obtain ⟨-, ends⟩ := serves
    { machine with frames := #[], depth := 0, executed := 0 } (holds.of_runs rfl)
  unfold onThread
  dsimp only
  cases ran : use.perform id ⟨module, limits⟩
    { machine with frames := #[], depth := 0, executed := 0 } <;>
    rw [ran] at ends <;> exact ends.1

theorem Used.holds {start machine : Machine} {run : IsolationRun}
    (used : Used module id start machine) (active : start.run? id = some run) :
    machine.HoldsRun module id run := by
  induction used with
  | start => exact ⟨[], run, active, .start⟩
  | use limits use _ ih => exact holds_onThread ih limits use

end Machine

namespace IsolationRun

/-- What a run remembers, a later one answers with, and it is left as it is. -/
structure Answers (module : Module) (id : Nat) (run later : IsolationRun) : Prop where
  stub {kind : StubKind} {target : MethodDef} {native : Native} :
    run.stub? kind target.identity = some native →
      stubOf module id kind target later = .ok native later
  body {method : MethodDef} {forInterface : Bool} {body : DynamicMethod} :
    run.body? method.identity forInterface = some body →
      bodyOf module id method forInterface later = .ok body later
  implementation {method : MethodDef} {forInterface : Bool} {body : DynamicMethod} :
    run.body? method.identity forInterface = some body →
      later.isIntrinsic module method = false →
        implementation module id method forInterface later = .ok (.dynamic body) later

/-- A demand that fails, or finds no readable body, leaves what the run remembers as it is, but
for new stubs of the call sites of the method. -/
structure FailsCleanly (module : Module) (id : Nat) (run : IsolationRun) : Prop where
  stub {kind : StubKind} {target : MethodDef} {error : Error} {after : IsolationRun} :
    stubOf module id kind target run = .error error after → after = run
  body {method : MethodDef} {forInterface : Bool} {error : Error} {after : IsolationRun} :
    bodyOf module id method forInterface run = .error error after →
      Grown module method run after ∧ (error.blamesBody → after = run)
  implementation {method : MethodDef} {forInterface : Bool} {error : Error}
    {after : IsolationRun} :
    implementation module id method forInterface run = .error error after →
      Grown module method run after
  plain {method plain : MethodDef} {forInterface : Bool} {after : IsolationRun} :
    IsolationRun.implementation module id method forInterface run = .ok (.method plain) after →
      after = run

variable {module : Module} {id : Nat} {run later : IsolationRun}

theorem Extends.answers (kept : run.Extends later) : Answers module id run later where
  stub known := stubOf_known (kept.stub known)
  body known := bodyOf_known (kept.body known)
  implementation known isolated := implementation_known isolated (kept.body known)

theorem failsCleanly (run : IsolationRun) : FailsCleanly module id run where
  stub := stubOf_failed
  body := bodyOf_failed
  implementation := implementation_failed
  plain := implementation_plain

end IsolationRun

namespace Answering

open Stateful

def answer : MethodDeclaration :=
  { name := "Answer", flags := MethodModifiers.isStatic, returnType := .int32 }

def module : Module :=
  finalState (Module.setBody (.ofRow .methodDef 26) [0x0A, 0x1D, 0x2A] (finalState
    (Module.declareMethod (.ofRow .typeDef 18) answer (finalState
      (Module.declareType { space := "Demo", name := "Program" } Module.initial)))))

def method : MethodDef :=
  ((module.method (.ofRow .methodDef 26)).toOption).getD default

def machine : Machine :=
  { Machine.ofModule module .standard with runs := #[some { shims := [], config := {} }] }

/-- The machine after the body of the method was asked for. -/
def asked : Machine :=
  (machine.onThread module .standard ((Use.demand (.body method false)).perform 0)).2

/-- The machine after the method was run in isolation, too. -/
def ran : Machine :=
  (asked.onThread module .standard ((Use.isolated method.token []).perform 0)).2

theorem body_instrumented :
    ((asked.run? 0).bind (·.body? method.identity false)).isSome = true := by
  decide +kernel

end Answering

end Cil
