import Cil.Proofs.Code.KnownMethods
import Cil.Proofs.Isolation.Discipline
import Cil.Proofs.Isolation.Enclosure
import Cil.Proofs.Isolation.RunUses
import Cil.Proofs.Machine.MirroredSteps

/-!
# The code of a plain thread and of an isolated one

The thread of an isolated run finds bodies that the run made where a plain thread finds the
methods of the module.  What the function pointers of the two threads are bound to belongs
together, and what the run remembers was made from the methods that it is remembered for.  While
the threads go on, this stays so.
-/

namespace Cil

open Stateful
open MonadExcept (ofExcept)
open Instrumentation (Provides)

/-- Decoded bodies that were found are those of the methods. -/
def Module.Decodes (module : Module) (bodies : List (Token × MethodCode)) : Prop :=
  ∀ method code, module.Knows method → bodies.lookup method.token = some code →
    MethodCode.ofMethod module method = .ok code

namespace Enclosure

variable (enclosure : Enclosure)

/-- A native method that stands for a call site of the run. -/
def Supplies (native : Native) : Prop :=
  ∃ site, native.body = .stub site ∧ site.run = enclosure.id ∧ enclosure.module.Knows site.target

/-- The run made the body from the method. -/
structure Rewrites (method : MethodDef) (forInterface : Bool) (body : DynamicMethod) : Prop where
  made : ∃ before after, enclosure.Arises before ∧
    IsolationRun.instrument enclosure.module enclosure.id method forInterface before =
      .ok body after
  scope : ∀ entry ∈ body.scope.entries, ∃ native, entry = .native native ∧ enclosure.Supplies native

/-- The error with which the run fails to rewrite a method that has code. -/
def Refuses (error : Error) : Prop :=
  ∃ method code forInterface before after, enclosure.module.Knows method ∧
    MethodCode.ofMethod enclosure.module method = .ok code ∧
    IsolationRun.instrument enclosure.module enclosure.id method forInterface before =
      .error error after

/-- What runs for a method in the run: a body that was made from it, or the method itself. -/
inductive Runs (method : MethodDef) (forInterface : Bool) : Callable → Prop
  | rewritten {body : DynamicMethod} (rewrites : enclosure.Rewrites method forInterface body) :
      Runs method forInterface (.dynamic body)
  | plain : Runs method forInterface (.method method)

/-- The run remembers stubs for its call sites and bodies that were made from their methods. -/
structure Remembers (run : IsolationRun) : Prop where
  arises : enclosure.Arises run
  stubs : ∀ key native, (key, native) ∈ run.stubs → enclosure.Supplies native
  bodies : ∀ method forInterface body, enclosure.module.Knows method →
    run.body? method.identity forInterface = some body → enclosure.Rewrites method forInterface body

/-- What a function pointer of the isolated thread is bound to where one of the plain thread is
bound to a method.  Virtual methods of value types are bound to bodies that take a box. -/
inductive Binds : Callable → Callable → Prop
  | same {method : MethodDef} (knows : enclosure.module.Knows method) :
      Binds (.method method) (.method method)
  | rewritten {method : MethodDef} {body : DynamicMethod} (knows : enclosure.module.Knows method)
      (rewrites : enclosure.Rewrites method (enclosure.module.bindsBox method) body) :
      Binds (.method method) (.dynamic body)

/-- The code of the second machine is that of the first one, rewritten by the run. -/
structure Parallels (first second : Machine) : Prop where
  natives : second.natives = first.natives
  core : ∀ token native, first.native? token = some native →
    ∃ operation, (token, operation) ∈ Core.natives ∧ native.body = .core operation
  functions : List.Forall₂ enclosure.Binds first.functions.toList second.functions.toList
  firstBodies : enclosure.module.Decodes first.bodies
  secondBodies : enclosure.module.Decodes second.bodies
  run : ∃ run, second.run? enclosure.id = some run ∧ enclosure.Remembers run

/-- The bond of a plain thread with the thread of an isolated run. -/
def parallel : CodeBond where
  Holds := enclosure.Parallels
  kept {first second after final} parallels same otherSame :=
    { natives := by rw [same.natives, otherSame.natives, parallels.natives]
      core := by
        unfold Machine.native?
        rw [same.natives]
        exact parallels.core
      functions := by rw [same.functions, otherSame.functions]; exact parallels.functions
      firstBodies := by rw [same.bodies]; exact parallels.firstBodies
      secondBodies := by rw [otherSame.bodies]; exact parallels.secondBodies
      run := by
        unfold Machine.run?
        rw [otherSame.runs]
        exact parallels.run }

/-- A run without shims of a module whose methods are told by their tokens. -/
structure Bare : Prop where
  reachable : enclosure.module.Reachable
  fits : enclosure.module.methods.size < Token.rowBound
  shims : enclosure.shims = []

variable {enclosure}

/-! ## What the run makes -/

theorem Refuses.isOrdinary {error : Error} (refuses : enclosure.Refuses error) :
    error.isOrdinary := by
  obtain ⟨method, code, forInterface, before, after, _, read, failed⟩ := refuses
  have provides (instruction : Instruction) : Provides (fun _ => True) (fun _ => True)
      enclosure.module enclosure.id instruction :=
    fun _ _ _ _ _ _ _ => .of_keeps (fun _ _ => trivial) (IsolationRun.sparesBodies_stubOf _ _ _ _)
  have ends : Ends _ _ _ (IsolationRun.instrument enclosure.module enclosure.id method forInterface
      before) :=
    IsolationRun.yields_instrument forInterface (fun _ _ instruction _ => provides instruction)
      before trivial
  rw [failed] at ends
  cases isOrdinary : error.isOrdinary with
  | true => rfl
  | false =>
      rw [ends.2 isOrdinary] at read
      cases read

theorem Rewrites.exists_code {method : MethodDef} {forInterface : Bool} {body : DynamicMethod}
    (rewrites : enclosure.Rewrites method forInterface body) :
    ∃ code, MethodCode.ofMethod enclosure.module method = .ok code := by
  obtain ⟨before, after, _, made⟩ := rewrites.made
  obtain ⟨code, _, decoded, _⟩ := bind_eq_ok.mp made
  exact ⟨code, (ofExcept_eq_ok.mp decoded).1⟩

theorem supplies_of_native {kind : StubKind} {target : MethodDef} {native : Native}
    (knows : enclosure.module.Knows target)
    (made : Stub.native enclosure.module ⟨enclosure.id, kind, target⟩ = .ok native) :
    enclosure.Supplies native := by
  obtain ⟨_, _, made⟩ := except_bind_eq_ok.mp made
  cases made
  exact ⟨_, rfl, rfl, knows⟩

theorem remembers_stubOf {kind : StubKind} {target : MethodDef}
    (knows : enclosure.module.Knows target) :
    Yields enclosure.Remembers enclosure.Supplies (fun error => error.isOrdinary)
      (IsolationRun.stubOf enclosure.module enclosure.id kind target) := by
  intro run remembers
  have arises := remembers.arises.stubOf kind target
  rw [IsolationRun.stubOf_run] at arises ⊢
  cases known : run.stub? kind target.identity with
  | some native => exact ⟨remembers, remembers.stubs _ native (mem_of_lookup known)⟩
  | none =>
      cases made : Stub.native enclosure.module ⟨enclosure.id, kind, target⟩ with
      | error error => exact ⟨remembers, Stub.sparesBody_native _ _ error made⟩
      | ok native =>
          rw [known, made] at arises
          have supplies := supplies_of_native knows made
          refine ⟨⟨arises, fun key other member => ?_, remembers.bodies⟩, supplies⟩
          rcases List.mem_cons.mp member with isNew | old
          · cases isNew
            exact supplies
          · exact remembers.stubs key other old

section Making

variable {method : MethodDef} (knows : enclosure.module.Knows method)

include knows

theorem remembers_instrument (forInterface : Bool) :
    Yields enclosure.Remembers (enclosure.Rewrites method forInterface)
      (fun error => enclosure.Refuses error ∨
        MethodCode.ofMethod enclosure.module method = .error error)
      (IsolationRun.instrument enclosure.module enclosure.id method forInterface) := by
  intro run remembers
  have ends : Ends _ _ _ (IsolationRun.instrument enclosure.module enclosure.id method forInterface
      run) :=
    IsolationRun.yields_instrument forInterface
      (fun _ _ _ _ token _ _ _ _ named _ => remembers_stubOf (.inr ⟨token, named⟩)) run remembers
  cases made : IsolationRun.instrument enclosure.module enclosure.id method forInterface run with
  | ok body after =>
      rw [made] at ends
      exact ⟨ends.1, ⟨run, after, remembers.arises, made⟩, ends.2⟩
  | error error after =>
      rw [made] at ends
      refine ⟨ends.1, ?_⟩
      cases read : MethodCode.ofMethod enclosure.module method with
      | ok code => exact .inl ⟨method, code, forInterface, run, after, knows, read, made⟩
      | error failure =>
          unfold IsolationRun.instrument at made
          rw [read] at made
          cases made
          exact .inr rfl

variable (bare : enclosure.Bare)

include bare

/-- A body that the run adds was made from the only method that it is remembered for. -/
theorem Remembers.add {run : IsolationRun} (remembers : enclosure.Remembers run)
    {forInterface : Bool} {body : DynamicMethod}
    (rewrites : enclosure.Rewrites method forInterface body)
    (arises : enclosure.Arises
      { run with bodies := ((method.identity, forInterface), body) :: run.bodies }) :
    enclosure.Remembers
      { run with bodies := ((method.identity, forInterface), body) :: run.bodies } where
  arises := arises
  stubs := remembers.stubs
  bodies other flavour found otherKnown isFound := by
    rw [IsolationRun.body?_cons] at isFound
    split at isFound
    · rename_i same
      obtain ⟨sameIdentity, rfl⟩ := same
      cases isFound
      obtain rfl := bare.reachable.tables.eq_of_knows bare.fits knows otherKnown
        (MethodDef.of_identity sameIdentity).1
      exact rewrites
    · exact remembers.bodies other flavour found otherKnown isFound

theorem remembers_implementation (forInterface : Bool) :
    Yields enclosure.Remembers (enclosure.Runs method forInterface)
      (fun error => enclosure.Refuses error ∨
        MethodCode.ofMethod enclosure.module method = .error error ∧ error.blamesBody = false)
      (IsolationRun.implementation enclosure.module enclosure.id method forInterface) := by
  intro run remembers
  have arises := remembers.arises.implementation method forInterface
  have instrumented := remembers_instrument knows forInterface run remembers
  rw [IsolationRun.implementation_run] at arises ⊢
  split
  · exact ⟨remembers, .plain⟩
  rename_i notIntrinsic
  rw [if_neg notIntrinsic, IsolationRun.bodyOf_run] at arises
  rw [IsolationRun.bodyOf_run]
  cases known : run.body? method.identity forInterface with
  | some body => exact ⟨remembers, .rewritten (remembers.bodies _ _ _ knows known)⟩
  | none =>
      rw [known] at arises
      cases made :
          IsolationRun.instrument enclosure.module enclosure.id method forInterface run with
      | ok body after =>
          rw [made] at arises instrumented
          exact ⟨instrumented.1.add knows bare instrumented.2 arises, .rewritten instrumented.2⟩
      | error error after =>
          rw [made] at instrumented
          dsimp only
          split
          · rename_i failed
            cases failed
          · rename_i failed
            cases failed
            exact ⟨instrumented.1, .plain⟩
          · rename_i spared failed
            cases failed
            refine ⟨instrumented.1, instrumented.2.imp_right fun failed => ⟨failed, ?_⟩⟩
            cases error with
            | unreadableMethodBody token => exact absurd rfl (spared token)
            | _ => rfl

end Making

/-! ## Machines side by side -/

namespace Parallels

variable {first second : Machine}

theorem native? (parallels : enclosure.Parallels first second) (token : Token) :
    second.native? token = first.native? token := by
  unfold Machine.native?
  rw [parallels.natives]

theorem withBodies (parallels : enclosure.Parallels first second)
    {bodies otherBodies : List (Token × MethodCode)} (decodes : enclosure.module.Decodes bodies)
    (otherDecodes : enclosure.module.Decodes otherBodies) :
    enclosure.Parallels { first with bodies } { second with bodies := otherBodies } :=
  { parallels with
    firstBodies := decodes
    secondBodies := otherDecodes }

theorem setRun (parallels : enclosure.Parallels first second) {run : IsolationRun}
    (remembers : enclosure.Remembers run) :
    enclosure.Parallels first
      { second with runs := second.runs.set! enclosure.id (some run) } :=
  have ⟨_, active, _⟩ := parallels.run
  { parallels with run := ⟨run, by rw [Machine.run?_set active, if_pos rfl], remembers⟩ }

theorem addFunction (parallels : enclosure.Parallels first second) {callable other : Callable}
    (binds : enclosure.Binds callable other) :
    enclosure.Parallels { first with functions := first.functions.push callable }
      { second with functions := second.functions.push other } :=
  { parallels with
    functions := by
      rw [Array.toList_push, Array.toList_push]
      exact List.rel_append parallels.functions (.cons binds .nil) }

theorem function_cases (parallels : enclosure.Parallels first second) (pointer : FunctionPointer) :
    (∃ error, first.function pointer = .error error ∧ second.function pointer = .error error) ∨
      ∃ callable other, first.function pointer = .ok callable ∧
        second.function pointer = .ok other ∧ enclosure.Binds callable other := by
  have found (index : Nat) (functions others : List Callable)
      (binds : List.Forall₂ enclosure.Binds functions others) :
      functions[index]? = none ∧ others[index]? = none ∨ ∃ callable other,
        functions[index]? = some callable ∧ others[index]? = some other ∧
          enclosure.Binds callable other := by
    induction binds generalizing index with
    | nil => exact .inl ⟨rfl, rfl⟩
    | cons binds _ ih =>
        cases index with
        | zero => exact .inr ⟨_, _, rfl, rfl, binds⟩
        | succ index => exact ih index
  unfold Machine.function
  rw [← Array.getElem?_toList, ← Array.getElem?_toList]
  rcases found pointer.id _ _ parallels.functions with
    ⟨isNone, otherNone⟩ | ⟨callable, other, isSome, isOther, binds⟩
  · rw [isNone, otherNone]
    exact .inl ⟨_, rfl, rfl⟩
  · rw [isSome, isOther]
    exact .inr ⟨callable, other, rfl, rfl, binds⟩

end Parallels

end Enclosure

end Cil
