import Cil.Isolation.Isolate
import Cil.Proofs.Isolation.Confinement

/-!
# Isolated execution runs instrumented code only

A guarded execution runs only code that is accepted, and anything else in whatever other way.
If an isolated execution whose guard accepts the bodies that the run instruments is the same
as without a guard, however the other code is run, then no other code runs in it.
-/

namespace Cil

open Stateful
open MonadExcept (ofExcept)
open Instrumentation (isCallSite isVirtualCall)

/-! ## Guarded executions -/

namespace Exec

/-- Runs activations, but only code that is accepted.  Any other code is run another way. -/
def activateOnly (accepts : MethodCode → Scope → Bool) (other : Runner) : (calls : Nat) → Runner
  | 0, _ => throw .outOfFuel
  | calls + 1, .native provided arguments =>
    asCall (runNative (activateOnly accepts other calls) provided.body arguments)
  | calls + 1, .code code scope arguments =>
    if accepts code scope then runCode (activateOnly accepts other calls) code scope arguments
    else other (.code code scope arguments)

/-- Calls a callable with a way of running activations. -/
def runToEndBy (activate : Nat → Runner) (callable : Callable) (arguments : List Value) :
    Exec Value := do
  let called : Exec Value := do
    invoke (activate (← read).limits.calls) callable arguments
  match ← catchThrown called with
  | .ok value => return value
  | .error exception =>
    let (type, message) ← describeException exception
    throw (.managedException type message)

end Exec

namespace Machine

/-- Runs a method in isolation, with a way of running activations. -/
def invokeIsolatedBy (activate : Nat → Runner) (machine : Machine) (module : Module)
    (id : Nat) (entry : Token) (arguments : List Value) : Except Error Value × Machine :=
  machine.onThread module (machine.runLimits id) do
    let stub ← Exec.stubOf id .call (← Exec.method entry)
    Exec.runToEndBy activate (.native stub) arguments

theorem invokeIsolatedBy_activate (machine : Machine) (module : Module) (id : Nat)
    (entry : Token) (arguments : List Value) :
    machine.invokeIsolatedBy Exec.activate module id entry arguments =
      machine.invokeIsolated module id entry arguments :=
  rfl

/-- Runs methods one after the other. -/
def invokeEach (invoke : Machine → Token → List Value → Except Error Value × Machine)
    (machine : Machine) : List (Token × List Value) → List (Except Error Value) × Machine
  | [] => ([], machine)
  | (entry, arguments) :: calls =>
    let (result, after) := invoke machine entry arguments
    let (results, final) := after.invokeEach invoke calls
    (result :: results, final)

end Machine

/-! ## Confined runs -/

namespace Exec

section Guarded

variable {enclosure : Enclosure} {limits : Limits} {accepts : MethodCode → Scope → Bool}
  (secure : enclosure.Secure)
  (accepted : ∀ body, enclosure.Instruments body → accepts body.code body.scope)
  (other : Runner)

include secure accepted

/-- The guard stops nothing as long as only code of the run can be reached. -/
theorem activateOnly_agrees (calls : Nat) :
    RunnersAgree enclosure limits (activateOnly accepts other calls) (activate calls) := by
  -- By induction on how deep calls may nest: what is permitted calls only what is permitted.
  induction calls with
  | zero => exact fun _ _ => .throw _
  | succ calls ih =>
      intro activation permitted
      cases activation with
      | native provided arguments =>
          exact agrees_asCall Enclosure.Confines.of_sameCode
            (confined_runNative ih secure permitted arguments)
      | code code scope arguments =>
          obtain ⟨body, holds, rfl, rfl⟩ := permitted
          have guarded : activateOnly accepts other (calls + 1)
              (.code body.code body.scope arguments) =
              runCode (activateOnly accepts other calls) body.code body.scope arguments :=
            if_pos (accepted body holds.instrumented)
          rw [guarded]
          exact agrees_runCode Enclosure.Confines.of_sameCode arguments
            fun frame instruction member _ _ =>
              confined_step ih holds (Array.mem_toList_iff.mpr member) _ _ _ _

theorem confined_invokeIsolated (entry : Token) (arguments : List Value) :
    Confined enclosure limits
      (do
        let stub ← stubOf enclosure.id .call (← method entry)
        runToEndBy (activateOnly accepts other) (.native stub) arguments)
      (do
        let stub ← stubOf enclosure.id .call (← method entry)
        runToEndBy activate (.native stub) arguments) := by
  refine .bind (ensures_method entry) fun definition known => ?_
  have serves : enclosure.Serves ⟨enclosure.id, .call, definition⟩ :=
    ⟨rfl, Or.inr ⟨entry, known⟩, fun isPointer => by simp at isPointer⟩
  have asked : Ensures enclosure limits enclosure.IsStub
      (stubOf enclosure.id .call definition) := by
    refine .bind (ensures_runOf serves) fun isolation carries =>
      .bind ensures_module fun module isModule => ?_
    rw [isModule]
    exact ensures_onRun (Enclosure.yields_stubOf serves) carries
  refine .bind asked fun stub isStub => .bind (.catchThrown (.bind .read fun context _ =>
    activateOnly_agrees secure accepted other _ _ (Or.inr isStub))) fun outcome _ => ?_
  cases outcome with
  | ok value => exact .pure trivial
  | error exception => exact (steady_describeException _).confined_bind fun _ => .throw _

end Guarded

end Exec

namespace Machine

/-- A machine that has bound no function pointers and decoded no bodies, with only the native
methods of the core library. -/
structure Fresh (machine : Machine) : Prop where
  functions : machine.functions = #[]
  bodies : machine.bodies = []
  natives : ∀ entry ∈ machine.natives, ∃ operation, entry.2.body = .core operation

theorem fresh_ofModule (module : Module) (limits : Limits) : (ofModule module limits).Fresh where
  functions := rfl
  bodies := rfl
  natives := by
    intro entry member
    obtain ⟨⟨method, operation⟩, _, made⟩ := List.mem_filterMap.mp member
    refine ⟨operation, ?_⟩
    cases built : Native.ofCore module method operation with
    | error error => simp [built] at made
    | ok native =>
        simp only [built, Option.some.injEq] at made
        subst made
        obtain ⟨_, _, built⟩ := except_bind_eq_ok.mp built
        dsimp only at built
        split at built
        · cases built
          rfl
        · obtain ⟨_, _, built⟩ := except_bind_eq_ok.mp built
          cases built
          rfl

variable {machine started : Machine} {module : Module} {shims : List Shim}
  {config : IsolationConfig} {id : Nat}

theorem startRun_eq_ok (machine : Machine) (config : IsolationConfig)
    (own : ∀ shim ∈ shims, ∃ current, module.method shim.method.token = .ok current ∧
      current.identity = shim.identity) :
    machine.startRun module shims config = .ok (machine.runs.size,
      { machine with runs := machine.runs.push (some { shims, config }) }) := by
  refine except_bind_eq_ok.mpr ⟨⟨⟩, ?_, rfl⟩
  induction shims with
  | nil => rfl
  | cons shim shims ih =>
      obtain ⟨current, known, same⟩ := own shim (by simp)
      refine except_bind_eq_ok.mpr ⟨⟨⟩, ?_, ih fun other member => own other (by simp [member])⟩
      refine except_bind_eq_ok.mpr ⟨current, known, ?_⟩
      rw [if_neg (not_not_intro same)]
      rfl

theorem Fresh.confines (fresh : machine.Fresh)
    (start : machine.startRun module shims config = .ok (id, started)) :
    Enclosure.Confines ⟨module, shims, config, id⟩ started := by
  obtain ⟨_, _, start⟩ := except_bind_eq_ok.mp start
  cases start
  refine ⟨?_, fresh.natives, fresh.bodies, { shims, config }, ?_, ?_⟩
  · intro callable member
    rw [fresh.functions] at member
    simp at member
  · simp [run?]
  · exact ⟨.start, by simp, by simp⟩

theorem invokeIsolated_guarded (secure : Enclosure.Secure ⟨module, shims, config, id⟩)
    {accepts : MethodCode → Scope → Bool}
    (accepted : ∀ body, Enclosure.Instruments ⟨module, shims, config, id⟩ body →
      accepts body.code body.scope) (other : Runner) (entry : Token) (arguments : List Value)
    (confines : Enclosure.Confines ⟨module, shims, config, id⟩ machine) :
    machine.invokeIsolatedBy (Exec.activateOnly accepts other) module id entry arguments =
        machine.invokeIsolated module id entry arguments ∧
      Enclosure.Confines ⟨module, shims, config, id⟩
        (machine.invokeIsolated module id entry arguments).2 := by
  have confined : Exec.Confined ⟨module, shims, config, id⟩ (machine.runLimits id) _ _ :=
    Exec.confined_invokeIsolated secure accepted other entry arguments
  obtain ⟨same, ends⟩ := confined { machine with frames := #[], depth := 0, executed := 0 }
    (confines.of_sameCode machine _ ⟨rfl, rfl, rfl, rfl⟩)
  rw [← invokeIsolatedBy_activate]
  rw [same] at ends
  unfold invokeIsolatedBy onThread
  dsimp only at same ends ⊢
  refine ⟨by rw [same], ?_⟩
  split <;> rename_i ran <;> rw [ran] at ends <;> exact ends.1

/-- On a fresh machine a tight module runs only what the run instruments: whatever else is run
another way, the outcomes are the same. -/
theorem invokeEach_guarded (fresh : machine.Fresh)
    (start : machine.startRun module shims config = .ok (id, started))
    (strict : config.policy = .none) (quiet : ∀ shim ∈ shims, shim.replacement.Quiet)
    (tight : Enclosure.Tight ⟨module, shims, config, id⟩)
    {accepts : MethodCode → Scope → Bool}
    (accepted : ∀ body, Enclosure.Instruments ⟨module, shims, config, id⟩ body →
      accepts body.code body.scope) (other : Runner) (calls : List (Token × List Value)) :
    started.invokeEach
        (·.invokeIsolatedBy (Exec.activateOnly accepts other) module id) calls =
      started.invokeEach (·.invokeIsolated module id) calls := by
  have secure : Enclosure.Secure ⟨module, shims, config, id⟩ := ⟨strict, quiet, tight⟩
  have confines := fresh.confines start
  clear fresh start
  -- Each call hands a confined machine on to the next one.
  induction calls generalizing started with
  | nil => rfl
  | cons call calls ih =>
      obtain ⟨entry, arguments⟩ := call
      obtain ⟨same, after⟩ :=
        invokeIsolated_guarded secure accepted other entry arguments confines
      unfold invokeEach
      dsimp only
      rw [same, ih after]

end Machine

/-! ## Delegates on the methods of a base type and of a derived type -/

namespace Acting

def base : Token := .ofRow .typeDef 18
def derived : Token := .ofRow .typeDef 19
def value : Token := .ofRow .methodDef 26
def main : Token := .ofRow .methodDef 30

/-- A base type with a static method and an abstract one, which the derived type overrides. -/
def declarations : Module :=
  let onBase := finalState (Module.declareMethod base
      (MethodDeclaration.asAbstract { name := "Act" }) (finalState
    (Module.declareMethod base
      { name := "Value", flags := MethodModifiers.isStatic, returnType := .int32 } (finalState
    (Module.declareField base
      (FieldDeclaration.asStatic { name := "last", signature := .int32 }) (finalState
    (Module.declareType { space := "Demo", name := "Base" } Module.initial)))))))
  finalState (Module.declareMethod derived
      { name := "Main", flags := MethodModifiers.isStatic, returnType := .int32 } (finalState
    (Module.declareMethod derived { name := "Act", flags := MethodModifiers.isVirtual } (finalState
    (Module.declareMethod derived MethodDeclaration.ofConstructor (finalState
    (Module.declareType { space := "Demo", name := "Derived", base? := some base } onBase)))))))

/-- `Value` gives one, and the override stores what it gives into a field.  The main method
calls a delegate on the method in a row and returns what the field holds then. -/
@[irreducible]
def module (pointed : UInt8) : Module :=
  finalState (Module.setBody main
      [0x6E, 0x73, 0x1C, 0, 0, 6, 0xFE, 0x06, pointed, 0, 0, 6, 0x73, 0x18, 0, 0, 6,
        0x6F, 0x19, 0, 0, 6, 0x7E, 2, 0, 0, 4, 0x2A] (finalState
    (Module.setBody (.ofRow .methodDef 29)
      [0x2E, 0x28, 0x1A, 0, 0, 6, 0x80, 2, 0, 0, 4, 0x2A] (finalState
    (Module.setBody (.ofRow .methodDef 28) [0x06, 0x2A] (finalState
    (Module.setBody value [0x0A, 0x17, 0x2A] declarations)))))))

def method (pointed : UInt8) (row : Nat) : MethodDef :=
  (((module pointed).method (.ofRow .methodDef row)).toOption).getD default

theorem method_known {pointed : UInt8} (row : Nat)
    (isKnown : ((module pointed).method (.ofRow .methodDef row)).toOption.isSome) :
    (module pointed).method (.ofRow .methodDef row) = .ok (method pointed row) := by
  unfold method
  cases known : (module pointed).method (.ofRow .methodDef row) with
  | ok definition => rfl
  | error error =>
      rw [known] at isKnown
      cases isKnown

/-- Gives forty-two instead of `Value`. -/
def shim : Shim :=
  { method := method 0x1B 26, receiver := .any
    replacement := .native
      { name := "replacement", params := [], returnType := .int32
        body := .host fun _ => .done (.int32 42) }
    isSetter := false, constructionBase? := none }

def machine (pointed : UInt8) : Machine := .ofModule (module pointed) .standard

def started (pointed : UInt8) : Machine :=
  { machine pointed with runs := #[some { shims := [shim], config := .strict }] }

/-- Accepts code that does not call `Value` itself. -/
def accepts (code : MethodCode) (_ : Scope) : Bool :=
  code.instructions.toList.all fun instruction =>
    !(isCallSite instruction.opcode && instruction.token? == some value)

theorem quiet : ∀ replacing ∈ [shim], replacing.replacement.Quiet := by
  intro replacing member
  obtain rfl := List.mem_singleton.mp member
  exact fun _ => trivial

section Runs

variable {pointed : UInt8} (isKnown : ((module pointed).method value).toOption.isSome)

include isKnown

theorem start (same : (method pointed 26).identity = shim.identity) :
    (machine pointed).startRun (module pointed) [shim] .strict = .ok (0, started pointed) := by
  refine Machine.startRun_eq_ok (machine pointed) .strict fun replacing member => ?_
  obtain rfl := List.mem_singleton.mp member
  have token : shim.method.token = value := by decide +kernel
  exact ⟨method pointed 26, token ▸ method_known 26 isKnown, same⟩

theorem accepts_instrumented
    (stubbed : ∀ isVirtual, IsolationRun.forwards { shims := [shim], config := .strict }
      (module pointed) (method pointed 26) isVirtual = false) {body : DynamicMethod}
    (instruments : Enclosure.Instruments ⟨module pointed, [shim], .strict, 0⟩ body) :
    accepts body.code body.scope := by
  refine List.all_eq_true.mpr fun instruction member => ?_
  cases isCall : isCallSite instruction.opcode with
  | false => rfl
  | true =>
      have notDynamic : value.isDynamic = false := by decide +kernel
      have known : (module pointed).method value = .ok (method pointed 26) :=
        method_known 26 isKnown
      have other : instruction.token? ≠ some value :=
        instruments.token?_ne notDynamic known stubbed member isCall
      simpa using other

end Runs

def returns (number : Int32) (results : List (Except Error Value) × Machine) : Bool :=
  match results.1 with
  | [.ok (.int32 result)] => result == number
  | _ => false

/-- A function pointer to the override itself is safe. -/
theorem tight : Enclosure.Tight ⟨module 0x1D, [shim], .strict, 0⟩ := by
  have plain : (module 0x1D).instantiations = #[] :=
    Array.eq_empty_of_size_eq_zero (by decide +kernel)
  -- Without instantiations the code is that of the declared methods, which is checked as a
  -- whole.
  have checked : ∀ instruction ∈ (module 0x1D).declaredCode,
      instruction.opcode ≠ .ldvirtftn ∧
        (instruction.opcode = .ldftn → instruction.token? = some (.ofRow .methodDef 29)) ∧
        (isVirtualCall instruction.opcode → IsolationRun.forwardsAt
          { shims := [shim], config := .strict } (module 0x1D) instruction = false) := by
    decide +kernel
  have known : (module 0x1D).method (.ofRow .methodDef 29) = .ok (method 0x1D 29) :=
    method_known 29 (by decide +kernel)
  have hasBody : (MethodCode.ofMethod (module 0x1D) (method 0x1D 29)).toOption.isSome := by
    decide +kernel
  constructor
  · intro instruction contains isPointer token target named isTarget other leads lacks _
    obtain ⟨notVirtual, pointed, _⟩ := checked _ (Module.mem_declaredCode plain contains)
    have isDirect := isPointer.resolve_right notVirtual
    obtain rfl := Option.some.inj (named.symm.trans (pointed isDirect))
    obtain rfl := Except.ok.inj (isTarget.symm.trans known)
    rw [isDirect] at leads
    rcases leads with rfl | ⟨impossible, _⟩
    · obtain ⟨error, failed, _⟩ := lacks
      change MethodCode.ofMethod (module 0x1D) (method 0x1D 29) = .error error at failed
      rw [failed] at hasBody
      cases hasBody
    · cases impossible
  · intro instruction contains isVirtual forwards
    obtain ⟨_, _, stubbed⟩ := checked _ (Module.mem_declaredCode plain contains)
    exact absurd (forwards.symm.trans (stubbed isVirtual)) (by simp)

/-- A delegate on the override runs what was instrumented, so `Value` is replaced. -/
theorem override_runs_guarded :
    (started 0x1D).invokeEach
        (·.invokeIsolatedBy (Exec.activateOnly accepts fun _ => throw .outOfFuel)
          (module 0x1D) 0) [(main, [])] =
      (started 0x1D).invokeEach (·.invokeIsolated (module 0x1D) 0) [(main, [])] ∧
    returns 42 ((started 0x1D).invokeEach (·.invokeIsolated (module 0x1D) 0) [(main, [])]) := by
  have known : ((module 0x1D).method value).toOption.isSome := by decide +kernel
  have same := Machine.invokeEach_guarded (Machine.fresh_ofModule _ _)
    (start known (by decide +kernel)) rfl quiet tight
    (fun body => accepts_instrumented known (by decide +kernel)) (fun _ => throw .outOfFuel)
    [(main, [])]
  exact ⟨same, by decide +kernel⟩

/-- A delegate on a method without a body runs the override as it is. -/
theorem override_runs_unguarded :
    ¬ ∀ (machine started : Machine) (module : Module) (shims : List Shim)
      (config : IsolationConfig) (id : Nat) (accepts : MethodCode → Scope → Bool) (other : Runner)
      (calls : List (Token × List Value)),
      machine.Fresh → machine.startRun module shims config = .ok (id, started) →
      config.policy = .none → (∀ shim ∈ shims, shim.replacement.Quiet) →
      (∀ body, Enclosure.Instruments ⟨module, shims, config, id⟩ body →
        accepts body.code body.scope) →
      started.invokeEach
          (·.invokeIsolatedBy (Exec.activateOnly accepts other) module id) calls =
        started.invokeEach (·.invokeIsolated module id) calls := by
  intro closed
  have known : ((module 0x1B).method value).toOption.isSome := by decide +kernel
  have same := closed (machine 0x1B) (started 0x1B) (module 0x1B) [shim] .strict 0 accepts
    (fun _ => throw .outOfFuel) [(main, [])] (Machine.fresh_ofModule _ _)
    (start known (by decide +kernel)) rfl quiet
    (fun body => accepts_instrumented known (by decide +kernel))
  -- The override stores one, unless the guard keeps its code from running.
  have unguarded : returns 1 ((started 0x1B).invokeEach
      (·.invokeIsolated (module 0x1B) 0) [(main, [])]) = true := by
    decide +kernel
  have guarded : returns 1 ((started 0x1B).invokeEach
      (·.invokeIsolatedBy (Exec.activateOnly accepts fun _ => throw .outOfFuel)
        (module 0x1B) 0) [(main, [])]) = false := by
    decide +kernel
  rw [← same, guarded] at unguarded
  cases unguarded

end Acting

end Cil
