import Cil.Proofs.Code.Bodies
import Cil.Proofs.Isolation.CallSites
import Cil.Proofs.Machine.Quiet

/-!
# What an isolated run encloses

From an isolated run the original code of the module can be reached only through methods
that are called without a stub: those that the run forwards and those that have no body to
instrument.  Such a method runs no code itself, but a virtual call of it may resolve to one
that does.  A module is tight for a run if this does not happen.  Then everything that the
run remembers, and everything that its function pointers are bound to, was instrumented by
the run or has no body.
-/

namespace Cil

open Stateful
open Instrumentation (isCallSite isVirtualCall Provides)

theorem ForwardPolicy.isIntrinsic_none (module : Module) (method : MethodDef) :
    ForwardPolicy.none.isIntrinsic module method = false := by
  unfold isIntrinsic
  split <;> rfl

theorem StubKind.isVirtual_of_ofOpcode? {opcode : Opcode} {constraint? : Option Token}
    {kind : StubKind} (isKind : ofOpcode? opcode constraint? = some kind) :
    kind.isVirtual = isVirtualCall opcode := by
  unfold ofOpcode? at isKind
  split at isKind <;> cases isKind <;> rfl

theorem StubKind.pointer_of_ofOpcode? {opcode : Opcode} {constraint? : Option Token}
    {kind : StubKind} (isKind : ofOpcode? opcode constraint? = some kind)
    (isPointer : kind = .functionPointer ∨ kind = .virtualFunctionPointer) :
    opcode = .ldftn ∨ opcode = .ldvirtftn := by
  unfold ofOpcode? at isKind
  split at isKind <;> cases isKind <;> simp at isPointer ⊢

theorem mem_of_lookup {α β : Type} [BEq α] [LawfulBEq α] {key : α} {value : β}
    {entries : List (α × β)} (found : entries.lookup key = some value) :
    (key, value) ∈ entries := by
  obtain ⟨before, after, rfl, _⟩ := List.lookup_eq_some_iff.mp found
  simp

/-! ## Shims that call no method -/

def Native.Quiet (native : Native) : Prop :=
  match native.body with
  | .core _ => True
  | .stub _ => False
  | .host program => ∀ arguments, (program arguments).Quiet

def Replacement.Quiet : Replacement → Prop
  | .native provided => provided.Quiet
  | .managed .. => False

/-! ## Enclosures -/

/-- A module with an isolation run of it. -/
structure Enclosure where
  module : Module
  shims : List Shim
  config : IsolationConfig
  /-- The number of the run. -/
  id : Nat

namespace Enclosure

variable (enclosure : Enclosure)

def start : IsolationRun := { shims := enclosure.shims, config := enclosure.config }

/-- The states that the run comes to. -/
inductive Arises : IsolationRun → Prop
  | start : Arises enclosure.start
  | stubOf {run : IsolationRun} (kind : StubKind) (target : MethodDef) : Arises run →
      Arises (finalState (IsolationRun.stubOf enclosure.module enclosure.id kind target run))
  | implementation {run : IsolationRun} (method : MethodDef) (forInterface : Bool) :
      Arises run → Arises (finalState
        (IsolationRun.implementation enclosure.module enclosure.id method forInterface run))

/-- The run instruments a method as a body. -/
def Instruments (body : DynamicMethod) : Prop :=
  ∃ before method forInterface after, enclosure.Arises before ∧
    IsolationRun.instrument enclosure.module enclosure.id method forInterface before =
      .ok body after

/-- The module has no way around the run: the function pointers that its code makes are
safe, and virtual calls that the run forwards lead to no body. -/
structure Tight : Prop where
  pointers : ∀ instruction, enclosure.module.Contains instruction →
    instruction.opcode = .ldftn ∨ instruction.opcode = .ldvirtftn →
    ∀ token method, instruction.token? = some token → enclosure.module.method token = .ok method →
      enclosure.module.PointsSafely (isVirtualCall instruction.opcode) method
  calls : ∀ instruction, enclosure.module.Contains instruction →
    isVirtualCall instruction.opcode → enclosure.start.forwardsAt enclosure.module instruction →
    ∀ token method, instruction.token? = some token → enclosure.module.method token = .ok method →
      enclosure.module.Hollow method

/-- The run forwards as little as possible, its shims call nothing, and the module is tight. -/
structure Secure : Prop where
  strict : enclosure.config.policy = .none
  quiet : ∀ shim ∈ enclosure.shims, shim.replacement.Quiet
  tight : enclosure.Tight

/-- A stub of the run for a known method.  The function pointers that it makes are safe. -/
structure Serves (site : Stub) : Prop where
  run : site.run = enclosure.id
  known : enclosure.module.Knows site.target
  points : site.kind = .functionPointer ∨ site.kind = .virtualFunctionPointer →
    enclosure.module.PointsSafely site.kind.isVirtual site.target

def IsStub (native : Native) : Prop :=
  ∃ site, native.body = .stub site ∧ enclosure.Serves site

/-- A method that code of the run names without a stub. -/
structure Passes (opcode : Opcode) (method : MethodDef) : Prop where
  lacks : enclosure.module.LacksBody method
  hollow : isVirtualCall opcode → enclosure.module.Hollow method
  points : opcode = .ldftn ∨ opcode = .ldvirtftn →
    enclosure.module.PointsSafely (isVirtualCall opcode) method

/-- A body of the run.  It names methods of the module that pass, and stubs. -/
structure Holds (body : DynamicMethod) : Prop where
  instrumented : enclosure.Instruments body
  passes : ∀ instruction ∈ body.code.instructions.toList, isCallSite instruction.opcode →
    ∀ token method, instruction.token? = some token → token.isDynamic = false →
      enclosure.module.method token = .ok method → enclosure.Passes instruction.opcode method
  scope : ∀ entry ∈ body.scope.entries, ∃ stub, entry = .native stub ∧ enclosure.IsStub stub

/-- What can be called directly without leaving the run. -/
def Invokes : Callable → Prop
  | .method definition => enclosure.module.LacksBody definition
  | .dynamic body => enclosure.Holds body
  | .native provided => provided.Quiet ∨ enclosure.IsStub provided

/-- What runs for a method: a body of the run, or the method itself if it has no body. -/
inductive Implements (method : MethodDef) : Callable → Prop
  | body {body : DynamicMethod} (holds : enclosure.Holds body) : Implements method (.dynamic body)
  | plain (lacks : enclosure.module.LacksBody method) : Implements method (.method method)

/-- What a function pointer may be bound to without leaving the run. -/
structure Admits (callable : Callable) : Prop where
  invokes : enclosure.Invokes callable
  hollow : ∀ definition, callable = .method definition → definition.isVirtual →
    enclosure.module.Hollow definition

/-- What can be run without leaving the run. -/
def Permits : Activation → Prop
  | .native provided _ => provided.Quiet ∨ enclosure.IsStub provided
  | .code code scope _ => ∃ body, enclosure.Holds body ∧ body.code = code ∧ body.scope = scope

/-- The run in a state in which it remembers nothing but stubs and bodies of its own. -/
structure Carries (run : IsolationRun) : Prop where
  arises : enclosure.Arises run
  stubs : ∀ key native, (key, native) ∈ run.stubs → enclosure.IsStub native
  bodies : ∀ key body, (key, body) ∈ run.bodies → enclosure.Holds body

/-- A machine from which only code of the run can be reached. -/
structure Confines (machine : Machine) : Prop where
  functions : ∀ callable ∈ machine.functions, enclosure.Admits callable
  natives : ∀ entry ∈ machine.natives, ∃ operation, entry.2.body = .core operation
  bodies : machine.bodies = []
  run : ∃ run, machine.run? enclosure.id = some run ∧ enclosure.Carries run

variable {enclosure}

theorem Implements.invokes {method : MethodDef} {callable : Callable}
    (implements : enclosure.Implements method callable) : enclosure.Invokes callable := by
  cases implements with
  | body holds => exact holds
  | plain lacks => exact lacks

theorem Implements.admits {method : MethodDef} {callable : Callable}
    (implements : enclosure.Implements method callable)
    (points : enclosure.module.PointsSafely false method) : enclosure.Admits callable := by
  refine ⟨implements.invokes, fun definition same isVirtual => ?_⟩
  subst same
  cases implements with
  | plain lacks => exact points _ (Or.inl rfl) lacks isVirtual

/-! ## The states of the run -/

theorem Arises.reachable {run : IsolationRun} (arises : enclosure.Arises run) :
    run.Reachable := by
  induction arises with
  | start => exact .start _ _
  | stubOf kind target _ ih => exact .stubOf _ _ _ _ ih
  | implementation method forInterface _ ih => exact .implementation _ _ _ _ ih

theorem Arises.setup {run : IsolationRun} (arises : enclosure.Arises run) :
    run.shims = enclosure.shims ∧ run.config = enclosure.config := by
  have stubs (kind : StubKind) (target : MethodDef) :
      Keeps (fun run : IsolationRun => run.shims = enclosure.shims ∧
        run.config = enclosure.config)
        (IsolationRun.stubOf enclosure.module enclosure.id kind target) := by
    intro run setup
    rw [IsolationRun.stubOf_run]
    split
    · exact setup
    · split <;> exact setup
  induction arises with
  | start => exact ⟨rfl, rfl⟩
  | stubOf kind target _ ih => exact stubs kind target _ ih
  | implementation method forInterface _ ih =>
      exact IsolationRun.keeps_implementation stubs (fun _ _ setup => setup) method forInterface
        _ ih

theorem Arises.forwards_eq {run : IsolationRun} (arises : enclosure.Arises run)
    (method : MethodDef) (isVirtualCall : Bool) :
    run.forwards enclosure.module method isVirtualCall =
      enclosure.start.forwards enclosure.module method isVirtualCall := by
  obtain ⟨shims, config⟩ := arises.setup
  unfold IsolationRun.forwards IsolationRun.isIntrinsic
  rw [shims, config]
  rfl

theorem Arises.emittedSite {run : IsolationRun} (arises : enclosure.Arises run)
    {original : List Instruction} {instruction : Instruction}
    (site : run.EmittedSite enclosure.module original instruction) :
    enclosure.start.EmittedSite enclosure.module original instruction := by
  cases site with
  | forwarded source member same forwards =>
      refine .forwarded source member same ?_
      rw [← forwards]
      unfold IsolationRun.forwardsAt
      simp only [arises.forwards_eq]
  | stub index calls => exact .stub index calls

/-- Bodies of the run name no method that the run does not forward. -/
theorem Instruments.token?_ne {body : DynamicMethod} (instruments : enclosure.Instruments body)
    {token : Token} {method : MethodDef} (notDynamic : token.isDynamic = false)
    (known : enclosure.module.method token = .ok method)
    (stubbed : ∀ isVirtual, enclosure.start.forwards enclosure.module method isVirtual = false)
    {instruction : Instruction} (member : instruction ∈ body.code.instructions.toList)
    (isCall : isCallSite instruction.opcode) : instruction.token? ≠ some token := by
  intro named
  obtain ⟨before, subject, forInterface, after, arises, made⟩ := instruments
  obtain ⟨code, _, decoded, _⟩ := bind_eq_ok.mp made
  have site := arises.emittedSite (IsolationRun.emittedSite_of_instrument arises.reachable
    (ofExcept_eq_ok.mp decoded).1 made member isCall)
  obtain ⟨source, _, _, sourceNamed, forwards⟩ := site.exists_forwarded named notDynamic
  simp [IsolationRun.forwardsAt, sourceNamed, known, stubbed] at forwards

theorem lacksBody_of_forwards (strict : enclosure.config.policy = .none) {method : MethodDef}
    {isVirtualCall : Bool}
    (forwards : enclosure.start.forwards enclosure.module method isVirtualCall) :
    enclosure.module.LacksBody method := by
  have notIntrinsic : enclosure.start.isIntrinsic enclosure.module method = false := by
    change enclosure.config.policy.isIntrinsic enclosure.module method = false
    rw [strict, ForwardPolicy.isIntrinsic_none]
  refine Module.lacksBody_of_bodyOf?_eq_none ?_
  simp only [IsolationRun.forwards, notIntrinsic, Bool.false_or, Bool.and_eq_true,
    Bool.not_eq_true', Option.isSome_eq_false_iff, Option.isNone_iff_eq_none] at forwards
  exact forwards.1.1.2

/-! ## What the run makes -/

/-- A stub that the run is asked for is one of the run. -/
theorem yields_stubOf {kind : StubKind} {target : MethodDef}
    (serves : enclosure.Serves ⟨enclosure.id, kind, target⟩) :
    Yields enclosure.Carries enclosure.IsStub (fun error => error.isOrdinary)
      (IsolationRun.stubOf enclosure.module enclosure.id kind target) := by
  intro run carries
  have arises := carries.arises.stubOf kind target
  rw [IsolationRun.stubOf_run] at arises ⊢
  cases known : run.stub? kind target.identity with
  | some native => exact ⟨carries, carries.stubs _ native (mem_of_lookup known)⟩
  | none =>
      cases made : Stub.native enclosure.module ⟨enclosure.id, kind, target⟩ with
      | error error => exact ⟨carries, Stub.sparesBody_native _ _ error made⟩
      | ok native =>
          rw [known, made] at arises
          have isStub : enclosure.IsStub native := by
            obtain ⟨_, _, made⟩ := except_bind_eq_ok.mp made
            cases made
            exact ⟨_, rfl, serves⟩
          refine ⟨⟨arises, fun key other member => ?_, carries.bodies⟩, isStub⟩
          rcases List.mem_cons.mp member with isNew | old
          · cases isNew
            exact isStub
          · exact carries.stubs key other old

section Making

variable (secure : enclosure.Secure)

include secure

theorem passes_of_emittedSite {original : List Instruction} {instruction : Instruction}
    {token : Token} {method : MethodDef}
    (contains : ∀ source ∈ original, enclosure.module.Contains source)
    (site : enclosure.start.EmittedSite enclosure.module original instruction)
    (named : instruction.token? = some token) (notDynamic : token.isDynamic = false)
    (known : enclosure.module.method token = .ok method) :
    enclosure.Passes instruction.opcode method := by
  obtain ⟨source, listed, sameOpcode, sourceNamed, forwards⟩ :=
    site.exists_forwarded named notDynamic
  have forwarded := forwards
  simp only [IsolationRun.forwardsAt, sourceNamed, Option.map_some, known,
    Bool.and_eq_true] at forwarded
  -- The original code makes the same call, so tightness speaks about it.
  have inModule := contains source listed
  rw [← sameOpcode]
  exact ⟨lacksBody_of_forwards secure.strict forwarded.2,
    fun isVirtual =>
      secure.tight.calls source inModule isVirtual forwards token method sourceNamed known,
    fun isPointer =>
      secure.tight.pointers source inModule isPointer token method sourceNamed known⟩

theorem provides {instruction : Instruction} (contains : enclosure.module.Contains instruction) :
    Provides enclosure.Carries enclosure.IsStub enclosure.module enclosure.id instruction := by
  intro token method constraint? kind named known isKind
  refine yields_stubOf ⟨rfl, Or.inr ⟨token, known⟩, fun isPointer => ?_⟩
  rw [StubKind.isVirtual_of_ofOpcode? isKind]
  exact secure.tight.pointers instruction contains (StubKind.pointer_of_ofOpcode? isKind isPointer)
    token method named known

variable {method : MethodDef} (knows : enclosure.module.Knows method)

include knows

theorem yields_instrument (forInterface : Bool) :
    Yields enclosure.Carries enclosure.Holds
      (fun error => error.blamesBody → enclosure.module.LacksBody method)
      (IsolationRun.instrument enclosure.module enclosure.id method forInterface) := by
  intro run carries
  have ends := IsolationRun.yields_instrument forInterface
    (fun code read instruction member => provides secure ⟨method, code, knows, read, member⟩)
    run carries
  cases made : IsolationRun.instrument enclosure.module enclosure.id method forInterface run with
  | error error after =>
      rw [made] at ends
      exact ⟨ends.1, fun blames => ⟨error, ends.2 (error.isOrdinary_of_blamesBody blames), blames⟩⟩
  | ok body after =>
      rw [made] at ends
      obtain ⟨code, _, decoded, _⟩ := bind_eq_ok.mp made
      have read := (ofExcept_eq_ok.mp decoded).1
      have arises := carries.arises
      refine ⟨ends.1, ⟨run, method, forInterface, after, arises, made⟩,
        fun instruction member isCall token target named notDynamic known => ?_, ends.2⟩
      have site := IsolationRun.emittedSite_of_instrument arises.reachable read made member isCall
      exact passes_of_emittedSite secure
        (fun source listed => ⟨method, code, knows, read, listed⟩) (arises.emittedSite site) named
        notDynamic known

/-- What runs for a known method is a body of the run, or the method itself if it has no body
that can be read. -/
theorem yields_implementation (forInterface : Bool) :
    Yields enclosure.Carries (enclosure.Implements method) (fun _ => True)
      (IsolationRun.implementation enclosure.module enclosure.id method forInterface) := by
  intro run carries
  have arises := carries.arises.implementation method forInterface
  have instrumented := yields_instrument secure knows forInterface run carries
  have notIntrinsic : ¬run.isIntrinsic enclosure.module method := by
    rw [IsolationRun.isIntrinsic, carries.arises.setup.2, secure.strict,
      ForwardPolicy.isIntrinsic_none]
    simp
  rw [IsolationRun.implementation_run, if_neg notIntrinsic, IsolationRun.bodyOf_run] at arises ⊢
  cases known : run.body? method.identity forInterface with
  | some body => exact ⟨carries, .body (carries.bodies _ body (mem_of_lookup known))⟩
  | none =>
      rw [known] at arises
      cases made :
          IsolationRun.instrument enclosure.module enclosure.id method forInterface run with
      | ok body after =>
          rw [made] at arises instrumented
          refine ⟨⟨arises, instrumented.1.stubs, fun key other member => ?_⟩,
            .body instrumented.2⟩
          rcases List.mem_cons.mp member with isNew | old
          · cases isNew
            exact instrumented.2
          · exact instrumented.1.bodies key other old
      | error error after =>
          rw [made] at instrumented
          -- Only an error that blames the body lets the method run as it is.
          dsimp only
          split
          · rename_i failed
            cases failed
          · rename_i failed
            cases failed
            exact ⟨instrumented.1, .plain (instrumented.2 rfl)⟩
          · rename_i failed
            cases failed
            exact ⟨instrumented.1, trivial⟩

end Making

end Enclosure

end Cil
