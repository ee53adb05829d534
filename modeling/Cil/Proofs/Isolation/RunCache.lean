import Cil.Proofs.Isolation.Runs

/-!
# What a run remembers

A run answers requests: for the stub of a call, for the instrumented body of a method, and for
what runs for a method.  What it remembers under a key is what the key says, it stays there, and
a body is instrumented successfully at most once for a key.  A request that fails adds at most
stubs of the calls in the body.
-/

namespace Cil

open Stateful
open MonadExcept (ofExcept)

/-! ## What an identity decides -/

theorem MethodDef.isConstructor_of_identity {first second : MethodDef}
    (same : first.identity = second.identity) : first.isConstructor = second.isConstructor := by
  obtain ⟨_, _, name, _, isStatic, _, _⟩ := MethodDef.of_identity same
  simp only [isConstructor, name, isStatic]

/-- The signature of a stub is that of a stub for any method of the identity. -/
theorem StubKind.signature_of_identity {module : Module} {first second : MethodDef}
    {kind : StubKind} {signature : List TypeSig × TypeSig}
    (same : first.identity = second.identity)
    (signed : kind.signature module first = .ok signature) :
    kind.signature module second = .ok signature := by
  obtain ⟨_, owner, _, params, isStatic, _, _⟩ := MethodDef.of_identity same
  have isConstructor := MethodDef.isConstructor_of_identity same
  have returnType : first.returnType = second.returnType := congrArg (·.returnType) same
  cases kind with
  | call | functionPointer =>
      simpa only [StubKind.signature, owner, params, isStatic, returnType] using signed
  | construct =>
      simp only [StubKind.signature, owner, params, isConstructor] at signed ⊢
      split at signed
      · rename_i constructs
        rwa [if_pos constructs]
      · cases signed
  | «virtual» | constrained | virtualFunctionPointer =>
      simp only [StubKind.signature, owner, params, isStatic, returnType] at signed ⊢
      split at signed
      · cases signed
      · rename_i isInstance
        rwa [if_neg isInstance]

theorem MethodDef.instrumentedParams_congr {module : Module} {first second : MethodDef}
    (same : first.identity = second.identity) (forInterface : Bool) :
    first.instrumentedParams module forInterface =
      second.instrumentedParams module forInterface := by
  obtain ⟨_, owner, _, params, isStatic, _, _⟩ := MethodDef.of_identity same
  simp only [instrumentedParams, owner, params, isStatic]

namespace IsolationRun

open Instrumentation (Provides)

variable {module : Module} {id : Nat}

/-! ## Remembered stubs -/

theorem stub?_cons (run : IsolationRun) (kind other : StubKind) (target identity : MethodIdentity)
    (native : Native) :
    { run with stubs := ((kind, target), native) :: run.stubs }.stub? other identity =
      if other = kind ∧ identity = target then some native else run.stub? other identity := by
  simp only [stub?, List.lookup_cons]
  split <;> simp_all

theorem body?_cons (run : IsolationRun) (origin identity : MethodIdentity)
    (forInterface flavour : Bool) (body : DynamicMethod) :
    { run with bodies := ((origin, forInterface), body) :: run.bodies }.body? identity flavour =
      if identity = origin ∧ flavour = forInterface then some body
      else run.body? identity flavour := by
  simp only [body?, List.lookup_cons]
  split <;> simp_all

/-- What a new stub keeps, asking for a stub keeps. -/
theorem keeps_stubOf {runs : IsolationRun → Prop} {kind : StubKind} {target : MethodDef}
    (remembers : ∀ run native, runs run → run.stub? kind target.identity = none →
      Stub.native module ⟨id, kind, target⟩ = .ok native →
      runs { run with stubs := ((kind, target.identity), native) :: run.stubs }) :
    Keeps runs (stubOf module id kind target) := by
  intro run holds
  rw [stubOf_run]
  cases absent : run.stub? kind target.identity with
  | some native => exact holds
  | none =>
      cases made : Stub.native module ⟨id, kind, target⟩ with
      | error error => exact holds
      | ok native => exact remembers run native holds absent made

/-! ## What instrumenting adds -/

/-- A call site in the body of a method asks for a stub of a kind for a target. -/
def AsksFor (module : Module) (method : MethodDef) (kind : StubKind) (target : MethodDef) :
    Prop :=
  ∃ code, MethodCode.ofMethod module method = .ok code ∧
    ∃ instruction ∈ code.instructions.toList, ∃ token constraint?,
      instruction.token? = some token ∧ module.method token = .ok target ∧
        StubKind.ofOpcode? instruction.opcode constraint? = some kind

/-- What the stubs of the call sites of a method keep, instrumenting the method keeps. -/
theorem keeps_instrument {runs : IsolationRun → Prop} {method : MethodDef} (forInterface : Bool)
    (stubs : ∀ kind target, AsksFor module method kind target →
      Keeps runs (stubOf module id kind target)) :
    Keeps runs (instrument module id method forInterface) := by
  have provides (code : MethodCode) (read : MethodCode.ofMethod module method = .ok code)
      (instruction : Instruction) (member : instruction ∈ code.instructions.toList) :
      Provides runs (fun _ => True) module id instruction :=
    fun token target constraint? kind named known isKind =>
      .of_keeps (stubs kind target
        ⟨code, read, instruction, member, token, constraint?, named, known, isKind⟩)
        (sparesBodies_stubOf _ _ _ _)
  exact (yields_instrument forInterface provides).keeps

/-- What is remembered stays remembered. -/
structure Extends (before after : IsolationRun) : Prop where
  stub {kind : StubKind} {identity : MethodIdentity} {native : Native} :
    before.stub? kind identity = some native → after.stub? kind identity = some native
  body {identity : MethodIdentity} {forInterface : Bool} {body : DynamicMethod} :
    before.body? identity forInterface = some body →
      after.body? identity forInterface = some body

@[refl]
theorem Extends.refl (run : IsolationRun) : run.Extends run :=
  ⟨fun found => found, fun found => found⟩

theorem Extends.trans {first second third : IsolationRun} (before : first.Extends second)
    (after : second.Extends third) : first.Extends third :=
  ⟨fun found => after.stub (before.stub found), fun found => after.body (before.body found)⟩

theorem extends_stub {run : IsolationRun} {kind : StubKind} {target : MethodIdentity}
    (absent : run.stub? kind target = none) (native : Native) :
    run.Extends { run with stubs := ((kind, target), native) :: run.stubs } where
  stub {other identity remembered} found := by
    rw [stub?_cons]
    split
    · rename_i same
      rw [same.1, same.2, absent] at found
      cases found
    · exact found
  body found := found

theorem extends_body {run : IsolationRun} {origin : MethodIdentity} {forInterface : Bool}
    (absent : run.body? origin forInterface = none) (body : DynamicMethod) :
    run.Extends { run with bodies := ((origin, forInterface), body) :: run.bodies } where
  stub found := found
  body {identity flavour remembered} found := by
    rw [body?_cons]
    split
    · rename_i same
      rw [same.1, same.2, absent] at found
      cases found
    · exact found

/-- What a run has more after a method was instrumented for it: stubs of the call sites. -/
structure Grown (module : Module) (method : MethodDef) (before after : IsolationRun) :
    Prop where
  shims : after.shims = before.shims
  config : after.config = before.config
  bodies : after.bodies = before.bodies
  stubs : ∃ added, after.stubs = added ++ before.stubs ∧ ∀ entry ∈ added,
    ∃ target, AsksFor module method entry.1.1 target ∧ entry.1.2 = target.identity
  kept : before.Extends after

theorem Grown.refl (method : MethodDef) (run : IsolationRun) :
    Grown module method run run where
  shims := rfl
  config := rfl
  bodies := rfl
  stubs := ⟨[], rfl, by simp⟩
  kept := .refl run

theorem grown_instrument (module : Module) (id : Nat) (method : MethodDef) (forInterface : Bool)
    (run : IsolationRun) :
    Grown module method run (finalState (instrument module id method forInterface run)) := by
  refine keeps_instrument forInterface (fun kind target asks => keeps_stubOf ?_) run (.refl _ _)
  intro after native grown absent _
  obtain ⟨added, stubsEq, sites⟩ := grown.stubs
  have kept := grown.kept.trans (extends_stub absent native)
  refine { grown with stubs := ⟨((kind, target.identity), native) :: added, ?_, ?_⟩, kept }
  · simp [stubsEq]
  · intro entry member
    rcases List.mem_cons.mp member with rfl | member
    · exact ⟨target, asks, rfl⟩
    · exact sites entry member

/-- A method without a readable body changes nothing. -/
theorem instrument_unreadable {method : MethodDef} {forInterface : Bool} {run after : IsolationRun}
    {error : Error} (failed : instrument module id method forInterface run = .error error after)
    (blames : error.blamesBody) : after = run := by
  have provides (code : MethodCode) (_ : MethodCode.ofMethod module method = .ok code)
      (instruction : Instruction) (_ : instruction ∈ code.instructions.toList) :
      Provides (fun _ => True) (fun _ => True) module id instruction :=
    fun _ _ _ _ _ _ _ => .of_keeps (fun _ _ => trivial) (sparesBodies_stubOf _ _ _ _)
  have ends := yields_instrument forInterface provides run trivial
  rw [failed] at ends
  have unread : MethodCode.ofMethod module method = .error error :=
    ends.2 (error.isOrdinary_of_blamesBody blames)
  unfold instrument at failed
  rw [unread] at failed
  cases failed
  rfl

theorem header_of_instrument {method : MethodDef} {forInterface : Bool}
    {run after : IsolationRun} {body : DynamicMethod}
    (ran : instrument module id method forInterface run = .ok body after) :
    body.origin = method.identity ∧
      method.instrumentedParams module forInterface = .ok body.params := by
  obtain ⟨_, _, _, ran⟩ := bind_eq_ok.mp ran
  obtain ⟨params, _, paramsRan, ran⟩ := bind_eq_ok.mp ran
  obtain ⟨paramsEq, rfl⟩ := ofExcept_eq_ok.mp paramsRan
  obtain ⟨_, _, _, ran⟩ := bind_eq_ok.mp ran
  obtain ⟨_, _, _, ran⟩ := bind_eq_ok.mp ran
  generalize Instrumentation.emitCode _ _ _ = result at ran
  cases result with
  | error error draft =>
      obtain ⟨_, _, _, ran⟩ := bind_eq_ok.mp ran
      exact absurd ran throw_ne_ok
  | ok emitted draft =>
      obtain ⟨_, _, _, ran⟩ := bind_eq_ok.mp ran
      obtain ⟨assembled, _⟩ := ofExcept_eq_ok.mp ran
      obtain ⟨_, _, assembled⟩ := except_bind_eq_ok.mp assembled
      obtain ⟨_, _, assembled⟩ := except_bind_eq_ok.mp assembled
      cases assembled
      exact ⟨rfl, paramsEq⟩

/-! ## What keys say -/

/-- What a run remembers under a key is what the key says, and no body is remembered twice. -/
structure Sound (module : Module) (id : Nat) (run : IsolationRun) : Prop where
  stub {kind : StubKind} {identity : MethodIdentity} {native : Native} :
    run.stub? kind identity = some native →
      ∃ target, target.identity = identity ∧ native.body = .stub ⟨id, kind, target⟩
  signature {kind : StubKind} {target : MethodDef} {native : Native} :
    run.stub? kind target.identity = some native →
      kind.signature module target = .ok (native.params, native.returnType)
  origin {identity : MethodIdentity} {forInterface : Bool} {body : DynamicMethod} :
    run.body? identity forInterface = some body → body.origin = identity
  params {method : MethodDef} {forInterface : Bool} {body : DynamicMethod} :
    run.body? method.identity forInterface = some body →
      method.instrumentedParams module forInterface = .ok body.params
  once : (run.bodies.map (·.1)).Nodup

theorem sound_start (shims : List Shim) (config : IsolationConfig) :
    Sound module id { shims, config } where
  stub found := by cases found
  signature found := by cases found
  origin found := by cases found
  params found := by cases found
  once := List.nodup_nil

theorem keeps_sound_stubOf (kind : StubKind) (target : MethodDef) :
    Keeps (Sound module id) (stubOf module id kind target) := by
  refine keeps_stubOf fun run native sound _ made => ?_
  obtain ⟨⟨params, returnType⟩, signed, final⟩ := except_bind_eq_ok.mp made
  cases final
  refine { sound with stub := fun {other identity remembered} found => ?_,
                      signature := fun {other wanted remembered} found => ?_ }
  · rw [stub?_cons] at found
    split at found
    · rename_i same
      cases found
      exact ⟨target, same.2.symm, by rw [same.1]⟩
    · exact sound.stub found
  · rw [stub?_cons] at found
    split at found
    · rename_i same
      obtain ⟨rfl, sameIdentity⟩ := same
      cases found
      exact StubKind.signature_of_identity sameIdentity.symm signed
    · exact sound.signature found

theorem body?_eq_none_iff {run : IsolationRun} {identity : MethodIdentity}
    {forInterface : Bool} :
    run.body? identity forInterface = none ↔ (identity, forInterface) ∉ run.bodies.map (·.1) := by
  rw [body?, List.lookup_eq_none_iff]
  constructor
  · intro apart member
    obtain ⟨entry, listed, same⟩ := List.mem_map.mp member
    simpa [same] using apart entry listed
  · intro fresh entry listed
    refine bne_iff_ne.mpr fun same => fresh ?_
    exact List.mem_map.mpr ⟨entry, listed, same.symm⟩

theorem keeps_sound_bodyOf (method : MethodDef) (forInterface : Bool) :
    Keeps (Sound module id) (bodyOf module id method forInterface) := by
  intro run sound
  rw [bodyOf_run]
  cases absent : run.body? method.identity forInterface with
  | some body => exact sound
  | none =>
      have grown := grown_instrument module id method forInterface run
      have after : Sound module id
          (finalState (instrument module id method forInterface run)) :=
        keeps_instrument forInterface (fun kind target _ => keeps_sound_stubOf kind target) run
          sound
      cases ran : instrument module id method forInterface run with
      | error error final => rwa [ran] at after
      | ok body final =>
          rw [ran] at after grown
          obtain ⟨originEq, paramsEq⟩ := header_of_instrument ran
          change Sound module id
            { final with bodies := ((method.identity, forInterface), body) :: final.bodies }
          refine { after with origin := fun {identity flavour remembered} found => ?_,
                              params := fun {other flavour remembered} found => ?_, once := ?_ }
          · rw [body?_cons] at found
            split at found
            · rename_i same
              cases found
              exact originEq.trans same.1.symm
            · exact after.origin found
          · rw [body?_cons] at found
            split at found
            · rename_i same
              cases found
              rw [MethodDef.instrumentedParams_congr same.1, same.2, paramsEq]
            · exact after.params found
          · have fresh := body?_eq_none_iff.mp absent
            rw [← grown.bodies] at fresh
            exact List.nodup_cons.mpr ⟨fresh, after.once⟩

/-! ## Answers -/

theorem stubOf_known {kind : StubKind} {target : MethodDef} {run : IsolationRun}
    {native : Native} (known : run.stub? kind target.identity = some native) :
    stubOf module id kind target run = .ok native run := by
  rw [stubOf_run, known]

theorem stubOf_failed {kind : StubKind} {target : MethodDef} {run after : IsolationRun}
    {error : Error} (failed : stubOf module id kind target run = .error error after) :
    after = run := by
  rw [stubOf_run] at failed
  split at failed
  · cases failed
  · split at failed <;> cases failed
    rfl

theorem bodyOf_known {method : MethodDef} {forInterface : Bool} {run : IsolationRun}
    {body : DynamicMethod} (known : run.body? method.identity forInterface = some body) :
    bodyOf module id method forInterface run = .ok body run := by
  rw [bodyOf_run, known]

theorem bodyOf_failed {method : MethodDef} {forInterface : Bool} {run after : IsolationRun}
    {error : Error} (failed : bodyOf module id method forInterface run = .error error after) :
    Grown module method run after ∧ (error.blamesBody → after = run) := by
  rw [bodyOf_run] at failed
  split at failed
  · cases failed
  · have grown := grown_instrument module id method forInterface run
    split at failed
    · cases failed
    · rename_i ran
      cases failed
      rw [ran] at grown
      exact ⟨grown, instrument_unreadable ran⟩

theorem implementation_known {method : MethodDef} {forInterface : Bool} {run : IsolationRun}
    {body : DynamicMethod} (isolated : run.isIntrinsic module method = false)
    (known : run.body? method.identity forInterface = some body) :
    implementation module id method forInterface run = .ok (.dynamic body) run := by
  rw [implementation_run, isolated, bodyOf_known known]
  rfl

theorem implementation_failed {method : MethodDef} {forInterface : Bool}
    {run after : IsolationRun} {error : Error}
    (failed : implementation module id method forInterface run = .error error after) :
    Grown module method run after := by
  rw [implementation_run] at failed
  split at failed
  · cases failed
  · split at failed
    · cases failed
    · cases failed
    · rename_i ran
      cases failed
      exact (bodyOf_failed ran).1

/-- A method that runs as it is, because it is intrinsic or has no readable body, changes
nothing. -/
theorem implementation_plain {method plain : MethodDef} {forInterface : Bool}
    {run after : IsolationRun}
    (ran : implementation module id method forInterface run = .ok (.method plain) after) :
    after = run := by
  rw [implementation_run] at ran
  split at ran
  · cases ran
    rfl
  · split at ran
    · cases ran
    · rename_i unread
      cases ran
      exact (bodyOf_failed unread).2 rfl
    · cases ran

/-! ## Histories -/

/-- What a run is asked for. -/
inductive Demand
  | stub (kind : StubKind) (target : MethodDef)
  | body (method : MethodDef) (forInterface : Bool)
  | implementation (method : MethodDef) (forInterface : Bool)

/-- The key for which asking for a body has it instrumented successfully, if it does. -/
def instrumented (module : Module) (id : Nat) (run : IsolationRun) (method : MethodDef)
    (forInterface : Bool) : List (MethodIdentity × Bool) :=
  match run.body? method.identity forInterface, instrument module id method forInterface run with
  | none, .ok _ _ => [(method.identity, forInterface)]
  | _, _ => []

namespace Demand

/-- The run after a demand, whether or not it could be met. -/
def after (module : Module) (id : Nat) (run : IsolationRun) : Demand → IsolationRun
  | .stub kind target => finalState (stubOf module id kind target run)
  | .body method forInterface => finalState (bodyOf module id method forInterface run)
  | .implementation method forInterface =>
    finalState (IsolationRun.implementation module id method forInterface run)

/-- The keys that a demand has bodies instrumented for. -/
def instruments (module : Module) (id : Nat) (run : IsolationRun) :
    Demand → List (MethodIdentity × Bool)
  | .stub _ _ => []
  | .body method forInterface => instrumented module id run method forInterface
  | .implementation method forInterface =>
    if run.isIntrinsic module method then [] else instrumented module id run method forInterface

end Demand

/-- The runs that demands make of a run, with the keys that bodies were instrumented for, the
latest first. -/
inductive History (module : Module) (id : Nat) (start : IsolationRun) :
    List (MethodIdentity × Bool) → IsolationRun → Prop
  | start : History module id start [] start
  | demand {keys : List (MethodIdentity × Bool)} {run : IsolationRun} (demand : Demand) :
      History module id start keys run →
      History module id start (demand.instruments module id run ++ keys)
        (demand.after module id run)

theorem History.trans {start middle final : IsolationRun} {keys others : List _}
    (before : History module id start keys middle)
    (after : History module id middle others final) :
    History module id start (others ++ keys) final := by
  induction after with
  | start => exact before
  | demand demand _ ih => rw [List.append_assoc]; exact .demand demand ih

/-- A demand is met as one for a body, if it is for an instrumented method. -/
theorem finalState_implementation (method : MethodDef) (forInterface : Bool)
    (run : IsolationRun) :
    finalState (implementation module id method forInterface run) =
      if run.isIntrinsic module method then run
      else finalState (bodyOf module id method forInterface run) := by
  rw [implementation_run]
  split
  · rfl
  · split <;> rename_i ran <;> rw [ran] <;> rfl

theorem bodies_of_bodyOf (method : MethodDef) (forInterface : Bool) (run : IsolationRun) :
    (finalState (bodyOf module id method forInterface run)).bodies.map (·.1) =
      instrumented module id run method forInterface ++ run.bodies.map (·.1) := by
  have grown := grown_instrument module id method forInterface run
  rw [bodyOf_run, instrumented]
  cases run.body? method.identity forInterface with
  | some body => rfl
  | none =>
      cases ran : instrument module id method forInterface run with
      | ok body after => rw [ran] at grown; exact congrArg (_ :: ·.map (·.1)) grown.bodies
      | error error after => rw [ran] at grown; exact congrArg (·.map (·.1)) grown.bodies

theorem bodies_of_demand (demand : Demand) (run : IsolationRun) :
    (demand.after module id run).bodies.map (·.1) =
      demand.instruments module id run ++ run.bodies.map (·.1) := by
  cases demand with
  | stub kind target =>
      have keeps : Keeps (·.bodies.map (·.1) = run.bodies.map (·.1))
          (stubOf module id kind target) :=
        keeps_stubOf fun _ _ holds _ _ => holds
      exact keeps run rfl
  | body method forInterface => exact bodies_of_bodyOf method forInterface run
  | implementation method forInterface =>
      simp only [Demand.after, Demand.instruments, finalState_implementation]
      split
      · rfl
      · exact bodies_of_bodyOf method forInterface run

theorem extends_bodyOf (method : MethodDef) (forInterface : Bool) (run : IsolationRun) :
    run.Extends (finalState (bodyOf module id method forInterface run)) := by
  have grown := grown_instrument module id method forInterface run
  rw [bodyOf_run]
  cases absent : run.body? method.identity forInterface with
  | some body => exact .refl run
  | none =>
      cases ran : instrument module id method forInterface run with
      | error error after => rw [ran] at grown; exact grown.kept
      | ok body after =>
          rw [ran] at grown
          have stillAbsent : after.body? method.identity forInterface = none :=
            body?_eq_none_iff.mpr (grown.bodies ▸ body?_eq_none_iff.mp absent)
          exact grown.kept.trans (extends_body stillAbsent body)

theorem extends_demand (demand : Demand) (run : IsolationRun) :
    run.Extends (demand.after module id run) := by
  cases demand with
  | stub kind target =>
      exact keeps_stubOf (fun after native holds absent _ =>
        holds.trans (extends_stub absent native)) run (.refl run)
  | body method forInterface => exact extends_bodyOf method forInterface run
  | implementation method forInterface =>
      simp only [Demand.after, finalState_implementation]
      split
      · exact .refl run
      · exact extends_bodyOf method forInterface run

theorem sound_demand (demand : Demand) {run : IsolationRun} (sound : Sound module id run) :
    Sound module id (demand.after module id run) := by
  cases demand with
  | stub kind target => exact keeps_sound_stubOf kind target run sound
  | body method forInterface => exact keeps_sound_bodyOf method forInterface run sound
  | implementation method forInterface =>
      simp only [Demand.after, finalState_implementation]
      split
      · exact sound
      · exact keeps_sound_bodyOf method forInterface run sound

namespace History

variable {start run : IsolationRun} {keys : List (MethodIdentity × Bool)}

theorem bodies (history : History module id start keys run) :
    run.bodies.map (·.1) = keys ++ start.bodies.map (·.1) := by
  induction history with
  | start => rfl
  | demand demand _ ih => rw [bodies_of_demand, ih, List.append_assoc]

theorem extends_start (history : History module id start keys run) : start.Extends run := by
  induction history with
  | start => exact .refl start
  | demand demand _ ih => exact ih.trans (extends_demand demand _)

theorem sound (history : History module id start keys run) (sound : Sound module id start) :
    Sound module id run := by
  induction history with
  | start => exact sound
  | demand demand _ ih => exact sound_demand demand ih

end History

end IsolationRun

end Cil
