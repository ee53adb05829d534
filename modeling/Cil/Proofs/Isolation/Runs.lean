import Cil.Proofs.Code.Failures
import Cil.Proofs.Isolation.Stubs

/-!
# The runs that arise

A run starts without stubs and bodies and changes when a stub is asked for and when a method
is instrumented, also where that fails.  What the stubs of its calls keep, instrumenting a
method keeps.  So whatever is asked for, the stubs that a run remembers fit their calls.

Instrumenting says that a method has no readable body only if that is so.
-/

namespace Cil

open Stateful
open MonadExcept (ofExcept)

/-! ## Failures of asking for stubs -/

theorem Module.sparesBody_typeDef (module : Module) (type : Token) :
    SparesBody (module.typeDef type) := by
  unfold typeDef
  split
  · exact .ok _
  · exact .error rfl

theorem Module.sparesBody_method (module : Module) (token : Token) :
    SparesBody (module.method token) := by
  have definition (token : Token) : SparesBody (module.methodDef token) := by
    unfold methodDef
    split
    · exact .ok _
    · exact .error rfl
  unfold method
  split
  · split
    · exact .bind (definition _) fun _ => .ite (.error rfl) (.ite (.error rfl) (.ok _))
    · exact .error rfl
  · exact definition _

theorem Module.sparesBody_typeSig (module : Module) (type : Token) :
    SparesBody (module.typeSig type) := by
  unfold typeSig
  split
  · exact .ok _
  · exact .bind (module.sparesBody_typeDef _) fun _ => .ok _

theorem Module.sparesBody_receiverSig (module : Module) (owner : Token) :
    SparesBody (module.receiverSig owner) :=
  .bind (module.sparesBody_typeSig _) fun _ => .ok _

theorem Module.sparesBody_standAloneSignature (module : Module) (token : Token) :
    SparesBody (module.standAloneSignature token) := by
  unfold standAloneSignature
  split
  · exact .ok _
  · exact .error rfl

theorem Stub.sparesBody_native (module : Module) (stub : Stub) :
    SparesBody (stub.native module) := by
  refine .bind ?_ fun signature => .ok _
  unfold StubKind.signature
  cases stub.kind with
  | call => exact .ite (.ok _) (.bind (module.sparesBody_receiverSig _) fun _ => .ok _)
  | «virtual» =>
      exact .ite (.error rfl) <| .bind (.bind (module.sparesBody_typeDef _) fun _ =>
        .ite (.ok _) (module.sparesBody_receiverSig _)) fun _ => .ok _
  | constrained constraint =>
      exact .ite (.error rfl) (.bind (module.sparesBody_typeSig _) fun _ => .ok _)
  | construct => exact .ite (.bind (module.sparesBody_typeSig _) fun _ => .ok _) (.error rfl)
  | functionPointer => exact .ok _
  | virtualFunctionPointer => exact .ite (.error rfl) (.ok _)

theorem IsolationRun.sparesBodies_stubOf (module : Module) (id : Nat) (kind : StubKind)
    (target : MethodDef) : SparesBodies (stubOf module id kind target) := by
  refine .bind .get fun run => ?_
  split
  · exact .pure _
  · exact .bind (.ofExcept (Stub.sparesBody_native _ _)) fun _ =>
      .bind (.modifyGet _) fun _ => .pure _

section Assembling

variable {name : String} {origin : MethodIdentity} {params : List TypeSig} {returnType : TypeSig}
  {locals : List LocalVariable} {scope : Scope} {code : List UInt8} {maxStack : Nat}
  {clauses : List Clause}

theorem DynamicMethod.sparesBody_ofCode : SparesBody
    (ofCode name origin params returnType locals scope code maxStack clauses) :=
  .bind (sparesBody_encode _ _ _ _ _) fun _ =>
    .bind (sparesBody_ofBytes _ _ _ _ _) fun _ => .ok _

theorem DynamicMethod.scope_of_ofCode {body : DynamicMethod}
    (assembled : ofCode name origin params returnType locals scope code maxStack clauses =
      .ok body) : body.scope = scope := by
  obtain ⟨_, _, assembled⟩ := except_bind_eq_ok.mp assembled
  obtain ⟨_, _, assembled⟩ := except_bind_eq_ok.mp assembled
  cases assembled
  rfl

end Assembling

namespace Instrumentation

/-! ## Steps of instrumenting -/

/-- What holds of the run and of the stubs that dynamic tokens stand for. -/
def Draft.Meets (runs : IsolationRun → Prop) (stubs : Native → Prop) (draft : Draft) : Prop :=
  runs draft.run ∧ ∀ entry ∈ draft.scope.entries, ∃ stub, entry = .native stub ∧ stubs stub

variable {runs : IsolationRun → Prop} {stubs : Native → Prop} {subject : Subject}

/-- A step of instrumenting keeps what holds of the run and of the stubs, and neither blames
the body of the method nor throws. -/
def Upholds {α : Type} (runs : IsolationRun → Prop) (stubs : Native → Prop) (subject : Subject)
    (action : InstrumentM α) : Prop :=
  Yields (Draft.Meets runs stubs) (fun _ => True) (fun error => error.isOrdinary)
    (action subject)

/-- The stubs that a call site asks for. -/
def Provides (runs : IsolationRun → Prop) (stubs : Native → Prop) (module : Module) (id : Nat)
    (instruction : Instruction) : Prop :=
  ∀ token method constraint? kind, instruction.token? = some token →
    module.method token = .ok method →
    StubKind.ofOpcode? instruction.opcode constraint? = some kind →
    Yields runs stubs (fun error => error.isOrdinary)
      (IsolationRun.stubOf module id kind method)

namespace Upholds

variable {α β : Type}

/-- What follows may use what is known of the value. -/
theorem bind_of {value : α → Prop} {first : InstrumentM α} {next : α → InstrumentM β}
    (firstYields : Yields (Draft.Meets runs stubs) value (fun error => error.isOrdinary)
      (first subject))
    (nextUpholds : ∀ result, value result → Upholds runs stubs subject (next result)) :
    Upholds runs stubs subject (first >>= next) :=
  Yields.bind firstYields nextUpholds

theorem bind {first : InstrumentM α} {next : α → InstrumentM β}
    (firstUpholds : Upholds runs stubs subject first)
    (nextUpholds : ∀ value, Upholds runs stubs subject (next value)) :
    Upholds runs stubs subject (first >>= next) :=
  bind_of firstUpholds fun value _ => nextUpholds value

theorem pure (value : α) : Upholds runs stubs subject (Pure.pure value) :=
  Yields.pure trivial

theorem throw {error : Error} (spares : error.isOrdinary) :
    Upholds runs stubs subject (throw error : InstrumentM α) :=
  Yields.throw spares

theorem refuse (instruction : Instruction) (obstacle : Obstacle) :
    Upholds runs stubs subject (refuse instruction obstacle : InstrumentM α) :=
  throw rfl

theorem ofExcept {outcome : Except Error α} (spares : SparesBody outcome) :
    Upholds runs stubs subject (ofExcept outcome : InstrumentM α) := by
  cases outcome with
  | ok value => exact pure value
  | error error => exact throw (spares error rfl)

theorem read_bind {next : Subject → InstrumentM β}
    (upholds : Upholds runs stubs subject (next subject)) :
    Upholds runs stubs subject (MonadReader.read >>= next) :=
  fun draft meets => upholds draft meets

theorem get : Upholds runs stubs subject (MonadState.get : InstrumentM Draft) :=
  fun _ meets => ⟨meets, trivial⟩

theorem modifyGet {change : Draft → α × Draft}
    (kept : ∀ draft, (change draft).2.run = draft.run ∧ (change draft).2.scope = draft.scope) :
    Upholds runs stubs subject (MonadStateOf.modifyGet change : InstrumentM α) := by
  intro draft meets
  change Draft.Meets runs stubs (change draft).2 ∧ True
  rw [Draft.Meets, (kept draft).1, (kept draft).2]
  exact ⟨meets, trivial⟩

theorem emitting {action : EncoderM α} (spares : SparesBodies action) :
    Upholds runs stubs subject (emitting action) := by
  intro draft meets
  unfold Instrumentation.emitting
  cases ran : action draft.encoder with
  | ok value encoder => exact ⟨meets, trivial⟩
  | error error encoder => exact ⟨meets, spares _ _ _ ran⟩

/-- Nothing follows a refusal. -/
theorem refuse_bind (instruction : Instruction) (obstacle : Obstacle)
    (next : α → InstrumentM β) :
    Upholds runs stubs subject (Instrumentation.refuse instruction obstacle >>= next) :=
  fun _ meets => ⟨meets, rfl⟩

theorem forM {items : List β} {step : β → InstrumentM PUnit}
    (upholds : ∀ item ∈ items, Upholds runs stubs subject (step item)) :
    Upholds runs stubs subject (items.forM step) := by
  induction items with
  | nil => exact pure _
  | cons item items ih =>
      have rest : Upholds runs stubs subject (items.forM step) :=
        ih fun other member => upholds other (by simp [member])
      exact (upholds item (by simp)).bind fun _ => rest

end Upholds

theorem upholds_tokenOf (instruction : Instruction) :
    Upholds runs stubs subject (tokenOf instruction) := by
  unfold tokenOf
  split
  · exact .pure _
  · exact .refuse _ _

theorem upholds_popCount (instruction : Instruction) (count : Nat) :
    Upholds runs stubs subject (popCount instruction count) := by
  unfold popCount
  split
  · exact .pure _
  · exact .refuse _ _

theorem upholds_takeConstraint : Upholds runs stubs subject takeConstraint :=
  .modifyGet fun _ => ⟨rfl, rfl⟩

theorem upholds_stubToken (kind : StubKind) (token : Token) {stub : Native}
    (holds : stubs stub) : Upholds runs stubs subject (stubToken kind token stub) := by
  refine .bind .get fun draft => ?_
  split
  · exact .pure _
  · intro draft meets
    refine ⟨⟨meets.1, fun entry member => ?_⟩, trivial⟩
    rcases Array.mem_push.mp member with listed | rfl
    · exact meets.2 entry listed
    · exact ⟨stub, rfl, holds⟩

theorem upholds_emitArgument (access : ArgumentAccess) (index : Nat) :
    Upholds runs stubs subject (emitArgument access index) := by
  have inside : SparesBody (subject.layout.map index) := .ite (.ok _) (.error rfl)
  refine .read_bind <| .bind (.ofExcept inside) fun index => ?_
  cases access with
  | load =>
      refine .bind (.emitting (Encoder.sparesBodies_emitLoadArgument _)) fun _ => ?_
      split
      · exact .emitting (Encoder.sparesBodies_emit _ _)
      · exact .pure _
  | address => exact .emitting (Encoder.sparesBodies_emitIndexed _ _ _)
  | store => exact .emitting (Encoder.sparesBodies_emitIndexed _ _ _)

theorem upholds_emitCallSite {instruction : Instruction}
    (provides : Provides runs stubs subject.module subject.run instruction) :
    Upholds runs stubs subject (emitCallSite instruction) := by
  have names : Yields (Draft.Meets runs stubs) (instruction.token? = some ·)
      (fun error => error.isOrdinary) (tokenOf instruction subject) := by
    unfold tokenOf
    cases named : instruction.token? with
    | some token => exact Yields.pure rfl
    | none => exact Yields.throw rfl
  have resolves (token : Token) : Yields (Draft.Meets runs stubs)
      (subject.module.method token = .ok ·) (fun error => error.isOrdinary)
      ((ofExcept (subject.module.method token) : InstrumentM MethodDef) subject) := by
    cases found : subject.module.method token with
    | ok method => exact Yields.pure rfl
    | error error => exact Yields.throw (subject.module.sparesBody_method token error found)
  refine .read_bind <| .bind_of names fun token named =>
    .bind upholds_takeConstraint fun constraint? => ?_
  dsimp only
  split
  · exact .refuse_bind _ _ _
  refine .bind_of (resolves token) fun method known => .bind .get fun draft => ?_
  split
  · have call (pops : Nat) (hasResult : Bool) : Upholds runs stubs subject (do
        let pops ← popCount instruction pops
        emitting (Encoder.emitCall instruction.opcode (some (.token token)) pops hasResult)) :=
      .bind (upholds_popCount _ _) fun _ => .emitting (Encoder.sparesBodies_emitCall _ _ _ _)
    cases constraint? with
    | none => exact call _ _
    | some constraint =>
        exact .bind (.emitting (Encoder.sparesBodies_emit _ _)) fun _ => call _ _
  · cases isKind : StubKind.ofOpcode? instruction.opcode constraint? with
    | none => exact .refuse _ _
    | some kind =>
        have asked : Yields (Draft.Meets runs stubs) stubs (fun error => error.isOrdinary)
            (onRun (IsolationRun.stubOf subject.module subject.run kind method) subject) := by
          intro draft meets
          have after := provides token method constraint? kind named known isKind draft.run meets.1
          unfold onRun
          cases ran : IsolationRun.stubOf subject.module subject.run kind method draft.run <;>
            rw [ran] at after <;> exact ⟨⟨after.1, meets.2⟩, after.2⟩
        exact .bind_of asked fun stub holds => .bind (upholds_stubToken _ _ holds) fun dynamic =>
          .bind (upholds_popCount _ _) fun pops =>
          .emitting (Encoder.sparesBodies_emitCall _ _ _ _)

theorem upholds_emitIndirectCall (instruction : Instruction) :
    Upholds runs stubs subject (emitIndirectCall instruction) := by
  refine .bind (upholds_tokenOf _) fun token => .read_bind <|
    .bind (.ofExcept (subject.module.sparesBody_standAloneSignature _)) fun signature => ?_
  cases signature with
  | locals slots => exact .refuse _ _
  | method site =>
      exact .bind (upholds_popCount _ _) fun _ =>
        .emitting (Encoder.sparesBodies_emitCall _ _ _ _)

theorem upholds_emitLongBranch (instruction : Instruction) : Upholds runs stubs subject
    (match instruction.opcode.longForm?, instruction.targets.head? with
    | none, _ => refuse instruction (.noLongForm instruction.mnemonic)
    | _, none => refuse instruction (.noTarget instruction.mnemonic)
    | some opcode, some target => emitting (Encoder.emitBranch opcode (labelAt target))) := by
  split
  · exact .refuse _ _
  · exact .refuse _ _
  · exact .emitting (Encoder.sparesBodies_emitBranch _ _)

theorem upholds_emitPlain (instruction : Instruction) :
    Upholds runs stubs subject (emitPlain instruction) := by
  refine .bind upholds_takeConstraint fun constraint? => ?_
  cases constraint? with
  | some constraint => exact .refuse_bind _ _ _
  | none =>
      have branch : Upholds runs stubs subject _ := upholds_emitLongBranch instruction
      dsimp only
      cases instruction.opcode.flow with
      | switch => exact .emitting (Encoder.sparesBodies_emitSwitch _)
      | conditionalBranch => exact branch
      | unconditionalBranch => exact branch
      | leave => exact branch
      | _ => exact .emitting (Encoder.sparesBodies_emit _ _)

theorem upholds_emitInstruction {instruction : Instruction}
    (provides : Provides runs stubs subject.module subject.run instruction) :
    Upholds runs stubs subject (emitInstruction instruction) := by
  unfold emitInstruction
  split
  · exact upholds_emitArgument _ _
  · split
    · exact .bind (upholds_tokenOf _) fun _ => .modifyGet fun _ => ⟨rfl, rfl⟩
    · exact .pure _
    · exact upholds_emitCallSite provides
    · exact upholds_emitCallSite provides
    · exact upholds_emitCallSite provides
    · exact upholds_emitCallSite provides
    · exact upholds_emitCallSite provides
    · exact upholds_emitIndirectCall _
    · exact .refuse _ _
    · exact .refuse _ _
    · exact .refuse _ _
    · exact .refuse _ _
    · exact .refuse _ _
    · exact upholds_emitPlain _

theorem upholds_emitCode {code : MethodCode}
    (provides : ∀ instruction ∈ code.instructions.toList,
      Provides runs stubs subject.module subject.run instruction) :
    Upholds runs stubs subject (emitCode code) := by
  refine .bind (.emitting (.modifyGet _)) fun _ => .bind (.forM fun instruction member => ?_)
    fun _ => .bind (.emitting (Encoder.sparesBodies_apply _ _)) fun _ =>
    .emitting Encoder.sparesBodies_finish
  refine .bind (.emitting (Encoder.sparesBodies_apply _ _)) fun _ => ?_
  split
  · exact .bind (.emitting (Encoder.sparesBodies_defineLabel _)) fun _ =>
      upholds_emitInstruction (provides instruction member)
  · exact upholds_emitInstruction (provides instruction member)

end Instrumentation

namespace IsolationRun

open Instrumentation (Provides)

/-- What the stubs of its call sites keep, instrumenting a method keeps.  It says that the
method has no readable body only if decoding the method says so, and it throws no exception. -/
theorem yields_instrument {runs : IsolationRun → Prop} {stubs : Native → Prop} {module : Module}
    {id : Nat} {method : MethodDef} (forInterface : Bool)
    (provides : ∀ code, MethodCode.ofMethod module method = .ok code →
      ∀ instruction ∈ code.instructions.toList, Provides runs stubs module id instruction) :
    Yields runs
      (fun body => ∀ entry ∈ body.scope.entries, ∃ stub, entry = .native stub ∧ stubs stub)
      (fun error => error.isOrdinary = false → MethodCode.ofMethod module method = .error error)
      (instrument module id method forInterface) := by
  -- Only decoding can blame the body; the other steps fail for other reasons.
  have spared {α : Type} {outcome : Except Error α} (spares : SparesBody outcome) :
      ErrsOnly
        (fun error => error.isOrdinary = false → MethodCode.ofMethod module method = .error error)
        outcome := by
    intro error failed blames
    rw [spares error failed] at blames
    cases blames
  have params : SparesBody (method.instrumentedParams module forInterface) := by
    unfold MethodDef.instrumentedParams
    dsimp only
    refine .ite (.ok _) ?_
    split
    · exact .bind (.ok _) fun _ => .ok _
    · exact .bind (module.sparesBody_receiverSig _) fun _ => .ok _
  have layout : SparesBody (ArgumentLayout.ofMethod method) := .ite (.ok _) (.error rfl)
  have decodes : Yields runs (MethodCode.ofMethod module method = .ok ·)
      (fun error => error.isOrdinary = false → MethodCode.ofMethod module method = .error error)
      (ofExcept (MethodCode.ofMethod module method) : EStateM Error IsolationRun MethodCode) :=
    .ofExcept fun error failed _ => failed
  refine decodes.bind fun code read => .bind (.ofExcept (spared params)) fun params _ =>
    .bind (.ofExcept (spared layout)) fun layout _ => ?_
  have emitted : Instrumentation.Upholds runs stubs
      { module, run := id, method, layout
        unboxesReceiver := forInterface && !method.isStatic &&
          module.isValueType method.declaringType }
      (Instrumentation.emitCode code) :=
    Instrumentation.upholds_emitCode (provides code read)
  refine .get_bind fun run holds => ?_
  have final := emitted { encoder := {}, scope := {}, tokens := [], constraint? := none, run }
    ⟨holds, by simp⟩
  generalize Instrumentation.emitCode code _ _ = result at final ⊢
  cases result with
  | error error draft => exact ⟨final.1.1, fun blames => by rw [final.2] at blames; cases blames⟩
  | ok emitted draft =>
      refine (Yields.ofExcept (spared (DynamicMethod.sparesBody_ofCode))).weaken
        (fun body assembled => ?_) draft.run final.1.1
      rw [DynamicMethod.scope_of_ofCode assembled]
      exact final.1.2

theorem bodyOf_run (module : Module) (id : Nat) (method : MethodDef) (forInterface : Bool)
    (run : IsolationRun) :
    bodyOf module id method forInterface run =
      match run.body? method.identity forInterface with
      | some body => .ok body run
      | none =>
        match instrument module id method forInterface run with
        | .ok body after =>
          .ok body
            { after with bodies := ((method.identity, forInterface), body) :: after.bodies }
        | .error error after => .error error after := by
  unfold bodyOf
  rw [get_bind_run]
  cases run.body? method.identity forInterface with
  | some body => rfl
  | none =>
      change (EStateM.bind (instrument module id method forInterface) _) run = _
      unfold EStateM.bind
      cases instrument module id method forInterface run <;> rfl

/-- What runs for a method: an intrinsic method and a method without a readable body run as
they are. -/
theorem implementation_run (module : Module) (id : Nat) (method : MethodDef)
    (forInterface : Bool) (run : IsolationRun) :
    implementation module id method forInterface run =
      if run.isIntrinsic module method then .ok (.method method) run
      else match bodyOf module id method forInterface run with
        | .ok body final => .ok (.dynamic body) final
        | .error (.unreadableMethodBody _) final => .ok (.method method) final
        | .error error final => .error error final := by
  unfold implementation
  rw [get_bind_run]
  split
  · rfl
  · generalize bodyOf module id method forInterface = body
    simp only [tryCatch, tryCatchThe, MonadExceptOf.tryCatch, bind, EStateM.bind]
    delta EStateM.tryCatch EStateM.bind
    dsimp only
    cases body run with
    | ok body final => rfl
    | error error final => cases error <;> rfl

/-- What making stubs and remembering bodies keeps, asking for what runs for a method keeps. -/
theorem keeps_implementation {runs : IsolationRun → Prop} {module : Module} {id : Nat}
    (stubs : ∀ kind target, Keeps runs (stubOf module id kind target))
    (remembers : ∀ run bodies, runs run → runs { run with bodies }) (method : MethodDef)
    (forInterface : Bool) : Keeps runs (implementation module id method forInterface) := by
  have provides (instruction : Instruction) :
      Provides runs (fun _ => True) module id instruction :=
    fun _ _ _ _ _ _ _ => .of_keeps (stubs _ _) (sparesBodies_stubOf _ _ _ _)
  have instruments : Keeps runs (instrument module id method forInterface) :=
    (yields_instrument forInterface fun _ _ instruction _ => provides instruction).keeps
  have body : Keeps runs (bodyOf module id method forInterface) := by
    intro run holds
    have after := instruments run holds
    rw [bodyOf_run]
    split
    · exact holds
    · split <;> rename_i ran <;> rw [ran] at after
      · exact remembers _ _ after
      · exact after
  intro run holds
  have after := body run holds
  rw [implementation_run]
  split
  · exact holds
  · split <;> rename_i ran <;> rw [ran] at after <;> exact after

/-- The runs that arise from a start by asking for stubs and for what runs for methods. -/
inductive Reachable : IsolationRun → Prop
  | start (shims : List Shim) (config : IsolationConfig) : Reachable { shims, config }
  | stubOf {run : IsolationRun} (module : Module) (id : Nat) (kind : StubKind)
      (target : MethodDef) : Reachable run →
      Reachable (finalState (stubOf module id kind target run))
  | implementation {run : IsolationRun} (module : Module) (id : Nat) (method : MethodDef)
      (forInterface : Bool) : Reachable run →
      Reachable (finalState (implementation module id method forInterface run))

theorem Reachable.stubsMade {run : IsolationRun} (reachable : run.Reachable) :
    run.StubsMade := by
  induction reachable with
  | start shims config => exact stubsMade_start shims config
  | stubOf module id kind target _ ih => exact keeps_stubsMade_stubOf module id kind target _ ih
  | implementation module id method forInterface _ ih =>
      exact keeps_implementation (keeps_stubsMade_stubOf module id) (fun _ _ stubs => stubs)
        method forInterface _ ih

end IsolationRun

end Cil
