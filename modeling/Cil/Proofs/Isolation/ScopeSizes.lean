import Cil.Proofs.Isolation.Emission

/-!
# The sizes of scopes

Instrumenting an instruction makes at most one dynamic token.  So the scope of a body is no larger
than the code that the body was made from.
-/

namespace Cil

open Stateful
open MonadExcept (ofExcept)

namespace Instrumentation

/-- A step that makes at most a number of dynamic tokens. -/
def Adds {α : Type} (count : Nat) (action : InstrumentM α) : Prop :=
  ∀ subject before result after, action subject before = .ok result after →
    after.scope.size ≤ before.scope.size + count

namespace Adds

variable {α β : Type} {count : Nat}

theorem bind {more : Nat} {first : InstrumentM α} {next : α → InstrumentM β}
    (firsts : Adds count first) (nexts : ∀ value, Adds more (next value)) :
    Adds (count + more) (first >>= next) := by
  intro subject before result after ran
  obtain ⟨value, middle, firstRan, ran⟩ := bind_ok ran
  have := firsts subject before value middle firstRan
  have := nexts value subject middle result after ran
  omega

/-- What comes before or after steps that make no dynamic tokens. -/
theorem seq {first : InstrumentM α} {next : α → InstrumentM β} (firsts : Adds 0 first)
    (nexts : ∀ value, Adds count (next value)) : Adds count (first >>= next) := by
  have both := firsts.bind nexts
  rwa [Nat.zero_add] at both

theorem weaken {less : Nat} {action : InstrumentM α} (adds : Adds less action)
    (le : less ≤ count) : Adds count action := by
  intro subject before result after ran
  have := adds subject before result after ran
  omega

theorem pure (value : α) : Adds count (pure value) := by
  intro subject before result after ran
  cases ran
  exact Nat.le_add_right _ _

theorem read : Adds count (read : InstrumentM Subject) := by
  intro subject before result after ran
  cases ran
  exact Nat.le_add_right _ _

theorem get : Adds count (get : InstrumentM Draft) := by
  intro subject before result after ran
  cases ran
  exact Nat.le_add_right _ _

theorem refuse (instruction : Instruction) (obstacle : Obstacle) :
    Adds count (refuse instruction obstacle : InstrumentM α) :=
  fun _ _ _ _ ran => absurd ran refuse_ne_ok

theorem refuse_bind (instruction : Instruction) (obstacle : Obstacle)
    (next : α → InstrumentM β) :
    Adds count (Instrumentation.refuse instruction obstacle >>= next) := by
  intro subject before result after ran
  obtain ⟨_, _, failed, _⟩ := bind_ok ran
  exact absurd failed refuse_ne_ok

theorem ofExcept (outcome : Except Error α) : Adds count (ofExcept outcome : InstrumentM α) := by
  cases outcome with
  | ok value => exact pure value
  | error error => exact fun _ _ _ _ ran => absurd ran throw_ne_ok

theorem emitting (action : EncoderM α) : Adds count (emitting action) := by
  intro subject before result after ran
  rw [(emitting_ok ran).2]
  exact Nat.le_add_right _ _

theorem onRun (action : EStateM Error IsolationRun α) : Adds count (onRun action) := by
  intro subject before result after ran
  rw [(onRun_ok ran).2]
  exact Nat.le_add_right _ _

theorem tokenOf (instruction : Instruction) : Adds count (tokenOf instruction) := by
  unfold Instrumentation.tokenOf
  split
  · exact pure _
  · exact refuse _ _

theorem popCount (instruction : Instruction) (pops : Nat) :
    Adds count (popCount instruction pops) := by
  unfold Instrumentation.popCount
  split
  · exact pure _
  · exact refuse _ _

theorem takeConstraint : Adds count takeConstraint := by
  intro subject before result after ran
  rw [← (takeConstraint_ok ran).2]
  exact Nat.le_add_right _ _

theorem stubToken (kind : StubKind) (token : Token) (stub : Native) :
    Adds 1 (stubToken kind token stub) := by
  refine seq get fun draft => ?_
  split
  · exact pure _
  · intro subject before result after ran
    obtain ⟨_, rfl⟩ := modifyGet_eq_ok.mp ran
    simp [Scope.add, Scope.size]

end Adds

theorem adds_emitArgument (access : ArgumentAccess) (index : Nat) :
    Adds 0 (emitArgument access index) := by
  refine .seq .read fun subject => .seq (.ofExcept _) fun index => ?_
  cases access with
  | load =>
      refine .seq (.emitting _) fun _ => ?_
      split
      · exact .emitting _
      · exact .pure _
  | address => exact .emitting _
  | store => exact .emitting _

theorem adds_emitCall (instruction : Instruction) (opcode : Opcode) (token : Token) (pops : Nat)
    (hasResult : Bool) : Adds 0 (do
      let pops ← popCount instruction pops
      emitting (Encoder.emitCall opcode (some (.token token)) pops hasResult)) :=
  .seq (.popCount _ _) fun _ => .emitting _

theorem adds_emitCallSite (instruction : Instruction) : Adds 1 (emitCallSite instruction) := by
  refine .seq .read fun subject => .seq (.tokenOf _) fun token =>
    .seq .takeConstraint fun constraint? => ?_
  dsimp only
  split
  · exact .refuse_bind _ _ _
  refine .seq (.ofExcept _) fun method => .seq .get fun draft => ?_
  split
  · refine Adds.weaken ?_ (Nat.zero_le 1)
    split
    · exact .seq (.emitting _) fun _ => adds_emitCall _ _ _ _ _
    · exact adds_emitCall _ _ _ _ _
  · split
    · exact .refuse _ _
    · exact .seq (.onRun _) fun stub => .bind (.stubToken _ _ _) fun dynamic =>
        adds_emitCall _ _ _ _ _

theorem adds_emitIndirectCall (instruction : Instruction) :
    Adds 0 (emitIndirectCall instruction) := by
  refine .seq (.tokenOf _) fun token => .seq .read fun subject => .seq (.ofExcept _) fun found => ?_
  cases found with
  | locals slots => exact .refuse _ _
  | method site => exact adds_emitCall _ _ _ _ _

theorem adds_emitPlain (instruction : Instruction) : Adds 0 (emitPlain instruction) := by
  refine .seq .takeConstraint fun constraint? => ?_
  cases constraint? with
  | some constraint => exact .refuse_bind _ _ _
  | none =>
      dsimp only
      split
      · exact .emitting _
      · split
        · exact .refuse _ _
        · exact .refuse _ _
        · exact .emitting _
      · split
        · exact .refuse _ _
        · exact .refuse _ _
        · exact .emitting _
      · split
        · exact .refuse _ _
        · exact .refuse _ _
        · exact .emitting _
      · exact .emitting _

/-- An instruction makes at most one dynamic token. -/
theorem adds_emitInstruction (instruction : Instruction) :
    Adds 1 (emitInstruction instruction) := by
  have plain : Adds 1 (emitPlain instruction) :=
    (adds_emitPlain instruction).weaken (Nat.zero_le 1)
  have callSite := adds_emitCallSite instruction
  unfold emitInstruction
  split
  · exact (adds_emitArgument _ _).weaken (Nat.zero_le 1)
  · split
    · refine .seq (.tokenOf _) fun constraint => ?_
      intro subject before result after ran
      rw [← modify_eq_ok.mp ran]
      exact Nat.le_succ _
    all_goals
      first
        | exact .pure _
        | exact callSite
        | exact (adds_emitIndirectCall _).weaken (Nat.zero_le 1)
        | exact .refuse _ _
        | exact plain

theorem adds_forM {step : Instruction → InstrumentM Unit}
    (steps : ∀ instruction, Adds 1 (step instruction)) (instructions : List Instruction) : Adds instructions.length (instructions.forM step) := by
  induction instructions with
  | nil => exact .pure _
  | cons first rest ih =>
      have both := (steps first).bind fun _ => ih
      rwa [Nat.add_comm] at both

/-- The events and the label in front of an instruction make no dynamic tokens. -/
theorem adds_emitPlaced (clauses : List Clause) (targets : List Nat) (instruction : Instruction) :
    Adds 1 (emitPlaced clauses targets instruction) := by
  refine .seq (.emitting _) fun _ => ?_
  dsimp only
  split
  · exact .seq (.emitting _) fun _ => adds_emitInstruction instruction
  · exact adds_emitInstruction instruction

theorem adds_emitCode (code : MethodCode) : Adds code.instructions.size (emitCode code) := by
  have placed := adds_forM (adds_emitPlaced code.clauses (targetsOf code)) code.instructions.toList
  have finished : ∀ _ : Unit, Adds 0 (do
      emitting (Regions.apply code.clauses code.codeSize)
      emitting Encoder.finish) :=
    fun _ => .seq (.emitting _) fun _ => .emitting _
  exact .seq (.emitting _) fun _ => placed.bind finished

end Instrumentation

/-- The scope of an instrumented body is no larger than the code of the method. -/
theorem IsolationRun.scope_size_le {module : Module} {id : Nat} {method : MethodDef}
    {forInterface : Bool} {run final : IsolationRun} {code : MethodCode}
    {rewritten : DynamicMethod} (read : MethodCode.ofMethod module method = .ok code)
    (ran : instrument module id method forInterface run = .ok rewritten final) :
    rewritten.scope.size ≤ code.instructions.size := by
  obtain ⟨_, _, codeRan, ran⟩ := bind_eq_ok.mp ran
  obtain ⟨codeRead, rfl⟩ := ofExcept_eq_ok.mp codeRan
  obtain rfl := Except.ok.inj (read.symm.trans codeRead)
  obtain ⟨_, _, paramsRan, ran⟩ := bind_eq_ok.mp ran
  obtain ⟨_, rfl⟩ := ofExcept_eq_ok.mp paramsRan
  obtain ⟨_, _, layoutRan, ran⟩ := bind_eq_ok.mp ran
  obtain ⟨_, rfl⟩ := ofExcept_eq_ok.mp layoutRan
  obtain ⟨_, _, runRead, ran⟩ := bind_eq_ok.mp ran
  obtain ⟨rfl, rfl⟩ := get_eq_ok.mp runRead
  generalize emittedRan : Instrumentation.emitCode code _ _ = result at ran
  cases result with
  | error error draft =>
      obtain ⟨_, _, _, ran⟩ := bind_eq_ok.mp ran
      exact absurd ran throw_ne_ok
  | ok emitted draft =>
      obtain ⟨_, _, _, ran⟩ := bind_eq_ok.mp ran
      obtain ⟨assembled, _⟩ := ofExcept_eq_ok.mp ran
      obtain ⟨_, _, assembled⟩ := except_bind_eq_ok.mp assembled
      obtain ⟨_, _, assembled⟩ := except_bind_eq_ok.mp assembled
      cases assembled
      have adds := Instrumentation.adds_emitCode code _ _ _ _ emittedRan
      rwa [show ({} : Scope).size = 0 from rfl, Nat.zero_add] at adds

end Cil
