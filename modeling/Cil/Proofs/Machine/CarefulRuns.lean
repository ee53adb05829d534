import Cil.Proofs.Machine.Beyond
import Cil.Proofs.Machine.CallsInProgress

/-!
# Careful runs

A careful run asks before every instruction and before every call of a native method whether
to go on.  Where the answer is no it stops with an error that it was given.  So it stops with
that error, or it is the run that asks nothing.
-/

namespace Cil

open MonadExcept (ofExcept)

/-! ## Bounds and care -/

/-- How many rounds the code of a call may take and how many calls may nest, on a thread with
given limits. -/
structure Bounds where
  rounds : Limits → Nat
  calls : Limits → Nat

namespace Bounds

/-- The bounds of the machine. -/
def machine : Bounds where
  rounds := Limits.rounds
  calls := Limits.calls

def fixed (rounds calls : Nat) : Bounds where
  rounds _ := rounds
  calls _ := calls

end Bounds

/-- What is done before an instruction and before a native method. -/
structure Care where
  instruction : Scope → (frame : Nat) → Instruction → (constraint? : Option Token) →
    (stack : List Value) → Exec Unit
  native : NativeBody → (arguments : List Value) → Exec Unit

namespace Care

def none : Care where
  instruction _ _ _ _ _ := pure ()
  native _ _ := pure ()

/-- Goes on where the answer to a question is yes.  Asking changes nothing. -/
def check (stray : Error) (answer : Context → Machine → Bool) : Exec Unit :=
  fun context machine =>
    if answer context machine then .ok () machine else .error stray machine

end Care

namespace Exec

/-- Dispatches the exceptions of code, within a number of rounds. -/
def dispatchIn (code : MethodCode) (frame rounds : Nat) (runBlock : BlockRunner)
    (block? : Option Block) : Raised → Exec Raised :=
  dispatch runBlock code.clauses frame block? rounds

/-- Executes code with care. -/
def executeUnder (care : Care) (run : Runner) (code : MethodCode) (scope : Scope) (frame : Nat) :
    (rounds : Nat) → (block? : Option Block) → (index : Nat) → (constraint? : Option Token) →
    (stack : List Value) → Exec BlockExit
  | 0, _, _, _, _ => throw .outOfFuel
  | rounds + 1, block?, index, constraint?, stack => do
    let some instruction := code.instructions[index]?
      | throw (.malformed (.pastTheEnd code.codeSize))
    tick
    care.instruction scope frame instruction constraint? stack
    executeCounted run code scope frame (dispatchIn code frame rounds)
      (executeUnder care run code scope frame rounds) block? index instruction constraint? stack

/-- Runs code with care, in a call and a frame of its own. -/
def runCodeUnder (care : Care) (rounds : Limits → Nat) (run : Runner) (code : MethodCode)
    (scope : Scope) (arguments : List Value) : Exec Value :=
  asCall (inFrame code arguments fun frame => do
    executeFrom code (executeUnder care run code scope frame (rounds (← read).limits)))

/-- Runs activations with care. -/
def activateUnder (care : Care) (rounds : Limits → Nat) : (calls : Nat) → Runner
  | 0, _ => throw .outOfFuel
  | calls + 1, .native provided arguments => asCall do
    care.native provided.body arguments
    runNative (activateUnder care rounds calls) provided.body arguments
  | calls + 1, .code code scope arguments =>
    runCodeUnder care rounds (activateUnder care rounds calls) code scope arguments

/-- Calls a callable with care and within bounds. -/
def runToEndUnder (care : Care) (bounds : Bounds) (callable : Callable) (arguments : List Value) :
    Exec Value :=
  runToEndIn (do return activateUnder care bounds.rounds (bounds.calls (← read).limits)) callable
    arguments

/-! ## Nothing is asked -/

theorem executeUnder_none (run : Runner) (code : MethodCode) (scope : Scope)
    (frame rounds : Nat) :
    executeUnder .none run code scope frame rounds = execute run code scope frame rounds := by
  induction rounds with
  | zero => rfl
  | succ rounds ih =>
      funext block? index constraint? stack
      rw [executeUnder, ih, execute_eq_round]
      rfl

theorem activateUnder_none (calls : Nat) :
    activateUnder .none Limits.rounds calls = activate calls := by
  induction calls with
  | zero => rfl
  | succ calls ih =>
      funext activation
      cases activation with
      | native provided arguments =>
          rw [activateUnder, ih]
          exact congrArg asCall (pure_bind () _)
      | code code scope arguments =>
          rw [activateUnder, ih]
          simp only [runCodeUnder, executeUnder_none]
          rfl

theorem runToEndUnder_none (callable : Callable) (arguments : List Value) :
    runToEndUnder .none .machine callable arguments = runToEnd callable arguments := by
  rw [runToEndUnder, runToEnd_eq]
  simp only [Bounds.machine, activateUnder_none]

/-! ## Executions that stop -/

section Stops

variable {α β : Type} {stray : Error}

/-- A piece of execution stops with an error or does what another one does. -/
def Stops (stray : Error) (first second : Exec α) : Prop :=
  ∀ context machine, (∃ final, first context machine = .error stray final) ∨
    first context machine = second context machine

namespace Stops

theorem refl (action : Exec α) : Stops stray action action :=
  fun _ _ => .inr rfl

theorem check (answer : Context → Machine → Bool) :
    Stops stray (Care.check stray answer) (pure ()) := by
  intro context machine
  unfold Care.check
  by_cases goesOn : answer context machine = true
  · rw [if_pos goesOn]
    exact .inr rfl
  · rw [if_neg goesOn]
    exact .inl ⟨machine, rfl⟩

theorem bind {first second : Exec α} {next other : α → Exec β} (firsts : Stops stray first second)
    (nexts : ∀ value, Stops stray (next value) (other value)) :
    Stops stray (first >>= next) (second >>= other) := by
  intro context machine
  simp only [bind_run]
  rcases firsts context machine with ⟨final, stopped⟩ | same
  · rw [stopped]
    exact .inl ⟨final, rfl⟩
  · rw [same]
    cases second context machine with
    | ok value middle => exact nexts value context middle
    | error error middle => exact .inr rfl

theorem andFinally {first second : Exec α} (stops : Stops stray first second)
    (cleanUp : Machine → Machine) :
    Stops stray (andFinally first cleanUp) (andFinally second cleanUp) := by
  intro context machine
  unfold Exec.andFinally
  rcases stops context machine with ⟨final, stopped⟩ | same
  · rw [stopped]
    exact .inl ⟨cleanUp final, rfl⟩
  · rw [same]
    exact .inr rfl

theorem asCall {first second : Exec α} (stops : Stops stray first second) :
    Stops stray (asCall first) (asCall second) :=
  .bind (.refl _) fun _ => stops.andFinally _

theorem withTemporary {initial : Value} {first second : Pointer → Exec Unit}
    (uses : ∀ location, Stops stray (first location) (second location)) :
    Stops stray (withTemporary initial first) (withTemporary initial second) := by
  intro context machine
  simp only [withTemporary_run]
  rcases uses (.localSlot machine.frames.size 0) context
    { machine with frames := machine.frames.push { arguments := #[], locals := #[initial] } }
    with ⟨final, stopped⟩ | same
  · rw [stopped]
    exact .inl ⟨_, rfl⟩
  · rw [same]
    exact .inr rfl

theorem congruence (stray : Error) : Congruence fun first second => Stops stray first second where
  bind := .bind
  steady _ := .refl _
  newFunction _ := .refl _
  executable _ := .refl _
  implementation _ _ _ := .refl _
  withTemporary := .withTemporary

variable (uncaught : ∀ exception, stray ≠ .thrown exception)
include uncaught

theorem catchThrown {first second : Exec α} (stops : Stops stray first second) :
    Stops stray (catchThrown first) (catchThrown second) := by
  intro context machine
  unfold Exec.catchThrown
  rcases stops context machine with ⟨final, stopped⟩ | same
  · rw [stopped]
    cases stray with
    | thrown exception => exact absurd rfl (uncaught exception)
    | _ => exact .inl ⟨final, rfl⟩
  · rw [same]
    exact .inr rfl

/-! ### Blocks -/

section Blocks

variable {first second : BlockRunner}
  (blocks : ∀ block stack, Stops stray (first block stack) (second block stack))

include blocks

theorem accepts (clause : Clause) (type : Token) (exception : HeapRef) :
    Stops stray (accepts first clause type exception) (accepts second clause type exception) := by
  unfold Exec.accepts
  cases clause.kind with
  | filterClause => exact .bind (catchThrown uncaught (blocks _ _)) fun _ => .refl _
  | _ => exact .refl _

theorem select? (type : Token) (exception : HeapRef) (clauses : List (Clause × Nat)) :
    Stops stray (select? first type exception clauses) (select? second type exception clauses) := by
  induction clauses with
  | nil => exact .refl _
  | cons candidate rest ih =>
      refine .bind (accepts uncaught blocks _ _ _) fun accepted => ?_
      split
      · exact .refl _
      · exact ih

theorem runHandlers (clauses : List Clause) :
    Stops stray (runHandlers first clauses) (runHandlers second clauses) := by
  induction clauses with
  | nil => exact .refl _
  | cons clause rest ih =>
      have handler : Stops stray (runHandler first clause) (runHandler second clause) :=
        .bind (blocks _ _) fun _ => .refl _
      refine .bind (catchThrown uncaught handler) fun outcome => ?_
      cases outcome with
      | ok value => exact ih
      | error exception => exact .refl _

theorem dispatch (clauses : List Clause) (frame : Nat) (block? : Option Block) (rounds : Nat)
    (raised : Raised) :
    Stops stray (dispatch first clauses frame block? rounds raised)
      (dispatch second clauses frame block? rounds raised) := by
  induction rounds generalizing raised with
  | zero => exact .refl _
  | succ rounds ih =>
      refine .bind (.refl _) fun type => .bind (select? uncaught blocks _ _ _) fun selected? =>
        .bind (runHandlers uncaught blocks _) fun replacement? => ?_
      cases replacement? with
      | some replacement => exact ih replacement
      | none => exact .refl _

theorem follow (code : MethodCode) (frame : Nat) (block? : Option Block)
    (rounds index offset : Nat) (effect : Effect) :
    Stops stray (follow first code frame block? rounds index offset effect)
      (follow second code frame block? rounds index offset effect) := by
  have handles (raised : Raised) : Stops stray (handle first code frame block? rounds raised)
      (handle second code frame block? rounds raised) :=
    .bind (dispatch uncaught blocks _ _ _ _ _) fun _ => .refl _
  cases effect with
  | thrown exception => exact handles _
  | leave target =>
      have leaves : Stops stray (leave first code.clauses frame block? offset target)
          (leave second code.clauses frame block? offset target) :=
        .bind (runHandlers uncaught blocks _) fun _ => .refl _
      refine .bind leaves fun raised? => ?_
      cases raised? with
      | some raised => exact handles raised
      | none => exact .refl _
  | _ => exact .refl _

end Blocks

/-! ### Code and calls -/

theorem executeCounted {run other : Runner} {code : MethodCode} {scope : Scope}
    {frame rounds : Nat}
    {rest otherRest : Option Block → Nat → Option Token → List Value → Exec BlockExit}
    (runs : ∀ activation, Stops stray (run activation) (other activation))
    (rests : ∀ block? index constraint? stack,
      Stops stray (rest block? index constraint? stack) (otherRest block? index constraint? stack))
    (block? : Option Block) (index : Nat) (instruction : Instruction) (constraint? : Option Token)
    (stack : List Value) :
    Stops stray
      (executeCounted run code scope frame (dispatchIn code frame rounds) rest block? index
        instruction constraint? stack)
      (executeCounted other code scope frame (dispatchIn code frame rounds) otherRest block? index
        instruction constraint? stack) := by
  have effects : Stops stray (effect run code scope frame instruction constraint? stack)
      (effect other code scope frame instruction constraint? stack) :=
    .bind (catchThrown uncaught ((congruence stray).step runs _ _ _ _ _ _)) fun _ => .refl _
  have blocks (block : Block) (stack : List Value) :
      Stops stray (blockBy code rest block stack) (blockBy code otherRest block stack) :=
    .bind (.refl _) fun _ => rests _ _ _ _
  refine .bind effects fun effect => ?_
  refine .bind (follow uncaught blocks code frame block? rounds index instruction.offset effect)
    fun continuation => ?_
  cases continuation with
  | goOn index constraint? stack => exact rests _ _ _ _
  | exit exit => exact .refl _

end Stops

/-- What a careful run does before it goes on: nothing, or it stops. -/
structure StopsOnly (stray : Error) (care : Care) : Prop where
  instruction (scope : Scope) (frame : Nat) (instruction : Instruction)
    (constraint? : Option Token) (stack : List Value) :
    Stops stray (care.instruction scope frame instruction constraint? stack) (pure ())
  native (body : NativeBody) (arguments : List Value) :
    Stops stray (care.native body arguments) (pure ())

variable {care : Care} (uncaught : ∀ exception, stray ≠ .thrown exception)
  (stopping : StopsOnly stray care)

include uncaught stopping

theorem stops_executeUnder {run other : Runner}
    (runs : ∀ activation, Stops stray (run activation) (other activation)) (code : MethodCode)
    (scope : Scope) (frame rounds : Nat) (block? : Option Block) (index : Nat)
    (constraint? : Option Token) (stack : List Value) :
    Stops stray (executeUnder care run code scope frame rounds block? index constraint? stack)
      (executeUnder .none other code scope frame rounds block? index constraint? stack) := by
  induction rounds generalizing block? index constraint? stack with
  | zero => exact .refl _
  | succ rounds ih =>
      rw [executeUnder, executeUnder]
      cases code.instructions[index]? with
      | none => exact .refl _
      | some instruction =>
          exact .bind (.refl _) fun _ => .bind (stopping.instruction _ _ _ _ _) fun _ =>
            .executeCounted uncaught runs ih _ _ _ _ _

theorem stops_activateUnder (rounds : Limits → Nat) (calls : Nat) (activation : Activation) :
    Stops stray (activateUnder care rounds calls activation)
      (activateUnder .none rounds calls activation) := by
  -- What an activation calls nests one call less deep.
  induction calls generalizing activation with
  | zero => exact .refl _
  | succ calls ih =>
      cases activation with
      | native provided arguments =>
          refine .asCall (.bind (stopping.native _ _) fun _ => ?_)
          cases provided.body with
          | core operation => exact (Stops.congruence stray).runCore ih _ _
          | stub site => exact (Stops.congruence stray).runStub ih _ _
          | host program => exact (Stops.congruence stray).runProgram ih _
      | code code scope arguments =>
          refine .asCall <| .bind (.refl _) fun _ => .bind (.refl _) fun _ => .bind (.refl _)
            fun _ => .bind (.refl _) fun _ => .andFinally ?_ _
          exact .bind (.refl _) fun context => .bind (.refl _) fun start =>
            .bind (stops_executeUnder uncaught stopping ih _ _ _ _ _ _ _ _) fun _ => .refl _

/-- A careful call stops with the error, or it is the call that asks nothing. -/
theorem stops_runToEndUnder (bounds : Bounds) (callable : Callable) (arguments : List Value) :
    Stops stray (runToEndUnder care bounds callable arguments)
      (runToEndUnder .none bounds callable arguments) := by
  have called : Stops stray
      (do
        let run : Exec Runner := do
          return activateUnder care bounds.rounds (bounds.calls (← read).limits)
        invoke (← run) callable arguments)
      (do
        let run : Exec Runner := do
          return activateUnder .none bounds.rounds (bounds.calls (← read).limits)
        invoke (← run) callable arguments) := by
    simp only [bind_assoc, pure_bind]
    exact .bind (.refl _) fun _ => (Stops.congruence stray).invoke
      (stops_activateUnder uncaught stopping _ _) _ _
  exact .bind (.catchThrown uncaught called) fun _ => .refl _

end Stops

end Exec

end Cil
