import Cil.Machine.Execution
import Cil.Proofs.Machine.Locality
import Cil.Proofs.Machine.Running

/-!
# Executions that agree

Two pieces of execution agree under a property of machines if they end in the same way on
every machine that has it, and the machine at the end has it again.  Pieces that agree can be
put together, so that executions which differ only in what they do outside of the property
have the same outcome.
-/

namespace Cil

open Stateful
open MonadExcept (ofExcept)

namespace Exec

section Agreement

variable {α β : Type} {context : Context} {property : Machine → Prop}

/-- Two pieces of execution that end in the same way where a property holds, and keep it. -/
def Agree (context : Context) (property : Machine → Prop) (result : α → Prop)
    (first second : Exec α) : Prop :=
  ∀ machine, property machine → first context machine = second context machine ∧
    Ends property result (fun _ => True) (first context machine)

namespace Agree

variable {result : α → Prop} {final : β → Prop} {first second : Exec α}

theorem bind {next other : α → Exec β} (firsts : Agree context property result first second)
    (nexts : ∀ value, result value → Agree context property final (next value) (other value)) :
    Agree context property final (first >>= next) (second >>= other) := by
  intro machine holds
  obtain ⟨same, ends⟩ := firsts machine holds
  rw [bind_run, bind_run, ← same]
  cases ran : first context machine with
  | ok value middle =>
      rw [ran] at ends
      exact nexts value ends.2 middle ends.1
  | error error middle =>
      rw [ran] at ends
      exact ⟨rfl, ends⟩

/-- What follows does not depend on the value of the first piece. -/
theorem seq {next other : α → Exec β}
    (firsts : Agree context property (fun _ => True) first second)
    (nexts : ∀ value, Agree context property final (next value) (other value)) :
    Agree context property final (first >>= next) (second >>= other) :=
  firsts.bind fun value _ => nexts value

theorem weaken {weaker : α → Prop} (agree : Agree context property result first second)
    (implies : ∀ value, result value → weaker value) :
    Agree context property weaker first second := by
  intro machine holds
  obtain ⟨same, ends⟩ := agree machine holds
  refine ⟨same, ?_⟩
  cases ran : first context machine with
  | ok value middle => rw [ran] at ends; exact ⟨ends.1, implies value ends.2⟩
  | error error middle => rw [ran] at ends; exact ends

theorem pure {value : α} (satisfies : result value) :
    Agree context property result (Pure.pure value) (Pure.pure value) :=
  fun _ holds => ⟨rfl, holds, satisfies⟩

theorem throw (error : Error) :
    Agree context property result (throw error) (throw error) :=
  fun _ holds => ⟨rfl, holds, trivial⟩

theorem get : Agree context property property MonadState.get MonadState.get :=
  fun _ holds => ⟨rfl, holds, holds⟩

theorem read : Agree context property (· = context) MonadReader.read MonadReader.read :=
  fun _ holds => ⟨rfl, holds, rfl⟩

theorem module : Agree context property (· = context.module) Exec.module Exec.module :=
  fun _ holds => ⟨rfl, holds, rfl⟩

theorem ofExcept (outcome : Except Error α) :
    Agree context property (outcome = .ok ·) (ofExcept outcome) (ofExcept outcome) := by
  intro machine holds
  cases outcome with
  | ok value => exact ⟨rfl, holds, rfl⟩
  | error error => exact ⟨rfl, holds, trivial⟩

/-- A piece of execution that leaves alone which code runs and which calls are in progress keeps
every property of these. -/
theorem same (kept : ∀ context start, Keeps (Machine.Steady start) (first context))
    (stable : ∀ before after : Machine, before.Steady after → property before → property after) :
    Agree context property (fun _ => True) first first := by
  intro machine holds
  have after := stable machine _ (kept context machine machine (.refl machine)) holds
  refine ⟨rfl, ?_⟩
  cases ran : first context machine with
  | ok value middle => rw [ran] at after; exact ⟨after, trivial⟩
  | error error middle => rw [ran] at after; exact ⟨after, trivial⟩

theorem attempt (agree : Agree context property result first second) :
    Agree context property (fun outcome => ∀ value, outcome = .ok value → result value)
      (attempt first) (attempt second) := by
  intro machine holds
  obtain ⟨same, ends⟩ := agree machine holds
  unfold Exec.attempt
  rw [← same]
  cases ran : first context machine with
  | ok value middle =>
      rw [ran] at ends
      exact ⟨rfl, ends.1, fun _ isValue => Except.ok.inj isValue ▸ ends.2⟩
  | error error middle =>
      rw [ran] at ends
      exact ⟨rfl, ends.1, fun _ isValue => by cases isValue⟩

theorem catchThrown (agree : Agree context property result first second) :
    Agree context property (fun outcome => ∀ value, outcome = .ok value → result value)
      (catchThrown first) (catchThrown second) := by
  intro machine holds
  obtain ⟨same, ends⟩ := agree machine holds
  unfold Exec.catchThrown
  rw [← same]
  cases ran : first context machine with
  | ok value middle =>
      rw [ran] at ends
      exact ⟨rfl, ends.1, fun _ isValue => Except.ok.inj isValue ▸ ends.2⟩
  | error error middle =>
      rw [ran] at ends
      cases error with
      | thrown exception => exact ⟨rfl, ends.1, fun _ isValue => by cases isValue⟩
      | _ => exact ⟨rfl, ends⟩

/-- What is cleaned up may have had another property than what is left. -/
theorem andFinally_run {inner : Machine → Prop} {cleanUp : Machine → Machine}
    (agree : Agree context inner result first second)
    (cleaned : ∀ machine, inner machine → property (cleanUp machine)) {machine : Machine}
    (holds : inner machine) :
    andFinally first cleanUp context machine = andFinally second cleanUp context machine ∧
      Ends property result (fun _ => True) (andFinally first cleanUp context machine) := by
  obtain ⟨same, ends⟩ := agree machine holds
  unfold Exec.andFinally
  rw [← same]
  cases ran : first context machine with
  | ok value middle => rw [ran] at ends; exact ⟨rfl, cleaned _ ends.1, ends.2⟩
  | error error middle => rw [ran] at ends; exact ⟨rfl, cleaned _ ends.1, ends.2⟩

theorem andFinally {cleanUp : Machine → Machine}
    (agree : Agree context property result first second)
    (kept : ∀ machine, property machine → property (cleanUp machine)) :
    Agree context property result (andFinally first cleanUp) (andFinally second cleanUp) :=
  fun _ holds => agree.andFinally_run kept holds

theorem discard (agree : Agree context property result first second) :
    Agree context property (fun _ => True) (discard first) (discard second) := by
  intro machine holds
  obtain ⟨same, ends⟩ := agree machine holds
  change EStateM.map _ (first context) machine = EStateM.map _ (second context) machine ∧
    Ends _ _ _ (EStateM.map _ (first context) machine)
  unfold EStateM.map
  rw [← same]
  cases ran : first context machine with
  | ok value middle => rw [ran] at ends; exact ⟨rfl, ends.1, trivial⟩
  | error error middle => rw [ran] at ends; exact ⟨rfl, ends⟩

end Agree

end Agreement

/-! ## Executing code -/

/-- A round of an execution: one instruction, and what follows from its effect. -/
def round (run : Runner) (code : MethodCode) (scope : Scope) (frame rounds : Nat)
    (rest : Option Block → Nat → Option Token → List Value → Exec BlockExit)
    (block? : Option Block) (index : Nat) (constraint? : Option Token) (stack : List Value) :
    Exec BlockExit := do
  let some instruction := code.instructions[index]?
    | throw (.malformed (.pastTheEnd code.codeSize))
  tick
  let effect ← effect run code scope frame instruction constraint? stack
  let runBlock : BlockRunner := fun block stack => do
    rest (some block) (← position code block.start) none stack
  match ← follow runBlock code frame block? rounds index instruction.offset effect with
  | .goOn index constraint? stack => rest block? index constraint? stack
  | .exit exit => return exit

theorem execute_succ (run : Runner) (code : MethodCode) (scope : Scope) (frame rounds : Nat) :
    execute run code scope frame (rounds + 1) =
      round run code scope frame rounds (execute run code scope frame rounds) :=
  rfl

section Code

variable {context : Context} {property : Machine → Prop}

/-- Pieces of execution whose values do not matter agree. -/
abbrev Agrees {α : Type} (context : Context) (property : Machine → Prop)
    (first second : Exec α) : Prop :=
  Agree context property (fun _ => True) first second

def BlocksAgree (context : Context) (property : Machine → Prop) (first second : BlockRunner) :
    Prop :=
  ∀ block stack, Agrees context property (first block stack) (second block stack)

section Blocks

variable {first second : BlockRunner}

theorem agrees_accepts (blocks : BlocksAgree context property first second) (clause : Clause)
    (type : Token) (exception : HeapRef) :
    Agrees context property (accepts first clause type exception)
      (accepts second clause type exception) := by
  unfold accepts
  cases clause.kind with
  | catchClause => exact .bind .module fun _ _ => .pure trivial
  | filterClause =>
      refine .bind (.catchThrown (blocks _ _)) fun outcome _ => ?_
      cases outcome with
      | error exception => exact .pure trivial
      | ok exit =>
          cases exit with
          | endFilter accepted => exact .pure trivial
          | _ => exact .throw _
  | finallyClause => exact .pure trivial
  | faultClause => exact .pure trivial

theorem agrees_select? (blocks : BlocksAgree context property first second) (type : Token)
    (exception : HeapRef) (clauses : List (Clause × Nat)) :
    Agrees context property (select? first type exception clauses)
      (select? second type exception clauses) := by
  induction clauses with
  | nil => exact .pure trivial
  | cons candidate rest ih =>
      refine .seq (agrees_accepts blocks _ _ _) fun accepted => ?_
      split
      · exact .pure trivial
      · exact ih

theorem agrees_runHandlers (blocks : BlocksAgree context property first second)
    (clauses : List Clause) :
    Agrees context property (runHandlers first clauses) (runHandlers second clauses) := by
  induction clauses with
  | nil => exact .pure trivial
  | cons clause rest ih =>
      have handler : Agrees context property (runHandler first clause)
          (runHandler second clause) := by
        refine .seq (blocks _ _) fun exit => ?_
        cases exit with
        | endFinally => exact .pure trivial
        | _ => exact .throw _
      refine .bind (.catchThrown handler) fun outcome _ => ?_
      cases outcome with
      | ok value => exact ih
      | error exception => exact .pure trivial

theorem agrees_position (code : MethodCode) (offset : Nat) :
    Agrees context property (position code offset) (position code offset) := by
  unfold position
  split
  · exact .pure trivial
  · exact .throw _

theorem agrees_goTo (code : MethodCode) (offset : Nat) (stack : List Value) :
    Agrees context property (goTo code offset stack) (goTo code offset stack) :=
  .seq (agrees_position _ _) fun _ => .pure trivial

variable (stable : ∀ before after : Machine, before.Steady after → property before →
  property after)

include stable

theorem agrees_dispatch (blocks : BlocksAgree context property first second)
    (clauses : List Clause) (frame : Nat) (block? : Option Block) (rounds : Nat)
    (raised : Raised) :
    Agrees context property (dispatch first clauses frame block? rounds raised)
      (dispatch second clauses frame block? rounds raised) := by
  -- An exception that escapes from a handler is dispatched in the next round.
  induction rounds generalizing raised with
  | zero => exact .throw _
  | succ rounds ih =>
      refine .seq (.same (Steady.readHeap _).keeps stable) fun type =>
        .seq (agrees_select? blocks _ _ _) fun selected? =>
        .seq (agrees_runHandlers blocks _) fun replacement? => ?_
      cases replacement? with
      | some replacement => exact ih replacement
      | none =>
          cases selected? with
          | none => exact .throw _
          | some selected =>
              exact .seq (.same (keeps_modifyFrame _ fun _ => rfl) stable) fun _ => .pure trivial

theorem agrees_leave (blocks : BlocksAgree context property first second)
    (clauses : List Clause) (frame : Nat) (block? : Option Block) (origin target : Nat) :
    Agrees context property (leave first clauses frame block? origin target)
      (leave second clauses frame block? origin target) := by
  refine .seq (agrees_runHandlers blocks _) fun raised? => ?_
  cases raised? with
  | some raised => exact .pure trivial
  | none => exact .seq (.same (keeps_modifyFrame _ fun _ => rfl) stable) fun _ => .pure trivial

theorem agrees_follow (blocks : BlocksAgree context property first second) (code : MethodCode)
    (frame : Nat) (block? : Option Block) (rounds index offset : Nat) (effect : Effect) :
    Agrees context property (follow first code frame block? rounds index offset effect)
      (follow second code frame block? rounds index offset effect) := by
  have handled (raised : Raised) :
      Agrees context property (handle first code frame block? rounds raised)
        (handle second code frame block? rounds raised) :=
    .seq (agrees_dispatch stable blocks _ _ _ _ _) fun _ => agrees_goTo _ _ _
  cases effect with
  | next stack constraint? => exact .pure trivial
  | jump target stack => exact agrees_goTo _ _ _
  | leave target =>
      refine .seq (agrees_leave stable blocks _ _ _ _ _) fun raised? => ?_
      cases raised? with
      | none => exact agrees_goTo _ _ _
      | some raised => exact handled raised
  | thrown exception => exact handled _
  | returned value => exact .pure trivial
  | endFinally => exact .pure trivial
  | endFilter accepted => exact .pure trivial

end Blocks

variable {run other : Runner} {code : MethodCode} {scope : Scope}

section Steady

variable (stable : ∀ before after : Machine, before.Steady after → property before →
  property after)

include stable

theorem agrees_tick : Agrees context property tick tick := by
  refine .bind .read fun context _ => .seq ?_ fun executed => ?_
  · exact fun machine holds =>
      ⟨rfl, stable machine _ ⟨⟨rfl, rfl, rfl, rfl⟩, rfl, rfl⟩ holds, trivial⟩
  · split
    · exact .throw _
    · exact .pure trivial

/-- Rounds agree if the executions of the instructions and what follows them do. -/
theorem agrees_round {frame : Nat}
    (steps : ∀ instruction ∈ code.instructions, ∀ constraint? stack,
      Agrees context property (step run code.clauses scope frame instruction constraint? stack)
        (step other code.clauses scope frame instruction constraint? stack))
    {rest others : Option Block → Nat → Option Token → List Value → Exec BlockExit}
    (rests : ∀ block? index constraint? stack, Agrees context property
      (rest block? index constraint? stack) (others block? index constraint? stack))
    (rounds : Nat) (block? : Option Block) (index : Nat) (constraint? : Option Token)
    (stack : List Value) :
    Agrees context property
      (round run code scope frame rounds rest block? index constraint? stack)
      (round other code scope frame rounds others block? index constraint? stack) := by
  unfold round
  cases found : code.instructions[index]? with
  | none => exact .throw _
  | some instruction =>
      have effects : Agrees context property
          (effect run code scope frame instruction constraint? stack)
          (effect other code scope frame instruction constraint? stack) := by
        refine .bind (.catchThrown (steps instruction
          (Array.mem_of_getElem? found) constraint? stack)) fun outcome _ => ?_
        cases outcome with
        | ok effect => exact .pure trivial
        | error exception => exact .pure trivial
      have blocks : BlocksAgree context property
          (fun block stack => do rest (some block) (← position code block.start) none stack)
          (fun block stack => do others (some block) (← position code block.start) none stack) :=
        fun block stack => .seq (agrees_position _ _) fun index => rests _ _ _ _
      refine .seq (agrees_tick stable) fun _ => .seq effects fun effect =>
        .seq (agrees_follow stable blocks _ _ _ _ _ _ _) fun continuation => ?_
      cases continuation with
      | goOn index constraint? stack => exact rests _ _ _ _
      | exit exit => exact .pure trivial

/-- Executions of code agree if the executions of its instructions do. -/
theorem agrees_execute {frame : Nat}
    (steps : ∀ instruction ∈ code.instructions, ∀ constraint? stack,
      Agrees context property (step run code.clauses scope frame instruction constraint? stack)
        (step other code.clauses scope frame instruction constraint? stack))
    (rounds : Nat) (block? : Option Block) (index : Nat) (constraint? : Option Token)
    (stack : List Value) :
    Agrees context property
      (execute run code scope frame rounds block? index constraint? stack)
      (execute other code scope frame rounds block? index constraint? stack) := by
  -- Handlers run as blocks of their own with the rounds that are left, so one induction covers
  -- both.
  induction rounds generalizing block? index constraint? stack with
  | zero => exact .throw _
  | succ rounds ih =>
      rw [execute_succ, execute_succ]
      exact agrees_round stable steps ih _ _ _ _ _

end Steady

variable (stable : ∀ before after : Machine, before.SameCode after → property before →
  property after)

include stable

theorem agrees_modify {change : Machine → Machine}
    (same : ∀ machine : Machine, machine.SameCode (change machine)) :
    Agrees context property (modify change : Exec PUnit) (modify change) :=
  fun machine holds => ⟨rfl, stable machine _ (same machine) holds, trivial⟩

theorem agrees_asCall {α : Type} {result : α → Prop} {first second : Exec α}
    (agree : Agree context property result first second) :
    Agree context property result (asCall first) (asCall second) := by
  have enters : Agrees context property enter enter := by
    refine .bind .read fun _ _ => .bind .get fun machine _ => ?_
    split
    · exact .throw _
    · exact agrees_modify stable fun _ => ⟨rfl, rfl, rfl, rfl⟩
  exact .seq enters fun _ =>
    .andFinally agree fun machine holds => stable machine _ ⟨rfl, rfl, rfl, rfl⟩ holds

theorem agrees_runCode (arguments : List Value)
    (steps : ∀ frame, ∀ instruction ∈ code.instructions, ∀ constraint? stack,
      Agrees context property (step run code.clauses scope frame instruction constraint? stack)
        (step other code.clauses scope frame instruction constraint? stack)) :
    Agrees context property (runCode run code scope arguments)
      (runCode other code scope arguments) := by
  have executes (frame : Nat) : Agrees context property (executeCode run code scope frame)
      (executeCode other code scope frame) := by
    refine .bind .read fun _ _ => .seq (agrees_position _ _) fun start =>
      .seq (agrees_execute (fun before after steady => stable before after steady.code)
        (steps frame) _ _ _ _ _) fun exit => ?_
    cases exit with
    | returned value => exact .pure trivial
    | _ => exact .throw _
  exact agrees_asCall stable <| .bind .module fun _ _ => .bind (.ofExcept _) fun _ _ =>
    .bind .get fun _ _ => .seq (agrees_modify stable fun _ => ⟨rfl, rfl, rfl, rfl⟩) fun _ =>
    .andFinally (executes _) fun machine holds => stable machine _ ⟨rfl, rfl, rfl, rfl⟩ holds

end Code

end Exec

end Cil
