import Cil.Proofs.Machine.Metering

/-!
# Limited code

Every round of an execution counts an instruction, and an exception that escapes from a handler
has cost one, too.  So the rounds that are left cover the instructions that are left, and neither
executing code nor dispatching exceptions uses them up.
-/

namespace Cil

open Stateful
open MonadExcept (ofExcept)

namespace Exec

variable {α β : Type} {module : Module} {limits longer : Limits} {depth least : Nat}

/-! ## Counting an instruction -/

theorem tick_run {context : Context} (machine : Machine) :
    tick context machine =
      if 0 < context.limits.instructions ∧ context.limits.instructions < machine.executed + 1 then
        .error (.instructionLimit context.limits.instructions)
          { machine with executed := machine.executed + 1 }
      else .ok () { machine with executed := machine.executed + 1 } := by
  change (if 0 < context.limits.instructions ∧
      context.limits.instructions < machine.executed + 1 then
    throw (.instructionLimit context.limits.instructions)
    else pure () : Exec Unit) context { machine with executed := machine.executed + 1 } = _
  split <;> rfl

theorem Ended.not_thrown {start final : Machine} {limit : Nat} {exception : HeapRef}
    {short long : EStateM.Result Error Machine α} (ended : Ended limit start short long)
    (thrown : short = .error (.thrown exception) final) : start.executed ≤ final.executed := by
  cases ended with
  | same same later => rw [thrown] at later; exact later
  | cut failed => rw [thrown] at failed; cases failed
  | looped failed => rw [thrown] at failed; cases failed

/-- Code whose exceptions have cost an instruction. -/
def Costs (module : Module) (limits : Limits) (depth least : Nat) (action : Exec α) : Prop :=
  ∀ machine exception final, least ≤ machine.executed →
    machine.executed ≤ limits.instructions → machine.depth = depth →
    action ⟨module, limits⟩ machine = .error (.thrown exception) final →
    machine.executed < final.executed

/-- What runs after an instruction was counted. -/
theorem metered_tick_bind (bounded : limits.Within longer) {next other : Exec α}
    (nexts : Metered module limits longer depth (least + 1) next other) :
    Metered module limits longer depth least (tick >>= fun _ => next)
      (tick >>= fun _ => other) := by
  intro machine enough within stands
  rw [bind_run, bind_run, tick_run, tick_run]
  dsimp only
  by_cases spent : limits.instructions < machine.executed + 1
  · rw [if_pos ⟨bounded.instructions, spent⟩]
    exact .cut rfl (congrArg (· + 1) (Nat.le_antisymm within (Nat.le_of_lt_succ spent)))
  · have unspent : ¬(0 < longer.instructions ∧ longer.instructions < machine.executed + 1) := by
      have := bounded.longer
      omega
    rw [if_neg (fun limited => spent limited.2), if_neg unspent]
    have counted : machine.executed + 1 ≤ limits.instructions := by omega
    cases nexts { machine with executed := machine.executed + 1 } (Nat.succ_le_succ enough)
      counted stands with
    | cut failed spent => exact .cut failed spent
    | looped failed within endless => exact .looped failed within endless
    | same same later within depth => exact .same same (Nat.le_of_succ_le later) within depth

theorem costs_tick_bind (bounded : limits.Within longer) {next other : Exec α}
    (nexts : Metered module limits longer depth (least + 1) next other) :
    Costs module limits depth least (tick >>= fun _ => next) := by
  intro machine exception final enough within stands thrown
  rw [bind_run, tick_run] at thrown
  dsimp only at thrown
  by_cases spent : limits.instructions < machine.executed + 1
  · rw [if_pos ⟨bounded.instructions, spent⟩] at thrown
    cases thrown
  · rw [if_neg (fun limited => spent limited.2)] at thrown
    exact (nexts { machine with executed := machine.executed + 1 } (Nat.succ_le_succ enough)
      (Nat.le_of_not_lt spent) stands).not_thrown thrown

/-! ## Blocks -/

/-- Blocks are metered, and exceptions that escape from them have cost an instruction. -/
structure MeteredBlocks (module : Module) (limits longer : Limits) (depth least : Nat)
    (first second : BlockRunner) : Prop where
  metered : ∀ block stack,
    Metered module limits longer depth least (first block stack) (second block stack)
  costs : ∀ block stack, Costs module limits depth least (first block stack)

variable {first second : BlockRunner}

theorem MeteredBlocks.weaken {more : Nat}
    (blocks : MeteredBlocks module limits longer depth least first second) (le : least ≤ more) :
    MeteredBlocks module limits longer depth more first second where
  metered block stack := (blocks.metered block stack).weaken le
  costs block stack machine exception final enough :=
    blocks.costs block stack machine exception final (Nat.le_trans le enough)

theorem metered_accepts (blocks : MeteredBlocks module limits longer depth least first second)
    (clause : Clause) (type : Token) (exception : HeapRef) :
    Metered module limits longer depth least (accepts first clause type exception)
      (accepts second clause type exception) := by
  unfold accepts
  cases clause.kind with
  | catchClause => exact .steady (.bind .module fun _ => .pure _)
  | filterClause =>
      refine .bind (.catchThrown (blocks.metered _ _)) fun outcome => ?_
      cases outcome with
      | error exception => exact .steady (.pure _)
      | ok exit =>
          cases exit with
          | endFilter accepted => exact .steady (.pure _)
          | _ => exact .steady (.throw _)
  | finallyClause => exact .steady (.pure _)
  | faultClause => exact .steady (.pure _)

theorem metered_select? (blocks : MeteredBlocks module limits longer depth least first second)
    (type : Token) (exception : HeapRef) (clauses : List (Clause × Nat)) :
    Metered module limits longer depth least (select? first type exception clauses)
      (select? second type exception clauses) := by
  induction clauses with
  | nil => exact .steady (.pure _)
  | cons candidate rest ih =>
      refine .bind (metered_accepts blocks _ _ _) fun accepted => ?_
      split
      · exact .steady (.pure _)
      · exact ih

theorem metered_runHandler (blocks : MeteredBlocks module limits longer depth least first second)
    (clause : Clause) :
    Metered module limits longer depth least (runHandler first clause)
      (runHandler second clause) := by
  refine .bind (blocks.metered _ _) fun exit => ?_
  cases exit with
  | endFinally => exact .steady (.pure _)
  | _ => exact .steady (.throw _)

theorem costs_runHandler (blocks : MeteredBlocks module limits longer depth least first second)
    (clause : Clause) : Costs module limits depth least (runHandler first clause) := by
  intro machine exception final enough within stands thrown
  unfold runHandler at thrown
  rw [bind_run] at thrown
  cases ran : first clause.handlerBlock [] ⟨module, limits⟩ machine with
  | error error middle =>
      rw [ran] at thrown
      cases thrown
      exact blocks.costs _ _ machine exception final enough within stands ran
  | ok exit middle =>
      rw [ran] at thrown
      cases exit <;> cases thrown

/-- Handlers run; what goes on with an exception that escapes from one is an instruction
further. -/
theorem metered_runHandlers_bind
    (blocks : MeteredBlocks module limits longer depth least first second)
    {next other : Option Raised → Exec β}
    (kept : Metered module limits longer depth least (next none) (other none))
    (escaped : ∀ raised, Metered module limits longer depth (least + 1) (next (some raised))
      (other (some raised)))
    (clauses : List Clause) :
    Metered module limits longer depth least (runHandlers first clauses >>= next)
      (runHandlers second clauses >>= other) := by
  induction clauses with
  | nil => exact kept
  | cons clause rest ih =>
      unfold runHandlers
      rw [bind_assoc, bind_assoc]
      refine (metered_runHandler blocks clause).catch_bind (costs_runHandler blocks clause)
        (fun value => ih) fun exception => ?_
      exact escaped _

theorem metered_runHandlers (blocks : MeteredBlocks module limits longer depth least first second)
    (clauses : List Clause) :
    Metered module limits longer depth least (runHandlers first clauses)
      (runHandlers second clauses) := by
  rw [← bind_pure (runHandlers first clauses), ← bind_pure (runHandlers second clauses)]
  exact metered_runHandlers_bind blocks (.steady (.pure _)) (fun _ => .steady (.pure _)) clauses

/-! ## Dispatching exceptions -/

theorem steady_position (code : MethodCode) (offset : Nat) : Steady (position code offset) := by
  unfold position
  split
  · exact .pure _
  · exact .throw _

theorem steady_goTo (code : MethodCode) (offset : Nat) (stack : List Value) :
    Steady (goTo code offset stack) :=
  .bind (steady_position _ _) fun _ => .pure _

theorem metered_dispatch (beyond : Beyond)
    (blocks : MeteredBlocks module limits longer depth least first second)
    (clauses : List Clause) (frame : Nat) (block? : Option Block) {rounds more : Nat}
    (left : limits.instructions + 2 ≤ least + rounds) (le : rounds ≤ more) (raised : Raised) :
    Metered module limits longer depth least (dispatch first clauses frame block? rounds raised)
      (beyond.dispatchWithin second clauses frame block? more raised) := by
  -- An exception that escapes takes up a round, and it has cost an instruction.
  induction rounds generalizing least more raised with
  | zero => exact .of_lt (by omega)
  | succ rounds ih =>
      obtain ⟨more, rfl⟩ : ∃ fewer, more = fewer + 1 := ⟨more - 1, by omega⟩
      rw [dispatch_eq_round, Beyond.dispatchWithin]
      refine .bind (.steady (.readHeap _)) fun type =>
        .bind (metered_select? blocks _ _ _) fun selected? =>
        metered_runHandlers_bind blocks ?_ (fun replacement =>
          ih (blocks.weaken (Nat.le_succ _)) (by omega) (by omega) replacement) _
      cases selected? with
      | none => exact .steady (.throw _)
      | some selected =>
          exact .bind (.of_unmetered (fun _ _ _ _ => ⟨rfl, rfl⟩) fun _ => rfl) fun _ => .steady (.pure _)

theorem metered_leave (blocks : MeteredBlocks module limits longer depth least first second)
    (clauses : List Clause) (frame : Nat) (block? : Option Block) (origin target : Nat) :
    Metered module limits longer depth least (leave first clauses frame block? origin target)
      (leave second clauses frame block? origin target) := by
  refine .bind (metered_runHandlers blocks _) fun raised? => ?_
  cases raised? with
  | some raised => exact .steady (.pure _)
  | none => exact .bind (.of_unmetered (fun _ _ _ _ => ⟨rfl, rfl⟩) fun _ => rfl) fun _ => .steady (.pure _)

theorem metered_followBy (blocks : MeteredBlocks module limits longer depth least first second)
    {dispatches others : Raised → Exec Raised}
    (dispatched : ∀ raised,
      Metered module limits longer depth least (dispatches raised) (others raised))
    (code : MethodCode) (frame : Nat) (block? : Option Block) (index offset : Nat)
    (effect : Effect) :
    Metered module limits longer depth least
      (followBy dispatches first code frame block? index offset effect)
      (followBy others second code frame block? index offset effect) := by
  have handled (raised : Raised) : Metered module limits longer depth least
      (do
        let handled ← dispatches raised
        goTo code handled.offset [.object handled.exception])
      (do
        let handled ← others raised
        goTo code handled.offset [.object handled.exception]) :=
    .bind (dispatched raised) fun _ => .steady (steady_goTo _ _ _)
  cases effect with
  | next stack constraint? => exact .steady (.pure _)
  | jump target stack => exact .steady (steady_goTo _ _ _)
  | leave target =>
      refine .bind (metered_leave blocks _ _ _ _ _) fun raised? => ?_
      cases raised? with
      | none => exact .steady (steady_goTo _ _ _)
      | some raised => exact handled raised
  | thrown exception => exact handled _
  | returned value => exact .steady (.pure _)
  | endFinally => exact .steady (.pure _)
  | endFilter accepted => exact .steady (.pure _)

/-! ## Executing code -/

/-- Ways of executing code from an instruction on are metered, and exceptions that escape have
cost an instruction. -/
structure MeteredCode (module : Module) (limits longer : Limits) (depth least : Nat)
    (first second : Option Block → Nat → Option Token → List Value → Exec BlockExit) :
    Prop where
  metered : ∀ block? index constraint? stack, Metered module limits longer depth least
    (first block? index constraint? stack) (second block? index constraint? stack)
  costs : ∀ block? index constraint? stack,
    Costs module limits depth least (first block? index constraint? stack)

theorem MeteredCode.blocks
    {first second : Option Block → Nat → Option Token → List Value → Exec BlockExit}
    (executed : MeteredCode module limits longer depth least first second) (code : MethodCode) :
    MeteredBlocks module limits longer depth least (blockBy code first) (blockBy code second) where
  metered block stack :=
    .bind (.steady (steady_position _ _)) fun _ => executed.metered _ _ _ _
  costs block stack := by
    intro machine exception final enough within stands thrown
    unfold blockBy at thrown
    rw [bind_run, position] at thrown
    cases found : code.position? block.start with
    | none => rw [found] at thrown; cases thrown
    | some index =>
        rw [found] at thrown
        exact executed.costs (some block) index none stack machine exception final enough within
          stands thrown

variable {run other : Runner}

theorem metered_effect
    (runs : ∀ activation, Metered module limits longer depth least (run activation)
      (other activation))
    (code : MethodCode) (scope : Scope) (frame : Nat) (instruction : Instruction)
    (constraint? : Option Token) (stack : List Value) :
    Metered module limits longer depth least
      (effect run code scope frame instruction constraint? stack)
      (effect other code scope frame instruction constraint? stack) := by
  refine .bind (.catchThrown (congruence_metered.step runs _ _ _ _ _ _)) fun outcome => ?_
  cases outcome with
  | ok effect => exact .steady (.pure _)
  | error exception => exact .steady (.pure _)

theorem metered_executeCounted
    (runs : ∀ activation, Metered module limits longer depth least (run activation)
      (other activation))
    {first second : Option Block → Nat → Option Token → List Value → Exec BlockExit}
    {code : MethodCode} (rest : MeteredCode module limits longer depth least first second)
    (dispatches others : BlockRunner → Option Block → Raised → Exec Raised)
    (dispatched : ∀ block? raised, Metered module limits longer depth least
      (dispatches (blockBy code first) block? raised)
      (others (blockBy code second) block? raised))
    (scope : Scope) (frame : Nat) (block? : Option Block) (index : Nat)
    (instruction : Instruction) (constraint? : Option Token) (stack : List Value) :
    Metered module limits longer depth least
      (executeCounted run code scope frame dispatches first block? index instruction constraint?
        stack)
      (executeCounted other code scope frame others second block? index instruction constraint?
        stack) := by
  refine .bind (metered_effect runs _ _ _ _ _ _) fun effect =>
    .bind (metered_followBy (rest.blocks code) (dispatched block?) _ _ _ _ _ _)
      fun continuation => ?_
  cases continuation with
  | goOn index constraint? stack => exact rest.metered _ _ _ _
  | exit exit => exact .steady (.pure _)

/-- The rounds that are left cover the instructions that are left. -/
theorem metered_execute (bounded : limits.Within longer) (beyond : Beyond)
    (runs : ∀ activation, Metered module limits longer depth 0 (run activation)
      (other activation))
    (code : MethodCode) (scope : Scope) (frame : Nat) {rounds more : Nat}
    (left : limits.instructions + 2 ≤ least + rounds) (le : rounds ≤ more) :
    MeteredCode module limits longer depth least (execute run code scope frame rounds)
      (beyond.executeWithin other code scope frame more) := by
  induction rounds generalizing least more with
  | zero =>
      have spent : limits.instructions < least := by omega
      exact ⟨fun _ _ _ _ => .of_lt spent, fun _ _ _ _ machine _ _ enough within =>
        absurd (Nat.le_trans enough within) (Nat.not_le.mpr spent)⟩
  | succ rounds ih =>
      obtain ⟨more, rfl⟩ : ∃ fewer, more = fewer + 1 := ⟨more - 1, by omega⟩
      have rest : MeteredCode module limits longer depth (least + 1)
          (execute run code scope frame rounds)
          (beyond.executeWithin other code scope frame more) :=
        ih (by omega) (by omega)
      -- What an instruction leads to comes after it is counted.
      have counted := metered_executeCounted
        (fun activation => (runs activation).weaken (Nat.zero_le (least + 1))) rest
        (fun runBlock block? => dispatch runBlock code.clauses frame block? rounds)
        (fun runBlock block? => beyond.dispatchWithin runBlock code.clauses frame block? more)
        (fun block? raised =>
          metered_dispatch beyond (rest.blocks code) _ _ _ (by omega) (by omega) raised)
        scope frame
      rw [execute_eq_round, Beyond.executeWithin]
      refine ⟨fun block? index constraint? stack => ?_, fun block? index constraint? stack => ?_⟩
      · unfold executeRound
        cases code.instructions[index]? with
        | none => exact .steady (.throw _)
        | some instruction => exact metered_tick_bind bounded (counted _ _ _ _ _)
      · unfold executeRound
        cases code.instructions[index]? with
        | none => exact fun _ _ _ _ _ _ thrown => by cases thrown
        | some instruction => exact costs_tick_bind bounded (counted _ _ _ _ _)

theorem metered_executeFrom
    {first second : Option Block → Nat → Option Token → List Value → Exec BlockExit}
    (executed : MeteredCode module limits longer depth least first second) (code : MethodCode) :
    Metered module limits longer depth least (executeFrom code first)
      (executeFrom code second) := by
  refine .bind (.steady (steady_position _ _)) fun start =>
    .bind (executed.metered _ _ _ _) fun exit => ?_
  cases exit with
  | returned value => exact .steady (.pure _)
  | _ => exact .steady (.throw _)

end Exec

end Cil
