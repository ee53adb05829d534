import Cil.Proofs.Isolation.ParallelSteps

/-!
# Call sites of a plain thread and of an isolated one

What an instruction that names a method does with its arguments depends on the kind of the call
alone.  Where the isolated thread executes the same instruction, it does the same.
-/

namespace Cil

open MonadExcept (ofExcept)

/-- What calls of a kind do with a method and its arguments. -/
def StubKind.perform (kind : StubKind) (run : Runner) (method : MethodDef)
    (arguments : List Value) : Exec Value := do
  match kind, arguments with
  | .call, _ => Exec.callMethod run method arguments
  | .virtual, _ => Exec.virtualCall run none method arguments
  | .constrained constraint, _ => Exec.virtualCall run (some constraint) method arguments
  | .construct, _ => Exec.construct run method arguments
  | .functionPointer, _ => Exec.newFunction (.method method)
  | .virtualFunctionPointer, receiver :: _ =>
    Exec.newFunction (.method (← Exec.virtualTarget receiver method))
  | .virtualFunctionPointer, [] => Exec.nullReference

namespace Exec

variable {instruction : Instruction} {constraint? : Option Token} {kind : StubKind}

/-- An instruction that names a method takes the arguments, makes a call of its kind and leaves
the result. -/
theorem stepCall_eq (run : Runner) (scope : Scope) (stack : List Value)
    (isKind : StubKind.ofOpcode? instruction.opcode constraint? = some kind) :
    stepCall run scope instruction constraint? stack = (do
      match ← callTarget scope (← tokenOperand instruction) with
      | .native provided =>
        let (arguments, stack) ← popArguments instruction provided.params.length stack
        let result ← run (.native provided arguments)
        return pushResult provided.signature.hasResult result stack
      | .method method =>
        let (arguments, stack) ← popArguments instruction (kind.effect method).1 stack
        let result ← kind.perform run method arguments
        return pushResult (kind.effect method).2 result stack) := by
  refine bind_congr fun token => bind_congr fun target => ?_
  cases target with
  | native provided => rfl
  | method method =>
      unfold StubKind.ofOpcode? at isKind
      split at isKind <;> cases isKind <;> rename_i isOpcode <;> dsimp only <;> rw [isOpcode]
      · rfl
      · rfl
      · rfl
      · rfl
      · rfl
      · cases stack with
        | nil => rfl
        | cons receiver rest =>
            have popped : popArguments instruction 1 (receiver :: rest) =
                pure ([receiver], rest) := by
              unfold popArguments
              rw [if_neg (by simp)]
              rfl
            simp only [StubKind.effect, popped, pop, pure_bind, StubKind.perform, bind_assoc]
            rfl

theorem tokenOperand_ok_iff {context : Context} {machine final : Machine} {token : Token} :
    tokenOperand instruction context machine = .ok token final ↔
      instruction.token? = some token ∧ machine = final := by
  unfold tokenOperand operand
  cases instruction.token? with
  | some named => rw [pure_ok_iff, Option.some.injEq]
  | none =>
      constructor
      · intro ran
        cases ran
      · simp

/-- What a token of the module names is a method that the module knows, in every scope. -/
theorem tally_callTarget {comparison : Comparison} {bond : Bond} {token : Token} {scope : Scope}
    (same : scope = {} ∨ token.isDynamic = false) :
    comparison.Tally bond (fun target other => target = other ∧
        ∃ method, target = .method method ∧ comparison.first.module.Knows method)
      (callTarget {} token) (callTarget scope token) := by
  have names : comparison.Tally bond (fun target other => target = other ∧
        ∃ method, target = .method method ∧ comparison.first.module.Knows method)
      (do return CallTarget.method (← ofExcept ((← module).method token)))
      (do return CallTarget.method (← ofExcept ((← module).method token))) := by
    refine .module_bind ?_
    cases found : comparison.first.module.method token with
    | ok method => exact .pure ⟨rfl, method, rfl, .inr ⟨token, found⟩⟩
    | error error => exact .throwSame error
  unfold callTarget
  cases isDynamic : token.isDynamic with
  | false => exact names
  | true =>
      obtain rfl := same.resolve_right (by simp [isDynamic])
      have missing : Scope.find? {} token = none := by
        unfold Scope.find?
        cases token.indexIn? .dynamic <;> rfl
      rw [missing]
      exact .throwSame _

theorem resolved_cases {context : Context} {machine final : Machine} {receiver : Value}
    {method target : MethodDef} (ran : (do
      match ← runtimeType? receiver with
      | some type => ofExcept ((← module).resolveVirtual type method)
      | none => return method : Exec MethodDef) context machine = .ok target final) :
    target = method ∨ ∃ type, context.module.resolveVirtual type method = .ok target := by
  obtain ⟨type?, _, _, ran⟩ := bind_ok_iff.mp ran
  cases type? with
  | none => exact .inl (pure_ok_iff.mp ran).1.symm
  | some type =>
      obtain ⟨module, _, isModule, ran⟩ := bind_ok_iff.mp ran
      cases isModule
      exact .inr ⟨type, (ofExcept_ok_iff.mp ran).1⟩

/-- The method that a virtual function pointer leads to is the method itself, or what it resolves
to. -/
theorem virtualTarget_cases {context : Context} {machine final : Machine} {receiver : Value}
    {method target : MethodDef}
    (ran : virtualTarget receiver method context machine = .ok target final) :
    target = method ∨ ∃ type, context.module.resolveVirtual type method = .ok target := by
  unfold virtualTarget at ran
  by_cases isNull : receiver.isNull = true
  · rw [if_pos isNull] at ran
    obtain ⟨_, _, _, ran⟩ := bind_ok_iff.mp ran
    exact resolved_cases ran
  · rw [if_neg isNull] at ran
    exact resolved_cases ran

section Alike

variable {comparison : Comparison} {standing : Guises} {enclosure : Enclosure}
  {one two : Machine} (isolates : comparison.Isolates enclosure) {run other : Runner}
  (alike : comparison.RunsAlike enclosure run other) {arguments : List Value}
  (holds : (standing.bond enclosure.parallel).Holds one two)

include holds in
/-- Both threads make a function pointer. -/
theorem tallies_newFunction {callable otherCallable : Callable}
    (binds : enclosure.Binds callable otherCallable) :
    comparison.Tallies (standing.bond enclosure.parallel) Eq
      (newFunction callable comparison.first one)
      (newFunction otherCallable comparison.second two) := by
  have sameSize : two.functions.size = one.functions.size := holds.2.functions.length_eq.symm
  change comparison.Tallies _ _ (.ok (Value.function ⟨one.functions.size⟩) _)
    (.ok (Value.function ⟨two.functions.size⟩) _)
  rw [sameSize]
  exact .value rfl ⟨holds.1.of_same ⟨rfl, rfl, rfl, rfl⟩ ⟨rfl, rfl, rfl, rfl⟩,
    holds.2.addFunction binds⟩

include isolates alike holds

/-- Both threads make a call of a kind. -/
theorem tallies_perform {method : MethodDef} (knows : enclosure.module.Knows method)
    (spared : ∀ value ∈ arguments, standing.SparesValue value)
    (allows : Allows (callsPlainly kind method arguments) comparison.first one) :
    comparison.Tallies (standing.bond enclosure.parallel) Eq
      (kind.perform run method arguments comparison.first one)
      (kind.perform other method arguments comparison.second two) := by
  cases kind with
  | call => exact tally_callMethod isolates alike knows spared one two holds
  | virtual => exact tallies_virtualCall isolates alike holds knows none spared nofun
  | constrained constraint =>
      refine tallies_virtualCall isolates alike holds knows (some constraint) spared
        fun receiver isFirst => ?_
      cases arguments with
      | nil => cases isFirst
      | cons first others =>
          cases isFirst
          intro given middle plans isSome
          exact (passesPlainly_of_allows allows).object plans isSome
  | construct => exact tally_construct isolates alike knows spared one two holds
  | functionPointer => exact tallies_newFunction holds (.same knows)
  | virtualFunctionPointer =>
      cases arguments with
      | nil => exact tally_nullReference one two holds
      | cons receiver others =>
          refine (mirrored_virtualTarget receiver method one two holds).seq_run
            fun target middle final after found => ?_
          have knowsTarget : enclosure.module.Knows target := by
            rcases virtualTarget_cases found with rfl | ⟨type, resolved⟩
            · exact knows
            · exact knows.of_resolveVirtual (isolates.module ▸ resolved)
          exact tallies_newFunction after (.same knowsTarget)

/-- Both threads execute an instruction that names a method. -/
theorem tallies_stepCall {image : Instruction} {scope : Scope} {stack : List Value}
    (same : instruction.SameForm image)
    (sameScope : scope = {} ∨ ∀ token, instruction.token? = some token → token.isDynamic = false)
    (isKind : StubKind.ofOpcode? instruction.opcode constraint? = some kind)
    (spared : ∀ value ∈ stack, standing.SparesValue value)
    (allows : Allows (namesPlainly {} instruction constraint? stack) comparison.first one) :
    comparison.Tallies (standing.bond enclosure.parallel) Eq
      (stepCall run {} instruction constraint? stack comparison.first one)
      (stepCall other scope image constraint? stack comparison.second two) := by
  rw [stepCall_eq run {} stack isKind, stepCall_eq other scope stack (same.opcode ▸ isKind)]
  rw [namesPlainly, isKind] at allows
  dsimp only at allows
  refine Comparison.Tally.seq_still (fun _ => tally_tokenOperand same) holds fun token ran => ?_
  have sameScope := sameScope.imp_right fun spared => spared token (tokenOperand_ok_iff.mp ran).1
  have allows := allows.after ran
  refine Comparison.Tally.share_still (fun _ => tally_callTarget sameScope) holds ?_
  rintro _ ⟨method, rfl, knows⟩ ran
  have allows := allows.after ran
  dsimp only at allows ⊢
  refine Comparison.Tally.share_still (fun _ => tally_popArguments _ stack) holds ?_
  rintro ⟨arguments, below⟩ ⟨_, isStack⟩ ran
  have allows := allows.after ran
  dsimp only at allows isStack ⊢
  refine (tallies_perform isolates alike holds (isolates.module ▸ knows)
    (fun value member => spared value ?_) allows).seq_run ?_
  · rw [← isStack]
    simp [member]
  · intro result middle final after _
    exact .value rfl after

end Alike

end Exec

end Cil
