import Cil.Proofs.Machine.MirroredExecution

/-!
# Transfers of control in code that stands for other code

An instruction that transfers control and the one in its place send control to a target and to
the place of that target, or end the block or the call in the same way.  A managed exception that
both throw is an effect of both.
-/

namespace Cil

open MonadExcept (ofExcept)

/-- Whether an action may send control elsewhere. -/
def Action.transfers : Action → Bool
  | .returnValue | .jump | .jumpIf _ | .jumpWhen _ | .select | .leave | .endFinally | .endFilter
  | .throw | .rethrow => true
  | _ => false

/-- Whether an action leaves a mark for the next instruction. -/
def Action.marks : Action → Bool
  | .mark | .constrain => true
  | _ => false

namespace Exec

/-- An instruction that neither transfers control nor leaves a mark goes on with the next one. -/
theorem step_of_straight {run : Runner} {clauses : List Clause} {scope : Scope} {frame : Nat}
    {instruction : Instruction} {constraint? : Option Token} {stack : List Value}
    {action : Action} (acts : instruction.opcode.action? = some action)
    (stays : action.transfers = false) (unmarked : action.marks = false) :
    step run clauses scope frame instruction constraint? stack = (do
      return .next (← stepStraight run scope frame instruction constraint? stack action)) := by
  unfold step
  rw [acts]
  cases action <;>
    first | rfl | nomatch (stays : true = false) | nomatch (unmarked : true = false)

/-- Effects that managed exceptions may be. -/
theorem tallies_effect {comparison : Comparison} {bond : Bond} {translation : Translation}
    {code : MethodCode} {index : Nat} {first second : Exec Effect} {one two : Machine}
    (tallies : comparison.Tallies bond (Effects translation code index)
      (first comparison.first one) (second comparison.second two)) :
    comparison.Tallies bond (Effects translation code index)
      ((do
        match ← catchThrown first with
        | .ok effect => return effect
        | .error exception => return .thrown exception : Exec Effect) comparison.first one)
      ((do
        match ← catchThrown second with
        | .ok effect => return effect
        | .error exception => return .thrown exception : Exec Effect) comparison.second two) := by
  refine tallies.catchThrown.bind_run (fun outcome other middle final related holds _ => ?_)
    fun _ _ => id
  rcases related.cases with ⟨effect, otherEffect, rfl, rfl, effects⟩ | ⟨exception, rfl, rfl⟩
  · exact .value effects holds
  · exact .value (.thrown exception) holds

section Transfers

variable {comparison : Comparison} {standing : Guises} {tables : CodeBond}
  {translation : Translation} {code image : MethodCode} {index : Nat}
  {instruction row : Instruction}

/-- What an instruction leads to lies where control may be sent. -/
theorem destination_of_target (listed : instruction ∈ code.instructions) {target : Nat}
    (leads : target ∈ instruction.targets) : code.Destination target :=
  .inr ⟨instruction, listed, leads⟩

variable (leads : row.targets = instruction.targets.map translation.place)
  (listed : instruction ∈ code.instructions)

include leads listed

theorem tally_branchTarget {bond : Bond} :
    comparison.Tally bond
      (fun target other => code.Destination target ∧ other = translation.place target)
      (branchTarget instruction) (branchTarget row) := by
  unfold branchTarget
  rw [leads]
  cases found : instruction.targets with
  | nil => exact .throw rfl (by simp [Error.kind])
  | cons target rest =>
      exact .pure ⟨destination_of_target listed (by rw [found]; simp), rfl⟩

theorem tally_jump {bond : Bond} (stack : List Value) :
    comparison.Tally bond (Effects translation code index)
      (do return .jump (← branchTarget instruction) stack)
      (do return .jump (← branchTarget row) stack) := by
  refine (tally_branchTarget leads listed).bind fun target other ⟨destination, place⟩ => ?_
  subst place
  exact .pure (.jump destination stack)

variable {guise : Guise} {frame : Nat} (isGuise : standing[frame]? = some guise)
  (sameHandlers : guise.handlers = translation.Handlers) (sound : translation.Sound code image)
  (located : translation.Located instruction.offset row.offset)
  (next : translation.Marks (index + 1) none none)

include isGuise sameHandlers sound located next

theorem tally_stepTransfer {run other : Runner} {scope otherScope : Scope}
    {mark? otherMark? : Option Token} {action : Action}
    (acts : instruction.opcode.action? = some action)
    (sameAction : row.opcode.action? = some action) (transfers : action.transfers = true)
    (stack : List Value) :
    comparison.Tally (standing.bond tables) (Effects translation code index)
      (step run code.clauses scope frame instruction mark? stack)
      (step other image.clauses otherScope frame row otherMark? stack) := by
  have goesOn (stack : List Value) : comparison.Tally (standing.bond tables)
      (Effects translation code index) (pure (Effect.next stack)) (pure (Effect.next stack)) :=
    .pure (.next stack next)
  unfold step
  rw [acts, sameAction]
  cases action with
  | returnValue => exact .pure (.returned _)
  | jump => exact tally_jump leads listed stack
  | jumpIf expected =>
      refine .share (tally_pop stack) ?_
      rintro ⟨value, rest⟩ _
      dsimp only
      split
      · exact tally_jump leads listed rest
      · exact goesOn rest
  | jumpWhen condition =>
      refine .share (tally_popPair stack) ?_
      rintro ⟨left, right, rest⟩ _
      refine (tally_orFault (left.satisfy condition right)).seq fun satisfied => ?_
      split
      · exact tally_jump leads listed rest
      · exact goesOn rest
  | select =>
      refine .share (tally_pop stack) ?_
      rintro ⟨selector, rest⟩ _
      refine .seq (.ofExcept _) fun selector => ?_
      split
      · exact goesOn rest
      · rw [leads, List.getElem?_map]
        cases found : instruction.targets[selector.toInt.toNat]? with
        | none => exact goesOn rest
        | some target =>
            exact .pure (.jump (destination_of_target listed (List.mem_of_getElem? found)) rest)
  | leave =>
      refine (tally_branchTarget leads listed).bind fun target other ⟨destination, place⟩ => ?_
      subst place
      exact .pure (.leave destination)
  | endFinally => exact .pure .endFinally
  | endFilter =>
      refine .share (tally_pop stack) ?_
      rintro ⟨value, rest⟩ _
      exact .pure (.endFilter _)
  | throw =>
      refine .share (tally_pop stack) ?_
      rintro ⟨value, rest⟩ _
      cases value with
      | object exception => exact .pure (.thrown exception)
      | null => exact tally_nullReference
      | _ => exact .throw rfl (by simp [Error.kind])
  | rethrow =>
      exact (tally_rethrown isGuise sameHandlers sound located).seq fun exception =>
        .pure (.thrown exception)
  | _ => cases transfers

end Transfers

end Exec

end Cil
