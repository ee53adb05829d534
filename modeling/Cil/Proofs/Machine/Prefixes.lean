import Cil.Machine.Execution
import Cil.Proofs.Machine.Running
import Mathlib.Data.List.Induction

/-!
# Constraints of calls

A `constrained.` mark names the type on whose behalf the next instruction is executed.  Other
prefixes may stand between the two, and every other instruction uses the mark up.
-/

namespace Cil

/-- A prefix that says something about the next instruction and names no type. -/
def Opcode.isModifier : Opcode → Bool
  | .readonly | .volatile | .tail | .unaligned => true
  | _ => false

/-! ## Marks in a row of instructions -/

/-- A row of instructions ends in a `constrained.` mark of a type and instructions behind it
that keep the mark. -/
def MarkedThrough (keeps : Opcode → Bool) (type : Token) (row : List Instruction) : Prop :=
  ∃ front mark between, row = front ++ mark :: between ∧ mark.opcode = .constrained ∧
    mark.token? = some type ∧ ∀ other ∈ between, keeps other.opcode

namespace MarkedThrough

variable {keeps : Opcode → Bool} {type : Token} {row : List Instruction} {last : Instruction}

theorem of_mark (isMark : last.opcode = .constrained) (names : last.token? = some type) :
    MarkedThrough keeps type (row ++ [last]) :=
  ⟨row, last, [], rfl, isMark, names, by simp⟩

theorem append (marked : MarkedThrough keeps type row) (kept : keeps last.opcode) :
    MarkedThrough keeps type (row ++ [last]) := by
  obtain ⟨front, mark, between, rfl, isMark, names, keepsAll⟩ := marked
  refine ⟨front, mark, between ++ [last], by simp, isMark, names, fun other member => ?_⟩
  rcases List.mem_append.mp member with inside | isLast
  · exact keepsAll other inside
  · obtain rfl := List.mem_singleton.mp isLast
    exact kept

/-- The last instruction is the mark or keeps it. -/
theorem last_cases (marked : MarkedThrough keeps type (row ++ [last])) :
    last.opcode = .constrained ∧ last.token? = some type ∨
      keeps last.opcode ∧ MarkedThrough keeps type row := by
  obtain ⟨front, mark, between, same, isMark, names, keepsAll⟩ := marked
  rcases List.eq_nil_or_concat between with rfl | ⟨others, final, rfl⟩
  · obtain ⟨rfl, sameLast⟩ := List.append_inj' same rfl
    obtain rfl := List.singleton_inj.mp sameLast
    exact .inl ⟨isMark, names⟩
  · rw [List.concat_eq_append, ← List.cons_append, ← List.append_assoc] at same
    obtain ⟨rfl, sameLast⟩ := List.append_inj' same rfl
    obtain rfl := List.singleton_inj.mp sameLast
    refine .inr ⟨keepsAll last (by simp), front, mark, others, rfl, isMark, names,
      fun other member => keepsAll other (by simp [member])⟩

theorem not_nil : ¬ MarkedThrough keeps type [] := by
  rintro ⟨front, mark, between, same, -⟩
  simp at same

end MarkedThrough

/-- What is left of a mark behind a row of instructions, some of which keep it. -/
theorem markedThrough_iff {keeps : Opcode → Bool}
    {behind : Option Token → Instruction → Option Token}
    (behindEq : ∀ mark? instruction, behind mark? instruction =
      if instruction.opcode = .constrained then instruction.token?
      else if keeps instruction.opcode then mark? else none)
    (noMark : keeps .constrained = false) (row : List Instruction) (type : Token) :
    row.foldl behind none = some type ↔ MarkedThrough keeps type row := by
  induction row using List.reverseRecOn with
  | nil => simp [MarkedThrough.not_nil]
  | append_singleton row last ih =>
      rw [List.foldl_append, List.foldl_cons, List.foldl_nil, behindEq]
      constructor
      · intro left
        split at left
        · rename_i isMark
          exact .of_mark isMark left
        · split at left
          · rename_i kept
            exact (ih.mp left).append kept
          · cases left
      · intro marked
        rcases marked.last_cases with ⟨isMark, names⟩ | ⟨kept, marked⟩
        · rw [if_pos isMark, names]
        · have other : last.opcode ≠ .constrained := by
            rintro isMark
            rw [isMark, noMark] at kept
            cases kept
          rw [if_neg other, if_pos kept, ih.mpr marked]

namespace Exec

variable {run : Runner} {code : MethodCode} {scope : Scope} {frame : Nat} {context : Context}

/-! ## Execution on behalf of types -/

/-- The constraint under which the instruction behind another one is executed. -/
def constraintBehind (constraint? : Option Token) (instruction : Instruction) :
    Option Token :=
  match instruction.opcode.action? with
  | some .mark => constraint?
  | some .constrain => instruction.token?
  | _ => none

theorem constraintBehind_eq (constraint? : Option Token) (instruction : Instruction) :
    constraintBehind constraint? instruction =
      if instruction.opcode = .constrained then instruction.token?
      else if instruction.opcode.isModifier then constraint? else none := by
  unfold constraintBehind
  cases instruction.opcode <;> rfl

/-- Execution goes on with the next instruction under a constraint, if it does. -/
def GoesOnUnder (constraint? : Option Token) (action : Exec Effect) : Prop :=
  ∀ context machine stack found? final,
    action context machine = .ok (.next stack found?) final → found? = constraint?

namespace GoesOnUnder

variable {constraint? : Option Token} {α : Type}

theorem bind {first : Exec α} {next : α → Exec Effect}
    (goesOn : ∀ value, GoesOnUnder constraint? (next value)) :
    GoesOnUnder constraint? (first >>= next) := by
  intro context machine stack found? final ran
  obtain ⟨value, middle, _, ran⟩ := bind_ok_iff.mp ran
  exact goesOn value context middle stack found? final ran

theorem next (stack : List Value) :
    GoesOnUnder constraint? (pure (.next stack constraint?)) := by
  intro _ _ _ _ _ ran
  cases ran
  rfl

theorem elsewhere {effect : Effect} (leaves : ∀ stack found?, effect ≠ .next stack found?) :
    GoesOnUnder constraint? (pure effect) := by
  intro _ _ stack found? _ ran
  exact absurd (pure_ok_iff.mp ran).1 (leaves stack found?)

theorem throw (error : Error) : GoesOnUnder constraint? (throw error) := nofun

theorem raise (type : Token) (message? : Option String) :
    GoesOnUnder constraint? (raise type message?) := fun _ _ _ _ _ ran =>
  absurd ran raise_ne_ok

end GoesOnUnder

/-- An instruction that goes on with the next one leaves it the constraint. -/
theorem goesOnUnder_step (run : Runner) (clauses : List Clause) (scope : Scope) (frame : Nat)
    (instruction : Instruction) (constraint? : Option Token) (stack : List Value) :
    GoesOnUnder (constraintBehind constraint? instruction)
      (step run clauses scope frame instruction constraint? stack) := by
  unfold step constraintBehind
  cases acts : instruction.opcode.action? with
  | none => exact .throw _
  | some action =>
      have straight : GoesOnUnder none (do
          let stack ← stepStraight run scope frame instruction constraint? stack action
          return Effect.next stack) :=
        .bind fun _ => .next _
      cases action with
      | mark => exact .next stack
      | constrain =>
          intro context machine following found? final ran
          obtain ⟨type, middle, named, ran⟩ := bind_ok_iff.mp ran
          cases ran
          unfold tokenOperand operand at named
          cases isToken : instruction.token? with
          | none => rw [isToken] at named; cases named
          | some token => rw [isToken] at named; cases named; rfl
      | returnValue => exact .elsewhere (by simp)
      | jump | leave => exact .bind fun _ => .elsewhere (by simp)
      | jumpIf expected =>
          refine .bind fun popped => ?_
          dsimp only
          split
          · exact .bind fun _ => .elsewhere (by simp)
          · exact .next _
      | jumpWhen condition =>
          refine .bind fun popped => .bind fun holds => ?_
          dsimp only
          split
          · exact .bind fun _ => .elsewhere (by simp)
          · exact .next _
      | select =>
          refine .bind fun popped => .bind fun selector => ?_
          dsimp only
          split
          · exact .next _
          · split
            · exact .elsewhere (by simp)
            · exact .next _
      | endFinally => exact .elsewhere (by simp)
      | endFilter => exact .bind fun _ => .elsewhere (by simp)
      | throw =>
          refine .bind fun popped => ?_
          dsimp only
          split
          · exact .elsewhere (by simp)
          · exact .raise _ _
          · exact .throw _
      | rethrow => exact .bind fun _ => .elsewhere (by simp)
      | _ => exact straight

/-- A managed exception is no way to go on with the next instruction. -/
theorem goesOnUnder_effect (run : Runner) (code : MethodCode) (scope : Scope) (frame : Nat)
    (instruction : Instruction) (constraint? : Option Token) (stack : List Value) :
    GoesOnUnder (constraintBehind constraint? instruction)
      (effect run code scope frame instruction constraint? stack) := by
  intro context machine following found? final ran
  obtain ⟨outcome, middle, caught, ran⟩ := bind_ok_iff.mp ran
  cases outcome with
  | error exception => cases ran
  | ok effect =>
      cases ran
      exact goesOnUnder_step run code.clauses scope frame instruction constraint? stack context
        machine following found? final (catchThrown_ok_iff.mp caught)

/-! ## Straight-line execution -/

/-- Execution comes to an instruction with a constraint, a stack and a machine: in the order
of the code, from an instruction that no mark stands in front of. -/
inductive Straight (run : Runner) (code : MethodCode) (scope : Scope) (frame : Nat)
    (context : Context) : (index : Nat) → Option Token → List Value → Machine → Prop
  | enter {index : Nat} (stack : List Value) (machine : Machine)
      (unmarked : ∀ type,
        ¬ MarkedThrough Opcode.isModifier type (code.instructions.toList.take index)) :
      Straight run code scope frame context index none stack machine
  | next {index : Nat} {constraint? following? : Option Token} {stack following : List Value}
      {machine final : Machine} {instruction : Instruction}
      (reached : Straight run code scope frame context index constraint? stack machine)
      (found : code.instructions[index]? = some instruction)
      (goesOn : (do tick; effect run code scope frame instruction constraint? stack) context
        machine = .ok (.next following following?) final) :
      Straight run code scope frame context (index + 1) following? following final

theorem Straight.enter_of_fold {index : Nat} (stack : List Value) (machine : Machine)
    (unmarked : (code.instructions.toList.take index).foldl constraintBehind none = none) :
    Straight run code scope frame context index none stack machine := by
  refine .enter stack machine fun type marked => ?_
  have left := (markedThrough_iff constraintBehind_eq rfl _ type).mpr marked
  rw [unmarked] at left
  cases left

/-- Where an instruction goes on with the next one, so does the execution of the code. -/
theorem execute_of_next {rounds index : Nat} {block? : Option Block}
    {constraint? following? : Option Token} {stack following : List Value}
    {machine final : Machine} {instruction : Instruction}
    (found : code.instructions[index]? = some instruction)
    (goesOn : (do tick; effect run code scope frame instruction constraint? stack) context
      machine = .ok (.next following following?) final) :
    execute run code scope frame (rounds + 1) block? index constraint? stack context machine =
      execute run code scope frame rounds block? (index + 1) following? following context
        final := by
  obtain ⟨_, ticked, tickRan, effectRan⟩ := bind_ok_iff.mp goesOn
  rw [execute, found]
  dsimp only
  rw [bind_of_ok tickRan, bind_of_ok effectRan]
  rfl

/-- The constraint of an instruction that straight-line execution comes to is the type of the
mark that is kept in front of it. -/
theorem Straight.constraint_iff {index : Nat} {constraint? : Option Token}
    {stack : List Value} {machine : Machine}
    (straight : Straight run code scope frame context index constraint? stack machine)
    (type : Token) :
    constraint? = some type ↔
      MarkedThrough Opcode.isModifier type (code.instructions.toList.take index) := by
  have iffFold (row : List Instruction) (type : Token) :=
    markedThrough_iff constraintBehind_eq rfl row type
  have same : constraint? =
      (code.instructions.toList.take index).foldl constraintBehind none := by
    induction straight with
    | enter stack machine unmarked =>
        refine (Option.eq_none_iff_forall_ne_some.mpr fun type isSome => ?_).symm
        exact unmarked type ((iffFold _ type).mp isSome)
    | next _ found goesOn ih =>
        obtain ⟨_, _, _, effectRan⟩ := bind_ok_iff.mp goesOn
        rw [Array.getElem?_eq_some_iff] at found
        obtain ⟨inside, rfl⟩ := found
        rw [List.take_succ_eq_append_getElem (by simpa using inside), List.foldl_append, ← ih]
        exact goesOnUnder_effect _ _ _ _ _ _ _ _ _ _ _ _ effectRan
  rw [same]
  exact iffFold _ type

end Exec

end Cil
