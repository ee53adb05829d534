import Cil.Proofs.Machine.LimitedCode
import Cil.Proofs.Machine.MirroredCode

/-!
# Executing code that stands for other code

If the rows of code do what the instructions do for which they stand, then the execution of the
one code tallies with the execution of the other, on threads that count neither instructions nor
calls.  A row is empty, or one instruction, or two of which the first one only prepares the
second.  So the second thread may need twice as many rounds, and the first thread as many more as
there are empty rows on the way.
-/

namespace Cil

open MonadExcept (ofExcept)

namespace Comparison

/-- Neither thread counts its instructions or its calls. -/
structure Unlimited (comparison : Comparison) : Prop where
  instructions : comparison.first.limits.instructions = 0
  otherInstructions : comparison.second.limits.instructions = 0
  calls : comparison.first.limits.callDepth = 0
  otherCalls : comparison.second.limits.callDepth = 0

/-- The rounds of both threads suffice for code of a size, from an index on, where a thread that
runs out of fuel is not excused. -/
structure Paced (comparison : Comparison) (size index rounds otherRounds : Nat) : Prop where
  first : ¬ comparison.ExcusesFirst .outOfFuel →
    otherRounds * (size + 1) + (size - index) ≤ rounds
  second : ¬ comparison.ExcusesSecond .outOfFuel → 2 * rounds ≤ otherRounds

namespace Paced

variable {comparison : Comparison} {size index rounds otherRounds : Nat}

/-- An instruction without a row takes a round of the first thread only. -/
theorem dropped (paced : comparison.Paced size index (rounds + 1) otherRounds)
    (inside : index < size) : comparison.Paced size (index + 1) rounds otherRounds where
  first counts := by
    have := paced.first counts
    omega
  second counts := by
    have := paced.second counts
    omega

/-- Any other one takes a round of both threads. -/
theorem round (paced : comparison.Paced size index (rounds + 1) (otherRounds + 1)) (next : Nat) :
    comparison.Paced size next rounds otherRounds where
  first counts := by
    have := paced.first counts
    rw [Nat.succ_mul] at this
    omega
  second counts := by
    have := paced.second counts
    omega

/-- The second thread may take two rounds. -/
theorem twoRounds (paced : comparison.Paced size index (rounds + 1) (otherRounds + 2))
    (next : Nat) : comparison.Paced size next rounds otherRounds where
  first counts := by
    have := paced.first counts
    rw [Nat.succ_mul, Nat.succ_mul] at this
    omega
  second counts := by
    have := paced.second counts
    omega

/-- Rounds that suffice from the start on suffice from anywhere on. -/
theorem anywhere (paced : comparison.Paced size 0 rounds otherRounds) (next : Nat) :
    comparison.Paced size next rounds otherRounds where
  first counts := by
    have := paced.first counts
    omega
  second := paced.second

/-- The second thread runs out of fuel only where that is excused. -/
theorem excusesSecond (paced : comparison.Paced size index (rounds + 1) otherRounds)
    (few : otherRounds < 2) : comparison.ExcusesSecond .outOfFuel := by
  by_contra counts
  have := paced.second counts
  omega

theorem enough (paced : comparison.Paced size index rounds otherRounds) :
    comparison.Enough rounds otherRounds where
  left counts := by
    have := paced.second counts
    omega
  right counts := by
    have := paced.first counts
    rw [Nat.mul_succ] at this
    omega

end Paced

variable {α β γ : Type} {comparison : Comparison} {bond : Bond} {values : α → β → Prop}

/-- A piece of the first thread gives a value and changes nothing, unless it is excused. -/
def Silent (comparison : Comparison) (action : Exec γ) (value : γ) : Prop :=
  ∀ machine, (∃ error final, action comparison.first machine = .error error final ∧
      comparison.ExcusesFirst error) ∨
    action comparison.first machine = .ok value machine

theorem Tally.after_silent {action : Exec γ} {value : γ} {next : γ → Exec α} {other : Exec β}
    (silent : comparison.Silent action value)
    (tally : comparison.Tally bond values (next value) other) :
    comparison.Tally bond values (action >>= next) other := by
  intro one two holds
  rcases silent one with ⟨error, final, failed, excused⟩ | ran
  · rw [Exec.bind_run, failed]
    exact .first excused
  · rw [Exec.bind_of_ok ran]
    exact tally one two holds

end Comparison

namespace Exec

/-! ## Counting instructions -/

section Ticks

variable {α β : Type} {values : α → β → Prop} {comparison : Comparison} {standing : Guises}
  {tables : CodeBond} {first : Exec α} {second : Exec β}
  (unlimited : comparison.Unlimited)
  (tally : comparison.Tally (standing.bond tables) values first second)

include unlimited tally

theorem tally_tick :
    comparison.Tally (standing.bond tables) values (tick >>= fun _ => first) second := by
  intro one two holds
  rw [bind_run, tick_run, unlimited.instructions, if_neg (by simp)]
  exact tally _ _ ⟨holds.1.of_same ⟨rfl, rfl, rfl, rfl⟩ ⟨rfl, rfl, rfl, rfl⟩,
    tables.kept holds.2 ⟨rfl, rfl, rfl, rfl⟩ (.refl _)⟩

theorem tally_otherTick :
    comparison.Tally (standing.bond tables) values first (tick >>= fun _ => second) := by
  intro one two holds
  rw [bind_run, tick_run, unlimited.otherInstructions, if_neg (by simp)]
  exact tally _ _ ⟨holds.1.of_same ⟨rfl, rfl, rfl, rfl⟩ ⟨rfl, rfl, rfl, rfl⟩,
    tables.kept holds.2 (.refl _) ⟨rfl, rfl, rfl, rfl⟩⟩

end Ticks

/-! ## Rows -/

/-- What an instruction does, with care. -/
def carefulEffect (care : Care) (run : Runner) (code : MethodCode) (scope : Scope) (frame : Nat)
    (instruction : Instruction) (constraint? : Option Token) (stack : List Value) :
    Exec Effect := do
  care.instruction scope frame instruction constraint? stack
  effect run code scope frame instruction constraint? stack

/-- The row of an instruction at an index and an offset does what the instruction does, where
these marks wait for it. -/
inductive RowTallies (comparison : Comparison) (bond : Bond) (translation : Translation)
    (code image : MethodCode) (index offset : Nat) (otherMark? : Option Token)
    (does : List Value → Exec Effect)
    (otherDoes : Instruction → Option Token → List Value → Exec Effect) : Prop
  | dropped {mark? : Option Token}
      (start : translation.start (index + 1) = translation.start index)
      (marks : translation.Marks (index + 1) mark? otherMark?)
      (silent : ∀ stack, comparison.Silent (does stack) (.next stack mark?)) :
      RowTallies comparison bond translation code image index offset otherMark? does otherDoes
  | single {row : Instruction}
      (found : image.instructions[translation.start index]? = some row)
      (next : translation.start index + 1 = translation.start (index + 1))
      (located : translation.Located offset row.offset)
      (tallies : ∀ stack, comparison.Tally bond (Effects translation code index) (does stack)
        (otherDoes row otherMark? stack)) :
      RowTallies comparison bond translation code image index offset otherMark? does otherDoes
  | double {row last : Instruction}
      (found : image.instructions[translation.start index]? = some row)
      (foundLast : image.instructions[translation.start index + 1]? = some last)
      (next : translation.start index + 2 = translation.start (index + 1))
      (located : translation.Located offset last.offset)
      (tallies : ∀ stack, ∃ mark? prepared,
        (∀ one two, bond.Holds one two → otherDoes row otherMark? stack comparison.second two =
          .ok (.next prepared mark?) two) ∧
        comparison.Tally bond (Effects translation code index) (does stack)
          (otherDoes last mark? prepared)) :
      RowTallies comparison bond translation code image index offset otherMark? does otherDoes

/-! ## Execution -/

section Execution

variable {comparison : Comparison} (unlimited : comparison.Unlimited) {standing : Guises}
  {tables : CodeBond} {translation : Translation} {code image : MethodCode} {frame : Nat}
  {guise : Guise} (isGuise : standing[frame]? = some guise)
  (sameHandlers : guise.handlers = translation.Handlers) (sound : translation.Sound code image)
  {care : Care} {run other : Runner} {scope otherScope : Scope}

/-- What comes after the effect of an instruction, given how execution goes on. -/
def afterEffect (rest : Option Block → Nat → Option Token → List Value → Exec BlockExit)
    (code : MethodCode) (frame rounds : Nat) (block? : Option Block) (index offset : Nat)
    (effect : Effect) : Exec BlockExit := do
  match ← followBy (dispatchIn code frame rounds (blockBy code rest) block?) (blockBy code rest)
      code frame block? index offset effect with
  | .goOn index constraint? stack => rest block? index constraint? stack
  | .exit exit => return exit

/-- One round of careful execution that has found its instruction. -/
theorem executeUnder_found {rounds index : Nat} {instruction : Instruction}
    (found : code.instructions[index]? = some instruction) (block? : Option Block)
    (constraint? : Option Token) (stack : List Value) :
    executeUnder care run code scope frame (rounds + 1) block? index constraint? stack =
      tick >>= fun _ => carefulEffect care run code scope frame instruction constraint? stack >>=
        afterEffect (executeUnder care run code scope frame rounds) code frame rounds block? index
          instruction.offset := by
  rw [executeUnder, found]
  simp only [carefulEffect, bind_assoc]
  rfl

theorem executeUnder_none_found {rounds index : Nat} {instruction : Instruction}
    (found : code.instructions[index]? = some instruction) (block? : Option Block)
    (constraint? : Option Token) (stack : List Value) :
    executeUnder .none run code scope frame (rounds + 1) block? index constraint? stack =
      tick >>= fun _ => effect run code scope frame instruction constraint? stack >>=
        afterEffect (executeUnder .none run code scope frame rounds) code frame rounds block? index
          instruction.offset :=
  executeUnder_found found block? constraint? stack

theorem executeUnder_past {rounds index : Nat} (past : code.instructions[index]? = none)
    (block? : Option Block) (constraint? : Option Token) (stack : List Value) :
    executeUnder care run code scope frame (rounds + 1) block? index constraint? stack =
      throw (.malformed (.pastTheEnd code.codeSize)) := by
  rw [executeUnder, past]

include unlimited in
/-- The second thread executes an instruction that only prepares the next one. -/
theorem tally_prepared {α : Type} {values : α → BlockExit → Prop} {rounds index : Nat}
    {row : Instruction} (found : image.instructions[index]? = some row) {block? : Option Block}
    {mark? next? : Option Token} {stack prepared : List Value}
    (prepares : ∀ one two, (standing.bond tables).Holds one two →
      effect other image otherScope frame row mark? stack comparison.second two =
        .ok (.next prepared next?) two) {first : Exec α}
    (tally : comparison.Tally (standing.bond tables) values first
      (executeUnder .none other image otherScope frame rounds block? (index + 1) next?
        prepared)) :
    comparison.Tally (standing.bond tables) values first
      (executeUnder .none other image otherScope frame (rounds + 1) block? index mark? stack) := by
  rw [executeUnder_none_found found]
  refine tally_otherTick unlimited fun one two holds => ?_
  rw [bind_of_ok (prepares one two holds)]
  exact tally one two holds

/-- Executions go on alike from every index and in every block. -/
def RestsTally (comparison : Comparison) (bond : Bond) (translation : Translation)
    (code : MethodCode)
    (rest otherRest : Option Block → Nat → Option Token → List Value → Exec BlockExit) : Prop :=
  ∀ (block? : Option Block) (index : Nat) (mark? otherMark? : Option Token) (stack : List Value),
    (∀ block ∈ block?, code.HasBlock block) → index ≤ code.instructions.size →
      translation.Marks index mark? otherMark? →
        comparison.Tally bond Eq (rest block? index mark? stack)
          (otherRest (block?.map (Block.moved translation.place)) (translation.start index)
            otherMark? stack)

include sound

theorem RestsTally.blocks {bond : Bond}
    {rest otherRest : Option Block → Nat → Option Token → List Value → Exec BlockExit}
    (rests : RestsTally comparison bond translation code rest otherRest) :
    BlocksTally comparison bond translation code (blockBy code rest)
      (blockBy image otherRest) := by
  intro block stack has
  unfold blockBy position
  dsimp only [Block.moved]
  rcases sound.lands has.destination with
    ⟨missing, otherMissing⟩ | ⟨index, found, otherFound, marks⟩
  · rw [missing, otherMissing]
    exact .throw rfl (by simp [Error.kind])
  · have inside : index ≤ code.instructions.size :=
      Nat.le_of_lt (Array.findIdx?_eq_some_iff_getElem.mp found).1
    rw [found, otherFound, pure_bind, pure_bind]
    exact rests (some block) index none none stack (by simpa using has) inside marks

include isGuise sameHandlers

theorem tally_afterEffect
    {rest otherRest : Option Block → Nat → Option Token → List Value → Exec BlockExit}
    (rests : RestsTally comparison (standing.bond tables) translation code rest otherRest)
    {block? : Option Block} (within : ∀ block ∈ block?, code.HasBlock block)
    {rounds otherRounds : Nat} (enough : comparison.Enough rounds otherRounds)
    {index row offset position : Nat} (inside : index < code.instructions.size)
    (next : row + 1 = translation.start (index + 1))
    (located : translation.Located offset position) {effect other : Effect}
    (effects : Effects translation code index effect other) :
    comparison.Tally (standing.bond tables) Eq
      (afterEffect rest code frame rounds block? index offset effect)
      (afterEffect otherRest image frame otherRounds (block?.map (Block.moved translation.place))
        row position other) := by
  refine (tally_followBy isGuise sameHandlers sound (rests.blocks sound) within enough inside next
    located effects).bind fun _ _ continues => ?_
  cases continues with
  | goOn inside marks => exact rests _ _ _ _ _ within inside marks
  | exit exit => exact .pure rfl

include unlimited

theorem tally_executeUnder {size : Nat} (sized : code.instructions.size ≤ size)
    (rows : ∀ index instruction mark? otherMark?, code.instructions[index]? = some instruction →
      translation.Marks index mark? otherMark? →
        RowTallies comparison (standing.bond tables) translation code image index
          instruction.offset otherMark? (carefulEffect care run code scope frame instruction mark?)
          (effect other image otherScope frame))
    {rounds otherRounds index : Nat} (block? : Option Block) {mark? otherMark? : Option Token}
    (within : ∀ block ∈ block?, code.HasBlock block) (inside : index ≤ code.instructions.size)
    (marks : translation.Marks index mark? otherMark?)
    (paced : comparison.Paced size index rounds otherRounds) (stack : List Value) :
    comparison.Tally (standing.bond tables) Eq
      (executeUnder care run code scope frame rounds block? index mark? stack)
      (executeUnder .none other image otherScope frame otherRounds
        (block?.map (Block.moved translation.place)) (translation.start index) otherMark?
        stack) := by
  -- The rounds of the first thread count down: rows may be empty.
  induction rounds generalizing otherRounds index block? mark? otherMark? stack with
  | zero =>
      by_cases excused : comparison.ExcusesFirst .outOfFuel
      · exact .first excused
      · have := paced.first excused
        rw [Nat.mul_succ] at this
        obtain rfl : otherRounds = 0 := by omega
        exact .throwSame _
  | succ rounds ih =>
      have rests {otherRounds : Nat}
          (paced : ∀ next, comparison.Paced size next rounds otherRounds) :
          RestsTally comparison (standing.bond tables) translation code
            (executeUnder care run code scope frame rounds)
            (executeUnder .none other image otherScope frame otherRounds) :=
        fun block? next _ _ stack within inside marks =>
          ih block? within inside marks (paced next) stack
      cases found : code.instructions[index]? with
      | none =>
          obtain rfl : index = code.instructions.size :=
            Nat.le_antisymm inside (Array.getElem?_eq_none_iff.mp found)
          cases otherRounds with
          | zero => exact .second (paced.excusesSecond (by omega))
          | succ otherRounds =>
              rw [executeUnder_past found, executeUnder_past (by rw [sound.size]; simp)]
              exact .throw rfl (by simp [Error.kind])
      | some instruction =>
          have inCode : index < code.instructions.size := (Array.getElem?_eq_some_iff.mp found).1
          rw [executeUnder_found found]
          cases rows index instruction mark? otherMark? found marks with
          | dropped start next silent =>
              refine tally_tick unlimited (.after_silent (silent stack) ?_)
              have after := ih block? within inCode next (paced.dropped (by omega)) stack
              rw [start] at after
              exact after
          | single foundRow next located tallies =>
              cases otherRounds with
              | zero => exact .second (paced.excusesSecond (by omega))
              | succ otherRounds =>
                  rw [executeUnder_none_found foundRow]
                  refine tally_tick unlimited (tally_otherTick unlimited ((tallies stack).bind
                    fun _ _ effects => ?_))
                  exact tally_afterEffect isGuise sameHandlers sound (rests paced.round) within
                    (paced.round 0).enough inCode next located effects
          | double foundRow foundLast next located tallies =>
              obtain ⟨next?, prepared, prepares, tallies⟩ := tallies stack
              cases otherRounds with
              | zero => exact .second (paced.excusesSecond (by omega))
              | succ otherRounds =>
                  refine tally_tick unlimited (tally_prepared unlimited foundRow prepares ?_)
                  cases otherRounds with
                  | zero => exact .second (paced.excusesSecond (by omega))
                  | succ otherRounds =>
                      rw [executeUnder_none_found foundLast]
                      refine tally_otherTick unlimited (tallies.bind fun _ _ effects => ?_)
                      exact tally_afterEffect isGuise sameHandlers sound (rests paced.twoRounds)
                        within (paced.twoRounds 0).enough inCode next located effects

theorem tally_executeFrom {size : Nat} (sized : code.instructions.size ≤ size)
    (rows : ∀ index instruction mark? otherMark?, code.instructions[index]? = some instruction →
      translation.Marks index mark? otherMark? →
        RowTallies comparison (standing.bond tables) translation code image index
          instruction.offset otherMark? (carefulEffect care run code scope frame instruction mark?)
          (effect other image otherScope frame))
    {rounds otherRounds : Nat} (paced : comparison.Paced size 0 rounds otherRounds) :
    comparison.Tally (standing.bond tables) Eq
      (executeFrom code (executeUnder care run code scope frame rounds))
      (executeFrom image (executeUnder .none other image otherScope frame otherRounds)) := by
  have lands := sound.lands (show code.Destination 0 from .inl (List.mem_cons_self ..))
  rw [sound.origin] at lands
  unfold executeFrom position
  rcases lands with ⟨missing, otherMissing⟩ | ⟨index, found, otherFound, marks⟩
  · rw [missing, otherMissing]
    exact .throw rfl (by simp [Error.kind])
  · have inside : index ≤ code.instructions.size :=
      Nat.le_of_lt (Array.findIdx?_eq_some_iff_getElem.mp found).1
    have executed := tally_executeUnder unlimited isGuise sameHandlers sound sized rows
      none (fun _ isSome => by simp at isSome) inside marks (paced.anywhere index) []
    rw [found, otherFound]
    simp only [pure_bind]
    refine executed.seq fun exit => ?_
    cases exit with
    | returned value => exact .pure rfl
    | endFinally => exact .throwSame _
    | endFilter accepted => exact .throwSame _

end Execution

end Exec

end Cil
