import Cil.Proofs.Machine.CarefulRuns
import Cil.Proofs.Machine.MirroredSteps
import Cil.Proofs.Machine.Transfers

/-!
# Code that stands for other code

Code may stand for other code: every instruction has a row of instructions in its place, branches
lead to the places of their targets, and the clauses guard the places of what they guarded.  If
rows do what their instructions do, then executing the one code tallies with executing the other,
on machines that mirror each other.  An instruction in front of a call may have an empty row; so
the two executions take different numbers of rounds.
-/

namespace Cil

open MonadExcept (ofExcept)

/-- A clause of the same kind whose handler stands at the place of the handler of another one. -/
structure Clause.StandsFor (place : Nat → Nat) (original image : Clause) : Prop where
  kind : image.kind = original.kind
  class? : original.kind = .catchClause → image.class? = original.class?
  handlerOffset : image.handlerOffset = place original.handlerOffset
  handlerEnd : image.handlerEnd = place original.handlerEnd
  filterOffset : original.kind = .filterClause → image.filterOffset = place original.filterOffset

def Block.moved (place : Nat → Nat) (block : Block) : Block :=
  ⟨place block.start, place block.stop⟩

namespace MethodCode

/-- The handlers and filters of code, which run as blocks. -/
def HasBlock (code : MethodCode) (block : Block) : Prop :=
  ∃ clause ∈ code.clauses, block = clause.handlerBlock ∨
    clause.kind = .filterClause ∧ block = clause.filterBlock

/-- Where a transfer of control may lead. -/
def Destination (code : MethodCode) (offset : Nat) : Prop :=
  offset ∈ code.entries ∨ ∃ instruction ∈ code.instructions, offset ∈ instruction.targets

theorem HasBlock.destination {code : MethodCode} {block : Block} (has : code.HasBlock block) :
    code.Destination block.start := by
  obtain ⟨clause, listed, rfl | ⟨isFilter, rfl⟩⟩ := has
  · refine .inl (mem_entries_of_clause listed ?_)
    simp [Clause.entries, Clause.handlerBlock]
  · refine .inl (mem_entries_of_clause listed ?_)
    simp [Clause.entries, Clause.filterBlock, isFilter]

end MethodCode

/-- Where a thread that runs out of fuel is not excused, it has as much as the other one. -/
def Comparison.Enough (comparison : Comparison) (first second : Nat) : Prop :=
  (¬ comparison.ExcusesSecond .outOfFuel → first ≤ second) ∧
    (¬ comparison.ExcusesFirst .outOfFuel → second ≤ first)

namespace Comparison.Enough

variable {comparison : Comparison} {rounds otherRounds : Nat}

theorem excusesFirst (enough : comparison.Enough 0 (otherRounds + 1)) :
    comparison.ExcusesFirst .outOfFuel := by
  by_contra counts
  have := enough.2 counts
  omega

theorem excusesSecond (enough : comparison.Enough (rounds + 1) 0) :
    comparison.ExcusesSecond .outOfFuel := by
  by_contra counts
  have := enough.1 counts
  omega

theorem pred (enough : comparison.Enough (rounds + 1) (otherRounds + 1)) :
    comparison.Enough rounds otherRounds :=
  enough.imp (fun more counts => Nat.le_of_succ_le_succ (more counts)) fun more counts =>
    Nat.le_of_succ_le_succ (more counts)

end Comparison.Enough

/-- How code stands for other code. -/
structure Translation where
  /-- The place of an offset. -/
  place : Nat → Nat
  /-- The index at which the row of an instruction begins, by the index of the instruction. -/
  start : Nat → Nat
  /-- The marks that wait in front of an instruction and of its row, by the index of the
  instruction. -/
  Marks : Nat → Option Token → Option Token → Prop
  /-- Which clauses stand for which, by their indices. -/
  Handlers : Nat → Nat → Prop
  /-- Which offsets lie in the same regions. -/
  Located : Nat → Nat → Prop

namespace Translation

/-- A clause that guards a position stands for one that guards the other position. -/
def Corresponds (translation : Translation) (one other : Clause × Nat) : Prop :=
  translation.Handlers one.2 other.2 ∧ one.1.StandsFor translation.place other.1

/-- What a translation says of two pieces of code holds. -/
structure Sound (translation : Translation) (code image : MethodCode) : Prop where
  size : translation.start code.instructions.size = image.instructions.size
  origin : translation.place 0 = 0
  lands {offset : Nat} : code.Destination offset →
    (code.position? offset = none ∧ image.position? (translation.place offset) = none) ∨
      ∃ index, code.position? offset = some index ∧
        image.position? (translation.place offset) = some (translation.start index) ∧
        translation.Marks index none none
  target {offset : Nat} : code.Destination offset →
    translation.Located offset (translation.place offset)
  guarding {block? : Option Block} {offset position : Nat} :
    (∀ block ∈ block?, code.HasBlock block) → translation.Located offset position →
      List.Forall₂ translation.Corresponds
        (Clause.guarding code.clauses block? (Clause.positionOf offset))
        (Clause.guarding image.clauses (block?.map (Block.moved translation.place))
          (Clause.positionOf position))
  left {block? : Option Block} {offset position target : Nat} :
    (∀ block ∈ block?, code.HasBlock block) → translation.Located offset position →
      code.Destination target →
      List.Forall₂ (Clause.StandsFor translation.place)
        (Clause.left code.clauses block? (Clause.positionOf offset) (Clause.positionOf target))
        (Clause.left image.clauses (block?.map (Block.moved translation.place))
          (Clause.positionOf position) (Clause.positionOf (translation.place target)))
  handlers {index other : Nat} : translation.Handlers index other →
    ∃ clause image', code.clauses[index]? = some clause ∧ image.clauses[other]? = some image' ∧
      ∀ offset position, translation.Located offset position →
        image'.inHandler (Clause.positionOf position) = clause.inHandler (Clause.positionOf offset)

end Translation

namespace Exec

/-! ## Unwinding -/

section Unwinding

variable {comparison : Comparison} {standing : Guises} {tables : CodeBond}
  {translation : Translation} {code image : MethodCode} {frame : Nat}
  {first second : BlockRunner}

/-- The blocks of code tally with their images. -/
def BlocksTally (comparison : Comparison) (bond : Bond) (translation : Translation)
    (code : MethodCode) (first second : BlockRunner) : Prop :=
  ∀ block stack, code.HasBlock block →
    comparison.Tally bond Eq (first block stack) (second (block.moved translation.place) stack)

section Blocks

variable (blocks : BlocksTally comparison (standing.bond tables) translation code first second)
  {clause other : Clause} (listed : clause ∈ code.clauses)
  (stands : clause.StandsFor translation.place other)

include blocks listed stands

theorem tally_filterAccepts (isFilter : clause.kind = .filterClause) (exception : HeapRef) :
    comparison.Tally (standing.bond tables) Eq (filterAccepts first clause exception)
      (filterAccepts second other exception) := by
  have block := blocks clause.filterBlock [.object exception]
    ⟨clause, listed, .inr ⟨isFilter, rfl⟩⟩
  have same : clause.filterBlock.moved translation.place = other.filterBlock := by
    unfold Clause.filterBlock Block.moved
    rw [stands.filterOffset isFilter, stands.handlerOffset]
  rw [same] at block
  refine block.catchThrown.bind fun outcome otherOutcome related => ?_
  rcases related.cases with ⟨exit, _, rfl, rfl, rfl⟩ | ⟨exception, rfl, rfl⟩
  · cases exit with
    | endFilter accepted => exact .pure rfl
    | _ => exact .throw rfl (by simp [Error.kind])
  · exact .pure rfl

theorem tally_accepts (type : Token) (exception : HeapRef) :
    comparison.Tally (standing.bond tables) Eq (accepts first clause type exception)
      (accepts second other type exception) := by
  unfold accepts
  rw [stands.kind]
  cases kind : clause.kind with
  | catchClause =>
      dsimp only
      rw [stands.class? kind]
      exact .module_bind (.pure rfl)
  | filterClause => exact tally_filterAccepts blocks listed stands kind exception
  | finallyClause => exact .pure rfl
  | faultClause => exact .pure rfl

theorem tally_runHandler :
    comparison.Tally (standing.bond tables) Eq (runHandler first clause)
      (runHandler second other) := by
  have block := blocks clause.handlerBlock [] ⟨clause, listed, .inl rfl⟩
  have same : clause.handlerBlock.moved translation.place = other.handlerBlock := by
    unfold Clause.handlerBlock Block.moved
    rw [stands.handlerOffset, stands.handlerEnd]
  rw [same] at block
  refine block.seq fun exit => ?_
  cases exit with
  | endFinally => exact .pure rfl
  | _ => exact .throw rfl (by simp [Error.kind])

end Blocks

/-- What was chosen among clauses that guard a position, and among those that stand for them. -/
def Chosen (translation : Translation) (guarding others : List (Clause × Nat)) :
    Option (Clause × Nat) → Option (Clause × Nat) → Prop
  | none, none => True
  | some one, some other => ∃ before after otherBefore otherAfter,
      guarding = before ++ one :: after ∧ others = otherBefore ++ other :: otherAfter ∧
      List.Forall₂ translation.Corresponds before otherBefore ∧ translation.Corresponds one other
  | _, _ => False

theorem Chosen.cases {guarding others : List (Clause × Nat)}
    {selected? otherSelected? : Option (Clause × Nat)}
    (chosen : Chosen translation guarding others selected? otherSelected?) :
    selected? = none ∧ otherSelected? = none ∨
      ∃ selected otherSelected before after otherBefore otherAfter,
        selected? = some selected ∧ otherSelected? = some otherSelected ∧
        guarding = before ++ selected :: after ∧
        others = otherBefore ++ otherSelected :: otherAfter ∧
        List.Forall₂ translation.Corresponds before otherBefore ∧
        translation.Corresponds selected otherSelected := by
  cases selected? with
  | none =>
      cases otherSelected? with
      | none => exact .inl ⟨rfl, rfl⟩
      | some otherSelected => exact chosen.elim
  | some selected =>
      cases otherSelected? with
      | none => exact chosen.elim
      | some otherSelected =>
          obtain ⟨before, after, otherBefore, otherAfter, split⟩ := chosen
          exact .inr ⟨selected, otherSelected, before, after, otherBefore, otherAfter, rfl, rfl,
            split⟩

theorem Chosen.cons {one other : Clause × Nat} {guarding others : List (Clause × Nat)}
    {selected? otherSelected? : Option (Clause × Nat)}
    (corresponds : translation.Corresponds one other)
    (chosen : Chosen translation guarding others selected? otherSelected?) :
    Chosen translation (one :: guarding) (other :: others) selected? otherSelected? := by
  rcases chosen.cases with ⟨rfl, rfl⟩ | ⟨selected, otherSelected, before, after, otherBefore,
    otherAfter, rfl, rfl, rfl, rfl, earlier, same⟩
  · trivial
  · exact ⟨one :: before, after, other :: otherBefore, otherAfter, rfl, rfl,
      .cons corresponds earlier, same⟩

theorem tally_select? (blocks : BlocksTally comparison (standing.bond tables) translation code
    first second) (type : Token) (exception : HeapRef) {guarding others : List (Clause × Nat)}
    (corresponds : List.Forall₂ translation.Corresponds guarding others)
    (listed : ∀ candidate ∈ guarding, candidate.1 ∈ code.clauses) :
    comparison.Tally (standing.bond tables) (Chosen translation guarding others)
      (select? first type exception guarding) (select? second type exception others) := by
  induction corresponds with
  | nil => exact .pure trivial
  | @cons one other rest otherRest same _ ih =>
      refine (tally_accepts blocks (listed one (by simp)) same.2 type exception).seq
        fun accepted => ?_
      split
      · exact .pure ⟨[], rest, [], otherRest, rfl, rfl, .nil, same⟩
      · exact (ih fun candidate member => listed candidate (by simp [member])).weaken
          fun _ _ chosen => chosen.cons same

theorem unwound_split {before after : List (Clause × Nat)} {selected : Clause × Nat}
    (ordered : (before ++ selected :: after).Pairwise fun one other => one.2 < other.2) :
    Clause.unwound (before ++ selected :: after) (some selected) =
      (before.filter (·.1.isTermination)).map (·.1) := by
  obtain ⟨_, behind, ahead⟩ := List.pairwise_append.mp ordered
  obtain ⟨later, _⟩ := List.pairwise_cons.mp behind
  have front : before.filter (fun candidate =>
        candidate.1.isTermination && decide (candidate.2 < selected.2)) =
      before.filter (·.1.isTermination) :=
    List.filter_congr fun candidate member => by
      simp [ahead candidate member selected (List.mem_cons_self ..)]
  have rest : (selected :: after).filter (fun candidate =>
      candidate.1.isTermination && decide (candidate.2 < selected.2)) = [] := by
    refine List.filter_eq_nil_iff.mpr fun candidate member => ?_
    rcases List.mem_cons.mp member with rfl | member
    · simp
    · have := later candidate member
      simp only [Bool.and_eq_true, decide_eq_true_eq]
      omega
  change List.map _ (List.filter (fun candidate : Clause × Nat =>
    candidate.1.isTermination && decide (candidate.2 < selected.2)) _) = _
  rw [List.filter_append, front, rest, List.append_nil]

theorem unwound_none (guarding : List (Clause × Nat)) :
    Clause.unwound guarding none = (guarding.filter (·.1.isTermination)).map (·.1) := by
  simp [Clause.unwound]

theorem forall₂_terminations {guarding others : List (Clause × Nat)}
    (corresponds : List.Forall₂ translation.Corresponds guarding others) :
    List.Forall₂ (Clause.StandsFor translation.place)
      ((guarding.filter (·.1.isTermination)).map (·.1))
      ((others.filter (·.1.isTermination)).map (·.1)) := by
  induction corresponds with
  | nil => exact .nil
  | @cons one other rest otherRest same _ ih =>
      have kind : other.1.isTermination = one.1.isTermination := by
        unfold Clause.isTermination
        rw [same.2.kind]
      rw [List.filter_cons, List.filter_cons, kind]
      split
      · exact .cons same.2 ih
      · exact ih

theorem forall₂_unwound {guarding others : List (Clause × Nat)}
    {selected? otherSelected? : Option (Clause × Nat)}
    (corresponds : List.Forall₂ translation.Corresponds guarding others)
    (ordered : guarding.Pairwise fun one other => one.2 < other.2)
    (otherOrdered : others.Pairwise fun one other => one.2 < other.2)
    (chosen : Chosen translation guarding others selected? otherSelected?) :
    List.Forall₂ (Clause.StandsFor translation.place) (Clause.unwound guarding selected?)
      (Clause.unwound others otherSelected?) := by
  rcases chosen.cases with ⟨rfl, rfl⟩ | ⟨selected, otherSelected, before, after, otherBefore,
    otherAfter, rfl, rfl, rfl, rfl, earlier, _⟩
  · rw [unwound_none, unwound_none]
    exact forall₂_terminations corresponds
  · rw [unwound_split ordered, unwound_split otherOrdered]
    exact forall₂_terminations earlier

theorem ordered_guarding (clauses : List Clause) (block? : Option Block) (position : Nat) :
    (Clause.guarding clauses block? position).Pairwise fun one other => one.2 < other.2 := by
  refine List.Pairwise.filter _ (List.pairwise_iff_getElem.mpr fun first second _ _ before => ?_)
  simpa using before

/-- The exceptions that escape from handlers which stand for each other. -/
def RaisedAlike (translation : Translation) : Option Raised → Option Raised → Prop
  | none, none => True
  | some one, some other => one.exception = other.exception ∧
      translation.Located one.offset other.offset
  | _, _ => False

theorem RaisedAlike.cases {raised? other? : Option Raised}
    (alike : RaisedAlike translation raised? other?) :
    raised? = none ∧ other? = none ∨
      ∃ raised other, raised? = some raised ∧ other? = some other ∧
        raised.exception = other.exception ∧
          translation.Located raised.offset other.offset := by
  cases raised? with
  | none =>
      cases other? with
      | none => exact .inl ⟨rfl, rfl⟩
      | some other => exact alike.elim
  | some raised =>
      cases other? with
      | none => exact alike.elim
      | some other => exact .inr ⟨raised, other, rfl, rfl, alike⟩

theorem tally_runHandlers (sound : translation.Sound code image)
    (blocks : BlocksTally comparison (standing.bond tables) translation code first second)
    {clauses others : List Clause}
    (stands : List.Forall₂ (Clause.StandsFor translation.place) clauses others)
    (listed : ∀ clause ∈ clauses, clause ∈ code.clauses) :
    comparison.Tally (standing.bond tables) (RaisedAlike translation)
      (runHandlers first clauses) (runHandlers second others) := by
  induction stands with
  | nil => exact .pure trivial
  | @cons clause other rest otherRest same _ ih =>
      have isListed := listed clause (List.mem_cons_self ..)
      refine (tally_runHandler blocks isListed same).catchThrown.bind
        fun outcome other related => ?_
      rcases related.cases with ⟨_, _, rfl, rfl, _⟩ | ⟨exception, rfl, rfl⟩
      · exact ih fun clause member => listed clause (List.mem_cons_of_mem _ member)
      · refine .pure ⟨rfl, ?_⟩
        have entry : code.Destination clause.handlerOffset :=
          .inl (MethodCode.mem_entries_of_clause isListed (by simp [Clause.entries]))
        exact same.handlerOffset ▸ sound.target entry

/-! ## Exceptions in handlers -/

section Caught

variable {guise : Guise} (isGuise : standing[frame]? = some guise)
  (sameHandlers : guise.handlers = translation.Handlers)

include isGuise sameHandlers

theorem tally_remember {index other : Nat} (exception : HeapRef)
    (handlers : translation.Handlers index other) :
    comparison.Tally (standing.bond tables) Eq (remember frame index exception)
      (remember frame other exception) :=
  .modify fun _ _ holds =>
    ⟨holds.1.modifyFrame frame fun found one other isFound fits => by
        obtain rfl : guise = found := Option.some.inj (isGuise.symm.trans isFound)
        exact ⟨fits.locals, .cons ⟨sameHandlers ▸ handlers, rfl⟩ fits.caught, fits.arguments⟩,
      tables.kept holds.2 ⟨rfl, rfl, rfl, rfl⟩ ⟨rfl, rfl, rfl, rfl⟩⟩

theorem tally_forget (sound : translation.Sound code image) {offset position target : Nat}
    (located : translation.Located offset position) (destination : code.Destination target) :
    comparison.Tally (standing.bond tables) Eq
      (forget code.clauses frame (Clause.positionOf offset) (Clause.positionOf target))
      (forget image.clauses frame (Clause.positionOf position)
        (Clause.positionOf (translation.place target))) := by
  refine .modify fun _ _ holds =>
    ⟨holds.1.modifyFrame frame fun found one other isFound fits => ?_,
      tables.kept holds.2 ⟨rfl, rfl, rfl, rfl⟩ ⟨rfl, rfl, rfl, rfl⟩⟩
  obtain rfl : guise = found := Option.some.inj (isGuise.symm.trans isFound)
  refine ⟨fits.locals, ?_, fits.arguments⟩
  have caught := fits.caught
  dsimp only
  generalize one.caught = remembered at caught ⊢
  generalize other.caught = otherRemembered at caught ⊢
  induction caught with
  | nil => exact .nil
  | @cons entry otherEntry rest otherRest same _ ih =>
      obtain ⟨clause, image', isClause, isImage, inHandler⟩ :=
        sound.handlers (sameHandlers ▸ same.1)
      have kept : image.clauses[otherEntry.1]?.any (fun clause =>
            !clause.inHandler (Clause.positionOf position) ||
              clause.inHandler (Clause.positionOf (translation.place target))) =
          code.clauses[entry.1]?.any (fun clause =>
            !clause.inHandler (Clause.positionOf offset) ||
              clause.inHandler (Clause.positionOf target)) := by
        rw [isClause, isImage, Option.any_some, Option.any_some, inHandler _ _ located,
          inHandler _ _ (sound.target destination)]
      rw [List.filter_cons, List.filter_cons, kept]
      split
      · exact .cons same ih
      · exact ih

/-- What `rethrow` throws again. -/
theorem tally_rethrown (sound : translation.Sound code image) {instruction row : Instruction}
    (located : translation.Located instruction.offset row.offset) :
    comparison.Tally (standing.bond tables) Eq (rethrown frame code.clauses instruction)
      (rethrown frame image.clauses row) := by
  refine tally_frameAt.bind fun one other ⟨found, _, isFound, fits⟩ => ?_
  obtain rfl : guise = found := Option.some.inj (isGuise.symm.trans isFound)
  have caught := fits.caught
  dsimp only
  generalize one.caught = remembered at caught ⊢
  generalize other.caught = otherRemembered at caught ⊢
  induction caught with
  | nil => exact .throw rfl (by simp [Error.kind])
  | @cons entry otherEntry rest otherRest same _ ih =>
      obtain ⟨clause, image', isClause, isImage, inHandler⟩ :=
        sound.handlers (sameHandlers ▸ same.1)
      have kept : image.clauses[otherEntry.1]?.any
            (·.inHandler (Clause.positionOf row.offset)) =
          code.clauses[entry.1]?.any (·.inHandler (Clause.positionOf instruction.offset)) := by
        rw [isClause, isImage, Option.any_some, Option.any_some, inHandler _ _ located]
      rw [List.find?_cons, List.find?_cons, kept]
      cases code.clauses[entry.1]?.any (·.inHandler (Clause.positionOf instruction.offset)) with
      | true => exact .pure same.2.symm
      | false => exact ih

end Caught

/-! ## Transfers of control -/

section Transfers

variable {guise : Guise} (isGuise : standing[frame]? = some guise)
  (sameHandlers : guise.handlers = translation.Handlers) (sound : translation.Sound code image)
  (blocks : BlocksTally comparison (standing.bond tables) translation code first second)
  {block? : Option Block} (within : ∀ block ∈ block?, code.HasBlock block)

/-- Handlers to which exceptions are delivered that stand for each other. -/
def HandledAlike (translation : Translation) (code : MethodCode) (one other : Raised) : Prop :=
  one.exception = other.exception ∧ code.Destination one.offset ∧
    other.offset = translation.place one.offset

include isGuise sameHandlers sound blocks within

theorem tally_dispatch {rounds otherRounds : Nat} (enough : comparison.Enough rounds otherRounds)
    {raised other : Raised} (same : raised.exception = other.exception)
    (located : translation.Located raised.offset other.offset) :
    comparison.Tally (standing.bond tables) (HandledAlike translation code)
      (dispatch first code.clauses frame block? rounds raised)
      (dispatch second image.clauses frame (block?.map (Block.moved translation.place))
        otherRounds other) := by
  induction rounds generalizing otherRounds raised other with
  | zero =>
      cases otherRounds with
      | zero => exact .throwSame _
      | succ otherRounds => exact .first enough.excusesFirst
  | succ rounds ih =>
      cases otherRounds with
      | zero => exact .second enough.excusesSecond
      | succ otherRounds =>
          rw [dispatch, dispatch, ← same]
          refine .seq (.readHeap _) fun type => ?_
          have corresponds := sound.guarding within located
          have listed (candidate : Clause × Nat)
              (member : candidate ∈ Clause.guarding code.clauses block?
                (Clause.positionOf raised.offset)) : candidate.1 ∈ code.clauses :=
            fst_mem_of_guarding member
          refine (tally_select? blocks type raised.exception corresponds listed).bind
            fun selected? otherSelected? chosen => ?_
          have unwound := forall₂_unwound corresponds (ordered_guarding _ _ _)
            (ordered_guarding _ _ _) chosen
          have unwoundListed (clause : Clause) (member : clause ∈ Clause.unwound
              (Clause.guarding code.clauses block? (Clause.positionOf raised.offset)) selected?) :
              clause ∈ code.clauses := by
            obtain ⟨index, member⟩ := mem_of_mem_unwound member
            exact listed _ member
          refine (tally_runHandlers sound blocks unwound unwoundListed).bind
            fun replacement? otherReplacement? replaced => ?_
          rcases replaced.cases with ⟨rfl, rfl⟩ | ⟨replacement, other, rfl, rfl, same, located⟩
          · rcases chosen.cases with ⟨rfl, rfl⟩ | ⟨selected, otherSelected, before, after, _, _, rfl,
              rfl, isGuarding, _, _, handlers, stands⟩
            · exact .throwSame _
            · have isListed := listed selected (by rw [isGuarding]; simp)
              refine (tally_remember isGuise sameHandlers raised.exception handlers).seq
                fun _ => .pure ⟨rfl, .inl ?_, stands.handlerOffset⟩
              exact MethodCode.mem_entries_of_clause isListed (by simp [Clause.entries])
          · exact ih enough.pred same located

theorem tally_leave {offset position target : Nat}
    (located : translation.Located offset position) (destination : code.Destination target) :
    comparison.Tally (standing.bond tables) (RaisedAlike translation)
      (leave first code.clauses frame block? offset target)
      (leave second image.clauses frame (block?.map (Block.moved translation.place)) position
        (translation.place target)) := by
  have listed (clause : Clause) (member : clause ∈ Clause.left code.clauses block?
      (Clause.positionOf offset) (Clause.positionOf target)) : clause ∈ code.clauses :=
    (List.mem_filter.mp member).1
  refine (tally_runHandlers sound blocks (sound.left within located destination) listed).bind
    fun raised? other? alike => ?_
  rcases alike.cases with ⟨rfl, rfl⟩ | ⟨raised, other, rfl, rfl, _⟩
  · exact .seq (tally_forget isGuise sameHandlers sound located destination) fun _ => .pure trivial
  · exact .pure alike

end Transfers

/-- How execution goes on in code and in the code that stands for it. -/
inductive Continues (translation : Translation) (code : MethodCode) :
    Continuation → Continuation → Prop
  | goOn {index : Nat} {mark? otherMark? : Option Token} {stack : List Value}
      (inside : index ≤ code.instructions.size) (marks : translation.Marks index mark? otherMark?) :
      Continues translation code (.goOn index mark? stack)
        (.goOn (translation.start index) otherMark? stack)
  | exit (exit : BlockExit) : Continues translation code (.exit exit) (.exit exit)

/-- What an instruction and the last one of its row do to the control flow. -/
inductive Effects (translation : Translation) (code : MethodCode) (index : Nat) :
    Effect → Effect → Prop
  | next (stack : List Value) {mark? otherMark? : Option Token}
      (marks : translation.Marks (index + 1) mark? otherMark?) :
      Effects translation code index (.next stack mark?) (.next stack otherMark?)
  | jump {target : Nat} (destination : code.Destination target) (stack : List Value) :
      Effects translation code index (.jump target stack) (.jump (translation.place target) stack)
  | leave {target : Nat} (destination : code.Destination target) :
      Effects translation code index (.leave target) (.leave (translation.place target))
  | returned (value : Value) : Effects translation code index (.returned value) (.returned value)
  | thrown (exception : HeapRef) :
      Effects translation code index (.thrown exception) (.thrown exception)
  | endFinally : Effects translation code index .endFinally .endFinally
  | endFilter (accepted : Bool) :
      Effects translation code index (.endFilter accepted) (.endFilter accepted)

theorem tally_goTo {bond : Bond} (sound : translation.Sound code image) {offset : Nat}
    (destination : code.Destination offset) (stack : List Value) :
    comparison.Tally bond (Continues translation code) (goTo code offset stack)
      (goTo image (translation.place offset) stack) := by
  unfold goTo position
  rcases sound.lands destination with ⟨missing, otherMissing⟩ | ⟨index, found, otherFound, marks⟩
  · rw [missing, otherMissing]
    exact .throw rfl (by simp [Error.kind])
  · have inside : index ≤ code.instructions.size :=
      Nat.le_of_lt (Array.findIdx?_eq_some_iff_getElem.mp found).1
    rw [found, otherFound]
    exact .pure (.goOn inside marks)

theorem tally_followBy {guise : Guise} (isGuise : standing[frame]? = some guise)
    (sameHandlers : guise.handlers = translation.Handlers) (sound : translation.Sound code image)
    (blocks : BlocksTally comparison (standing.bond tables) translation code first second)
    {block? : Option Block} (within : ∀ block ∈ block?, code.HasBlock block)
    {rounds otherRounds : Nat} (enough : comparison.Enough rounds otherRounds)
    {index row offset position : Nat} (inside : index < code.instructions.size)
    (next : row + 1 = translation.start (index + 1))
    (located : translation.Located offset position) {effect other : Effect}
    (effects : Effects translation code index effect other) :
    comparison.Tally (standing.bond tables) (Continues translation code)
      (followBy (dispatchIn code frame rounds first block?) first code frame block? index offset
        effect)
      (followBy (dispatchIn image frame otherRounds second
          (block?.map (Block.moved translation.place))) second image frame
        (block?.map (Block.moved translation.place)) row position other) := by
  have handles {raised otherRaised : Raised} (same : raised.exception = otherRaised.exception)
      (located : translation.Located raised.offset otherRaised.offset) :
      comparison.Tally (standing.bond tables) (Continues translation code)
        (do
          let handled ← dispatchIn code frame rounds first block? raised
          goTo code handled.offset [.object handled.exception])
        (do
          let handled ← dispatchIn image frame otherRounds second
            (block?.map (Block.moved translation.place)) otherRaised
          goTo image handled.offset [.object handled.exception]) := by
    refine (tally_dispatch isGuise sameHandlers sound blocks within enough same located).bind
      fun handled otherHandled ⟨same, destination, moved⟩ => ?_
    rw [← same, moved]
    exact tally_goTo sound destination _
  cases effects with
  | next stack marks =>
      refine .pure ?_
      rw [next]
      exact .goOn inside marks
  | jump destination stack => exact tally_goTo sound destination _
  | leave destination =>
      refine (tally_leave isGuise sameHandlers sound blocks within located destination).bind
        fun raised? other? alike => ?_
      rcases alike.cases with ⟨rfl, rfl⟩ | ⟨raised, other, rfl, rfl, same, located⟩
      · exact tally_goTo sound destination _
      · exact handles same located
  | thrown exception => exact handles rfl located
  | returned value => exact .pure (.exit _)
  | endFinally => exact .pure (.exit _)
  | endFilter accepted => exact .pure (.exit _)

end Unwinding

end Exec

end Cil
