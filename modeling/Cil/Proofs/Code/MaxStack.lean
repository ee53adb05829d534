import Cil.Proofs.Code.Outlines

/-!
# The maximum of the stack

Along every path through finished code an instruction is reached with the height that the encoder
tracked in front of it, so the maximum of the tracked heights bounds the stack.  The encoder sees
the code once, in order.  What holds the paths together is that branches agree with their labels
and that nothing falls into a handler with another height than the handler starts with.
-/

namespace Cil

open Stateful

/-! ## Paths -/

/-- Whether an instruction may go on at the one behind it. -/
def Flow.fallsThrough : Flow → Bool
  | .unconditionalBranch | .leave | .return | .throw | .endFinally => false
  | .sequential | .conditionalBranch | .call | .switch => true

/-- The heights that instructions are reached with, by number, along the paths that enter the
code at its start, at a handler or at a filter. -/
inductive EmittedCode.Reaches (code : EmittedCode) (instructions : List Instruction)
    (effects : List Encoder.Effect) : Nat → Int → Prop
  | start : Reaches code instructions effects 0 0
  | handler {clause : Clause} {index : Nat} {instruction : Instruction}
      (listed : clause ∈ code.clauses) (found : instructions[index]? = some instruction)
      (starts : instruction.offset = clause.handlerOffset) :
      Reaches code instructions effects index clause.kind.height.toInt
  | filter {clause : Clause} {index : Nat} {instruction : Instruction}
      (listed : clause ∈ code.clauses) (isFilter : clause.kind = .filterClause)
      (found : instructions[index]? = some instruction)
      (starts : instruction.offset = clause.filterOffset) :
      Reaches code instructions effects index 1
  | next {index : Nat} {height : Int} {instruction : Instruction} {effect : Encoder.Effect}
      (reached : Reaches code instructions effects index height)
      (found : instructions[index]? = some instruction) (takes : effects[index]? = some effect)
      (falls : instruction.opcode.flow.fallsThrough) :
      Reaches code instructions effects (index + 1) (height + effect.pushes - effect.pops)
  | jump {index place : Nat} {height : Int} {instruction reached : Instruction}
      {effect : Encoder.Effect} (reachedBefore : Reaches code instructions effects index height)
      (found : instructions[index]? = some instruction) (takes : effects[index]? = some effect)
      (leads : reached.offset ∈ instruction.targets)
      (foundReached : instructions[place]? = some reached) :
      Reaches code instructions effects place
        (if instruction.opcode.flow = .leave then 0 else height + effect.pushes - effect.pops)

theorem Opcode.flow_of_shortForm? {opcode short : Opcode}
    (isShort : opcode.shortForm? = some short) : short.flow = opcode.flow := by
  obtain ⟨forms, found, rfl⟩ := Option.map_eq_some_iff.mp isShort
  have listed : forms ∈ Opcode.branchForms := List.mem_of_find?_eq_some found
  have same : forms.1 = opcode := by simpa using List.find?_some found
  have all : ∀ forms ∈ Opcode.branchForms, forms.2.flow = forms.1.flow := by decide
  rw [all forms listed, same]

namespace Encoder

/-- Finished code starts an instruction at one mark only. -/
theorem mark_eq {code : EmittedCode} {instructions : List Instruction}
    (decoded : Instruction.decodeAll code.code = .ok instructions) {index : Nat} {mark : Mark}
    {instruction : Instruction} (found : instructions[index]? = some instruction)
    (starts : instruction.offset = code.startOf instructions mark) : mark = index := by
  have stands := Instruction.stands_of_decodeAll decoded
  have forward (other : Instruction) (member : other ∈ instructions) :
      other.offset < other.nextOffset :=
    Nat.lt_add_of_pos_right (stands.wellRead other member).size_pos
  obtain ⟨inside, isInstruction⟩ := List.getElem?_eq_some_iff.mp found
  obtain ⟨other, member, place, same⟩ | ⟨_, atEnd⟩ := Finished.startOf_eq code instructions mark
  · obtain ⟨otherInside, isOther⟩ := List.getElem?_eq_some_iff.mp place
    have ordered := List.pairwise_iff_getElem.mp stands.ordered
    rcases Nat.lt_trichotomy mark index with less | equal | greater
    · have := ordered mark index otherInside inside less
      have := forward other member
      rw [isInstruction, isOther] at *
      omega
    · exact equal
    · have := ordered index mark inside otherInside greater
      have := forward instruction (List.mem_of_getElem? found)
      rw [isInstruction, isOther] at *
      omega
  · have := stands.to_stop instruction (List.mem_of_getElem? found)
    have := forward instruction (List.mem_of_getElem? found)
    omega

/-! ## Instructions and their commands -/

variable {command : Command} {effect : Effect} {emitted : Emitted} {instruction : Instruction}
  {shortens : Bool} {labels : List (String × Nat)}

theorem labels_of_emits (emits : command.effect? = some effect)
    (asks : Outline.instruction? command = some emitted) : emitted.labels = effect.labels := by
  cases command <;> cases asks <;> cases emits <;> rfl

theorem flow_of_reads {opcode : Opcode} {label : String}
    (reads : Emitted.ReadsAs shortens labels (.branch opcode label) instruction) :
    instruction.opcode.flow = opcode.flow := by
  cases reads with
  | branch form =>
      obtain same | ⟨_, isShort⟩ := form
      · rw [same]
      · exact Opcode.flow_of_shortForm? isShort

/-- An instruction that falls through neither ends a path nor empties the stack. -/
theorem falls_of_reads (emits : command.effect? = some effect)
    (asks : Outline.instruction? command = some emitted)
    (reads : emitted.ReadsAs shortens labels instruction)
    (falls : instruction.opcode.flow.fallsThrough) :
    effect.ends = false ∧ effect.clears = false := by
  cases command with
  | emit opcode operand? =>
      cases asks
      cases emits
      cases reads with
      | plain sameOpcode =>
          rw [sameOpcode] at falls
          refine ⟨decide_eq_false ?_, rfl⟩
          rintro (flow | flow | flow) <;> rw [flow] at falls <;> cases falls
  | emitCall opcode operand? arguments hasResult =>
      cases emits
      exact ⟨rfl, rfl⟩
  | emitBranch opcode label =>
      cases asks
      cases emits
      rw [flow_of_reads reads] at falls
      refine ⟨decide_eq_false ?_, decide_eq_false fun flow => ?_⟩
      · rintro (flow | flow) <;> rw [flow] at falls <;> cases falls
      · rw [flow] at falls
        cases falls
  | emitSwitch labels =>
      cases emits
      exact ⟨rfl, rfl⟩
  | defineLabel label => cases emits
  | region event => cases emits

/-- Of the instructions with labels those empty the stack that leave a block. -/
theorem clears_iff_of_reads (emits : command.effect? = some effect)
    (asks : Outline.instruction? command = some emitted)
    (reads : emitted.ReadsAs shortens labels instruction) (branches : effect.labels ≠ []) :
    effect.clears = true ↔ instruction.opcode.flow = .leave := by
  cases command with
  | emitBranch opcode label =>
      cases asks
      cases emits
      rw [flow_of_reads reads]
      exact decide_eq_true_iff
  | emitSwitch names =>
      cases asks
      cases emits
      cases reads with
      | switch isSwitch =>
          rw [isSwitch]
          exact iff_of_false nofun nofun
  | emit opcode operand? =>
      cases emits
      exact absurd rfl branches
  | emitCall opcode operand? arguments hasResult =>
      cases emits
      exact absurd rfl branches
  | defineLabel label => cases emits
  | region event => cases emits

/-! ## Heights in range -/

/-- Where the code is in reach, heights are those of the stack. -/
theorem height_of_perform {before after : Encoder} (tame : before.Tame)
    (emits : command.effect? = some effect) (counted : effect.pops < 256)
    (reachable : before.unreachable = false) (ran : command.perform before = .ok () after) :
    let height := before.depth.toInt + effect.pushes - effect.pops
    0 ≤ height ∧ height < 0x8000 ∧ height ≤ after.maxDepth ∧
      after.depth.toInt = (if effect.clears then 0 else height) ∧
      after.unreachable = effect.ends := by
  intro height
  obtain ⟨item, _, admits, rfl⟩ := (Command.perform_eq_ok emits).mp ran
  have positive := admits.height reachable
  have inRange := (heightAfter_nonneg_iff counted (Command.pushes_le emits)).mp positive
  have least : 0 ≤ before.depth.toInt := Int16.le_iff_toInt_le.mp tame.depth
  have bounds : 0 ≤ height ∧ height < 0x8000 := by
    change 0 ≤ height ∧ height < 0x8000 ∨ height < -0x8000 at inRange
    refine inRange.resolve_right fun below => ?_
    change before.depth.toInt + effect.pushes - effect.pops < -0x8000 at below
    omega
  have exact : ((before.pushed item).heightAfter effect.pops effect.pushes).toInt = height := by
    rw [toInt_heightAfter]
    change Int.bmod height 0x10000 = height
    rw [Int.bmod_def]
    omega
  have tracked : (before.pushed item).tracked effect.pops effect.pushes =
      (before.pushed item).atHeight
        ((before.pushed item).heightAfter effect.pops effect.pushes) := by
    rw [Encoder.tracked, if_neg (Int16.not_lt.mpr positive)]
  refine ⟨bounds.1, bounds.2, ?_, ?_, ?_⟩
  · rw [emitted_maxDepth, tracked]
    change height ≤ (max before.maxDepth _ : Nat)
    rw [exact]
    omega
  · rw [emitted_depth, settled, tracked]
    split
    · rfl
    · exact exact
  · rw [emitted_unreachable]
    simp [pushed, reachable]

/-- An instruction that exceeds the range of heights is refused if and only if the code is in
reach. -/
theorem exceeding_refused_iff {before : Encoder} (tame : before.Tame)
    (emits : command.effect? = some effect) (counted : effect.pops < 256)
    (wellFormed : command.item?.isSome)
    (exceeds : 0x8000 ≤ before.depth.toInt + effect.pushes - effect.pops) :
    (∀ after, command.perform before ≠ .ok () after) ↔ before.unreachable = false := by
  constructor
  · intro refused
    by_contra unreachable
    have free (label : String) : (before.settled effect).Agrees label := by
      intro reachable
      rw [settled_unreachable] at reachable
      exact absurd reachable unreachable
    obtain ⟨after, ran⟩ := (Command.succeeds_iff emits).mpr ⟨wellFormed,
      fun reachable => absurd reachable unreachable, fun label _ => free label⟩
    exact refused after ran
  · intro reachable after ran
    have := (height_of_perform tame emits counted reachable ran).2.1
    omega

/-! ## Paths through finished code -/

/-- All branches in reach have the height of their labels. -/
def LabelsAgree (requests : List Request) : Prop :=
  ∀ command effect before after, Command.effect? command = some effect →
    Performs requests command before after → before.unreachable = false →
    ∀ label ∈ effect.labels, ∀ start stop, Performs requests (.defineLabel label) start stop →
      after.depth = stop.depth

/-- Nothing falls into a handler with another height than the handler starts with. -/
def HandlersGuarded (requests : List Request) : Prop :=
  ∀ event height before after, RegionEvent.height? event = some height →
    Performs requests (.region event) before after →
    before.unreachable = true ∨ before.depth = height

/-- What the heights of paths depend on. -/
structure Consistent (requests : List Request) : Prop where
  unforced : ∀ request ∈ requests, request.Unforced
  byLabel : ∀ request ∈ requests, request.ByLabel
  counted : ∀ request ∈ requests, ∀ effect, request.effect? = some effect → effect.pops < 256
  labels : LabelsAgree requests
  handlers : HandlersGuarded requests

/-- In a run the instruction with a number is emitted in reach, at a height. -/
inductive EmittedAt (requests : List Request) (ended : Encoder) (index : Nat) (height : Int) : Prop
  | mk {earlier later : List Request} {command : Command} {effect : Effect}
      {before after : Encoder} (splits : requests = earlier ++ .ask command :: later)
      (reaches : earlier.forM Request.perform {} = .ok () before)
      (performed : command.perform before = .ok () after)
      (goesOn : later.forM Request.perform after = .ok () ended)
      (emits : command.effect? = some effect) (counts : count earlier = index)
      (reachable : before.unreachable = false) (isHeight : before.depth.toInt = height)

section Runs

variable {requests : List Request} {ended : Encoder}

/-- Between two instructions the code stays in reach and the height stays what it is. -/
theorem emittedAt_of_point (consistent : Consistent requests) {earlier later : List Request}
    {state : Encoder} (splits : requests = earlier ++ later)
    (reaches : earlier.forM Request.perform {} = .ok () state)
    (goesOn : later.forM Request.perform state = .ok () ended)
    (reachable : state.unreachable = false) (within : count earlier < count requests) :
    EmittedAt requests ended (count earlier) state.depth.toInt := by
  induction later generalizing earlier state with
  | nil =>
      rw [splits, List.append_nil] at within
      exact absurd within (Nat.lt_irrefl _)
  | cons request later ih =>
      obtain ⟨_, middle, performed, rest⟩ := bind_eq_ok.mp goesOn
      have moved : requests = (earlier ++ [request]) ++ later := by simpa using splits
      have reachesNext : (earlier ++ [request]).forM Request.perform {} = .ok () middle :=
        forM_append_eq_ok.mpr ⟨state, reaches, bind_eq_ok.mpr ⟨_, middle, performed, rfl⟩⟩
      -- What emits nothing keeps the height; behind it the same instruction is next.
      have quiet (silent : request.effect? = none) (inReach : middle.unreachable = false)
          (same : middle.depth = state.depth) :
          EmittedAt requests ended (count earlier) state.depth.toInt := by
        have counts : count (earlier ++ [request]) = count earlier := by
          rw [count_append, count_of_quiet silent, Nat.add_zero]
        rw [← counts] at within ⊢
        rw [← same]
        exact ih moved reachesNext rest inReach within
      cases request with
      | setDepth height => exact (consistent.unforced (.setDepth height) (by simp [splits])).elim
      | setShortening enabled =>
          have changed := modify_eq_ok.mp performed
          exact quiet rfl (by rw [← changed]; exact reachable) (by rw [← changed])
      | ask command =>
          have performed : command.perform state = .ok () middle := performed
          cases emits : command.effect? with
          | some effect => exact .mk splits reaches performed rest emits rfl reachable rfl
          | none =>
              cases command with
              | defineLabel label =>
                  have enters : (Command.defineLabel label).Enters := trivial
                  refine quiet emits (Command.unreachable_of_enters enters performed) ?_
                  rw [← (defineLabel_heights performed).2]
                  change (if state.unreachable then _ else state.depth) = state.depth
                  rw [reachable]
                  rfl
              | region event =>
                  have heights := perform_heights performed
                  unfold entered at heights
                  cases starts : event.height? with
                  | none =>
                      rw [starts] at heights
                      exact quiet emits (heights.unreachable.trans reachable) heights.depth
                  | some height =>
                      rw [starts] at heights
                      have guarded := consistent.handlers event height state middle starts
                        ⟨earlier, later, splits, reaches, performed⟩
                      rw [reachable] at guarded
                      refine quiet emits heights.unreachable (heights.depth.trans ?_)
                      exact (guarded.resolve_left nofun).symm
              | _ => cases emits

/-- Behind a command that enters a label or a handler the next instruction is in reach. -/
theorem emittedAt_of_standsAt (consistent : Consistent requests)
    (ran : requests.forM Request.perform {} = .ok () ended) {command : Command} {mark : Mark}
    (stands : StandsAt requests command mark) (enters : command.Enters)
    (within : mark < count requests) :
    ∃ start stop, Performs requests command start stop ∧
      EmittedAt requests ended mark stop.depth.toInt := by
  obtain ⟨earlier, later, splits, rfl⟩ := stands
  rw [splits] at ran
  obtain ⟨start, reaches, rest⟩ := forM_append_eq_ok.mp ran
  obtain ⟨_, stop, performed, goesOn⟩ := bind_eq_ok.mp rest
  have performed : command.perform start = .ok () stop := performed
  refine ⟨start, stop, ⟨earlier, later, splits, reaches, performed⟩, ?_⟩
  have silent : (Request.ask command).effect? = none := by
    cases command <;> first | rfl | cases enters
  have counts : count (earlier ++ [.ask command]) = count earlier := by
    rw [count_append, count_of_quiet silent, Nat.add_zero]
  rw [← counts] at within ⊢
  refine emittedAt_of_point consistent (by simpa using splits) ?_ goesOn
    (command.unreachable_of_enters enters performed) within
  exact forM_append_eq_ok.mpr ⟨start, reaches, bind_eq_ok.mpr ⟨_, stop, performed, rfl⟩⟩

theorem emittedAt_of_startsAt (consistent : Consistent requests)
    (ran : requests.forM Request.perform {} = .ok () ended) {height : Int16} {mark : Mark}
    (starts : StartsAt requests height mark) (within : mark < count requests) :
    EmittedAt requests ended mark height.toInt := by
  obtain ⟨event, isHeight, stands⟩ := starts
  obtain ⟨start, stop, performs, emitted⟩ := emittedAt_of_standsAt consistent ran stands
    (Option.isSome_iff_exists.mpr ⟨height, isHeight⟩) within
  obtain ⟨_, _, _, _, performed⟩ := performs
  have heights := perform_heights performed
  rw [entered, isHeight] at heights
  rw [show height = stop.depth from heights.depth.symm]
  exact emitted

variable {code : EmittedCode} {instructions : List Instruction} {effects : List Effect}

/-- The instruction with the number of a command reads as what the command asks for. -/
theorem exists_reads (laidOut : LaidOut requests ended code instructions)
    {earlier later : List Request} {command : Command} {effect : Effect} {instruction : Instruction}
    (splits : requests = earlier ++ .ask command :: later) (emits : command.effect? = some effect)
    (found : instructions[count earlier]? = some instruction) :
    ∃ shortens emitted, Outline.instruction? command = some emitted ∧
      Emitted.ReadsAs shortens code.labels emitted instruction := by
  obtain ⟨shortens, reads⟩ := laidOut.reads
  have asked := (Request.ask command).isSome_emitted?
  rw [show (Request.ask command).effect? = some effect from emits] at asked
  obtain ⟨emitted, asks⟩ := Option.isSome_iff_exists.mp asked
  have place : (requests.filterMap Request.emitted?)[count earlier]? = some emitted := by
    rw [splits]
    exact getElem?_emitted asks
  obtain ⟨inside, isInstruction⟩ := List.getElem?_eq_some_iff.mp found
  obtain ⟨emittedInside, isEmitted⟩ := List.getElem?_eq_some_iff.mp place
  have pointwise := List.forall₂_iff_get.mp reads
  have related := pointwise.2 (count earlier) emittedInside inside
  rw [List.get_eq_getElem, List.get_eq_getElem, isInstruction, isEmitted] at related
  exact ⟨shortens, emitted, asks, related⟩

theorem length_eq_count (laidOut : LaidOut requests ended code instructions) :
    instructions.length = count requests := by
  obtain ⟨shortens, reads⟩ := laidOut.reads
  rw [← reads.length_eq, length_emitted]

theorem taken_eq
    (same : ∀ index < instructions.length,
      effects[index]? = (requests.filterMap Request.effect?)[index]?)
    {earlier later : List Request} {command : Command} {effect taken : Effect}
    {instruction : Instruction} (splits : requests = earlier ++ .ask command :: later)
    (emits : command.effect? = some effect)
    (found : instructions[count earlier]? = some instruction)
    (takes : effects[count earlier]? = some taken) : effect = taken := by
  have place : (requests.filterMap Request.effect?)[count earlier]? = some effect := by
    rw [splits]
    exact getElem?_effects emits
  rw [same _ (List.getElem?_eq_some_iff.mp found).1, place] at takes
  exact Option.some.inj takes

/-- What a command in a run can rely on. -/
theorem Consistent.at_command (consistent : Consistent requests) {earlier later : List Request}
    {command : Command} {effect : Effect} {before : Encoder}
    (splits : requests = earlier ++ .ask command :: later)
    (reaches : earlier.forM Request.perform {} = .ok () before)
    (emits : command.effect? = some effect) : before.Tame ∧ effect.pops < 256 := by
  refine ⟨(moves_of_forM (fun request member => ?_) reaches).tame tame_empty, ?_⟩
  · exact consistent.unforced request (by simp [splits, member])
  · exact consistent.counted (.ask command) (by simp [splits]) effect emits

/-- An instruction that falls through leaves the next one in reach, with what it adds to the
height. -/
theorem EmittedAt.next (consistent : Consistent requests)
    (laidOut : LaidOut requests ended code instructions)
    (same : ∀ index < instructions.length,
      effects[index]? = (requests.filterMap Request.effect?)[index]?)
    {index : Nat} {height : Int} {instruction : Instruction} {effect : Effect}
    (emittedAt : EmittedAt requests ended index height)
    (found : instructions[index]? = some instruction) (takes : effects[index]? = some effect)
    (falls : instruction.opcode.flow.fallsThrough) (within : index + 1 < count requests) :
    EmittedAt requests ended (index + 1) (height + effect.pushes - effect.pops) := by
  obtain @⟨earlier, later, command, effect, before, after, splits, reaches, performed, goesOn,
    emits, rfl, reachable, rfl⟩ := emittedAt
  obtain rfl := taken_eq same splits emits found takes
  obtain ⟨shortens, emitted, asks, reads⟩ := exists_reads laidOut splits emits found
  obtain ⟨stays, keeps⟩ := falls_of_reads emits asks reads falls
  obtain ⟨tame, counted⟩ := consistent.at_command splits reaches emits
  obtain ⟨_, _, _, heights, unreachable⟩ :=
    height_of_perform tame emits counted reachable performed
  rw [keeps, if_neg Bool.false_ne_true] at heights
  have counts : count (earlier ++ [.ask command]) = count earlier + 1 := by
    rw [count_append, count_of_emits (show (Request.ask command).effect? = _ from emits)]
  rw [← heights, ← counts]
  refine emittedAt_of_point consistent (by simpa using splits) ?_ goesOn
    (unreachable.trans stays) (by rw [counts]; exact within)
  exact forM_append_eq_ok.mpr ⟨before, reaches, bind_eq_ok.mpr ⟨_, after, performed, rfl⟩⟩

/-- A branch has its target in reach, with what it adds to the height. -/
theorem EmittedAt.jump (consistent : Consistent requests)
    (laidOut : LaidOut requests ended code instructions)
    (same : ∀ index < instructions.length,
      effects[index]? = (requests.filterMap Request.effect?)[index]?)
    {index place : Nat} {height : Int} {instruction target : Instruction} {effect : Effect}
    (emittedAt : EmittedAt requests ended index height)
    (found : instructions[index]? = some instruction) (takes : effects[index]? = some effect)
    (leads : target.offset ∈ instruction.targets) (foundTarget : instructions[place]? = some target)
    (within : place < count requests) :
    EmittedAt requests ended place
      (if instruction.opcode.flow = .leave then 0 else height + effect.pushes - effect.pops) := by
  obtain @⟨earlier, later, command, effect, before, after, splits, reaches, performed, goesOn,
    emits, rfl, reachable, rfl⟩ := emittedAt
  obtain rfl := taken_eq same splits emits found takes
  obtain ⟨shortens, emitted, asks, reads⟩ := exists_reads laidOut splits emits found
  obtain ⟨tame, counted⟩ := consistent.at_command splits reaches emits
  obtain ⟨_, _, _, heights, _⟩ := height_of_perform tame emits counted reachable performed
  have wellRead := (Instruction.stands_of_decodeAll laidOut.decoded).wellRead instruction
    (List.mem_of_getElem? found)
  have member : Request.ask command ∈ requests := by simp [splits]
  obtain ⟨label, listed, known⟩ := reads.exists_label wellRead
    (fun opcode operand plain => Request.direct_of_byLabel (consistent.byLabel _ member) rfl
      (plain ▸ asks)) leads
  rw [labels_of_emits emits asks] at listed
  -- The target is where the label was defined, and there the height is that of the branch.
  obtain ⟨mark, isMark, stands⟩ := laidOut.labels label _ known
  obtain rfl := mark_eq laidOut.decoded foundTarget isMark
  obtain ⟨start, stop, defines, reached⟩ :=
    emittedAt_of_standsAt consistent laidOut.ran stands trivial within
  have agrees : after.depth = stop.depth :=
    consistent.labels command effect before after emits
      ⟨earlier, later, splits, reaches, performed⟩ reachable label listed start stop defines
  have cleared := clears_iff_of_reads emits asks reads (List.ne_nil_of_mem listed)
  rw [← agrees, heights] at reached
  simpa only [cleared] using reached

/-- Along every path instructions are reached with the heights that the encoder tracked. -/
theorem emittedAt_of_reaches (consistent : Consistent requests)
    (laidOut : LaidOut requests ended code instructions)
    (same : ∀ index < instructions.length,
      effects[index]? = (requests.filterMap Request.effect?)[index]?)
    {index : Nat} {height : Int} (reached : code.Reaches instructions effects index height)
    (within : index < instructions.length) : EmittedAt requests ended index height := by
  have length := length_eq_count laidOut
  have inside {index : Nat} {instruction : Instruction}
      (found : instructions[index]? = some instruction) : index < instructions.length :=
    (List.getElem?_eq_some_iff.mp found).1
  induction reached with
  | start =>
      exact emittedAt_of_point consistent (List.nil_append _).symm rfl laidOut.ran rfl
        (length ▸ within)
  | handler listed found starts =>
      obtain ⟨⟨mark, place, begun⟩, _⟩ := laidOut.handlers _ listed
      obtain rfl := mark_eq laidOut.decoded found (starts.trans place)
      exact emittedAt_of_startsAt consistent laidOut.ran begun (length ▸ within)
  | filter listed isFilter found starts =>
      obtain ⟨mark, place, begun⟩ := (laidOut.handlers _ listed).2 isFilter
      obtain rfl := mark_eq laidOut.decoded found (starts.trans place)
      exact emittedAt_of_startsAt consistent laidOut.ran begun (length ▸ within)
  | next _ found takes falls ih =>
      exact (ih (inside found)).next consistent laidOut same found takes falls (length ▸ within)
  | jump _ found takes leads foundTarget ih =>
      exact (ih (inside found)).jump consistent laidOut same found takes leads foundTarget
        (length ▸ within)

end Runs

/-! ## The return that ends the code -/

/-- The effects of the instructions that requests emit, and of the return that may stand behind
them. -/
def effectsOf (requests : List Request) : List Effect :=
  requests.filterMap Request.effect? ++ [⟨0, 0, false, [], true⟩]

theorem mem_endingOf {done : Encoder} {request : Request} (member : request ∈ endingOf done) :
    request = .ask (.emit .ret none) := by
  unfold endingOf at member
  split at member
  · exact List.mem_singleton.mp member
  · cases member

theorem effectsOf_eq {requests : List Request} {done : Encoder} {index : Nat}
    (within : index < count (requests ++ endingOf done)) :
    (effectsOf requests)[index]? =
      ((requests ++ endingOf done).filterMap Request.effect?)[index]? := by
  unfold effectsOf
  unfold endingOf at within ⊢
  split at within
  · rename_i leaves
    rw [if_pos leaves, List.filterMap_append]
    rfl
  · rename_i stays
    rw [List.append_nil] at within
    rw [if_neg stays, List.append_nil, List.getElem?_append_left within]

/-- All commands but a return stand in front of the ending. -/
theorem performs_of_append {requests : List Request} {done before after : Encoder}
    {command : Command} (other : command ≠ .emit .ret none)
    (performs : Performs (requests ++ endingOf done) command before after) :
    Performs requests command before after := by
  obtain ⟨earlier, later, splits, reaches, performed⟩ := performs
  have absent : .ask command ∉ endingOf done := fun member =>
    other (Request.ask.inj (mem_endingOf member))
  obtain ⟨between, _, ending⟩ | ⟨between, inside, rest⟩ := List.append_eq_append_iff.mp splits
  · exact absurd (by simp [ending]) absent
  · cases between with
    | nil =>
        have rest : .ask command :: later = endingOf done := rest
        exact absurd (rest ▸ List.mem_cons_self) absent
    | cons first between =>
        obtain ⟨rfl, _⟩ := List.cons.inj rest
        exact ⟨earlier, between, inside, reaches, performed⟩

theorem Consistent.append_endingOf {requests : List Request} (consistent : Consistent requests)
    (done : Encoder) : Consistent (requests ++ endingOf done) where
  unforced := List.forall_mem_append.mpr ⟨consistent.unforced, fun request member => by
    rw [mem_endingOf member]
    trivial⟩
  byLabel := List.forall_mem_append.mpr ⟨consistent.byLabel, fun request member => by
    rw [mem_endingOf member]
    exact rfl⟩
  counted := List.forall_mem_append.mpr ⟨consistent.counted, fun request member effect emits => by
    rw [mem_endingOf member] at emits
    cases emits
    decide⟩
  labels command effect before after emits branches reachable label listed start stop defines := by
    refine consistent.labels command effect before after emits (performs_of_append ?_ branches)
      reachable label listed start stop (performs_of_append nofun defines)
    rintro rfl
    cases emits
    cases listed
  handlers event height before after isHeight performs :=
    consistent.handlers event height before after isHeight (performs_of_append nofun performs)

/-! ## Heights of finished code -/

namespace JumpsBack

/-- A loop around nothing, with a constant on the stack. -/
def loop : List Request :=
  [.ask (.emit .ldcI40 none), .ask (.defineLabel "top"), .ask (.emitBranch .br "top")]

/-- A label that only a branch behind it leads to, after code that does not fall through. -/
def requests : List Request :=
  [ .ask (.emitBranch .br "start"), .ask (.defineLabel "back"), .ask (.emit .ldcI40 none),
    .ask (.emit .ret none), .ask (.defineLabel "start"), .ask (.emit .ldcI40 none),
    .ask (.emitBranch .br "back") ]

/-- Whether a command behind requests is carried out between encoders that pass a test. -/
def between (earlier : List Request) (command : Command) (holds : Encoder → Encoder → Bool) :
    Bool :=
  match earlier.forM Request.perform {} with
  | .ok _ before =>
      match command.perform before with
      | .ok _ after => holds before after
      | .error _ _ => false
  | .error _ _ => false

theorem exists_performs {earlier : List Request} (later : List Request) {command : Command}
    {holds : Encoder → Encoder → Bool} (found : between earlier command holds) :
    ∃ before after, Performs (earlier ++ .ask command :: later) command before after ∧
      holds before after := by
  unfold between at found
  split at found
  · rename_i before reaches
    split at found
    · rename_i after performed
      exact ⟨before, after, ⟨earlier, later, rfl, reaches, performed⟩, found⟩
    · cases found
  · cases found

/-- Whether the first of five instructions leads to the fourth and the last one to the second. -/
def crosses (code : List UInt8) : Bool :=
  match Instruction.decodeAll code with
  | .ok [first, second, _, fourth, fifth] =>
      first.targets == [fourth.offset] && first.opcode.flow != .leave &&
        fourth.opcode.flow.fallsThrough && fifth.targets == [second.offset] &&
        fifth.opcode.flow != .leave
  | _ => false

/-- Where the last of five instructions leads to the second, this is reached with what stands on
the stack there. -/
theorem reaches_of_crosses {code : EmittedCode} (crosses : crosses code.code) :
    ∃ instructions instruction, Instruction.decodeAll code.code = .ok instructions ∧
      code.Reaches instructions (effectsOf requests) 1 1 ∧ instructions[1]? = some instruction := by
  unfold JumpsBack.crosses at crosses
  split at crosses
  · rename_i first second third fourth fifth decoded
    simp only [Bool.and_eq_true, beq_iff_eq, bne_iff_ne, ne_eq] at crosses
    obtain ⟨⟨⟨⟨firstLeads, firstStays⟩, fourthFalls⟩, fifthLeads⟩, fifthStays⟩ := crosses
    refine ⟨_, second, decoded, ?_, rfl⟩
    let instructions := [first, second, third, fourth, fifth]
    have started : code.Reaches instructions (effectsOf requests) 0 0 := .start
    have jumped := @EmittedCode.Reaches.jump code instructions (effectsOf requests) 0 3 0 first
      fourth ⟨0, 0, false, ["start"], true⟩ started rfl rfl
      (firstLeads ▸ List.mem_cons_self) rfl
    rw [if_neg firstStays] at jumped
    have pushed := @EmittedCode.Reaches.next code instructions (effectsOf requests) 3 _ fourth
      ⟨0, 1, false, [], false⟩ jumped rfl rfl fourthFalls
    have back := @EmittedCode.Reaches.jump code instructions (effectsOf requests) 4 1 _ fifth
      second ⟨0, 0, false, ["back"], true⟩ pushed rfl rfl
      (fifthLeads ▸ List.mem_cons_self) rfl
    rw [if_neg fifthStays] at back
    exact back
  · cases crosses

end JumpsBack

end Encoder

end Cil
