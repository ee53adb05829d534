import Cil.Proofs.Isolation.ParallelRows
import Cil.Proofs.Isolation.StandingCode

/-!
# Bodies of a plain thread and of an isolated one

The code of a method stands for itself, and the instrumented code of a regular method stands for
the method.  In both cases the rows of an instruction do what the instruction does, where the care
lets it go on, if what it calls does.
-/

namespace Cil

open Stateful Instrumentation

/-! ## Opcodes -/

namespace Opcode

variable {opcode : Opcode}

theorem action?_of_longForm? {long : Opcode} (isBranch : opcode.longForm? = some long) :
    ∃ action, opcode.action? = some action ∧ long.action? = some action ∧
      action.transfers = true ∧ isDropped opcode = false := by
  cases opcode <;> cases isBranch <;> exact ⟨_, rfl, rfl, rfl, rfl⟩

theorem eq_switch_of_flow (isSwitch : opcode.flow = .switch) : opcode = .switch := by
  cases opcode <;> first | rfl | cases isSwitch

theorem eq_constrained_of_action? (acts : opcode.action? = some .constrain) :
    opcode = .constrained := by
  cases opcode <;> cases acts
  rfl

theorem isDropped_of_isCallSite (isCall : isCallSite opcode) : isDropped opcode = false := by
  cases dropped : isDropped opcode with
  | false => rfl
  | true => rw [Reemission.isCallSite_of_isDropped dropped] at isCall; cases isCall

end Opcode

theorem Instruction.targetsOf_of_noBranch {flow : Flow} (noBranch : flow.isBranch = false)
    (next : Nat) (operand : Operand) : targetsOf flow next operand = [] := by
  cases flow <;> first | cases operand <;> rfl | cases noBranch

/-! ## Code that stands for itself -/

/-- Code in its own place. -/
def Translation.self (code : MethodCode) : Translation where
  place := id
  start := id
  Marks _ mark? otherMark? := otherMark? = mark?
  Handlers index other := other = index ∧ index < code.clauses.length
  Located offset position := position = offset

theorem Clause.standsFor_self (clause : Clause) : clause.StandsFor id clause :=
  ⟨rfl, fun _ => rfl, rfl, rfl, fun _ => rfl⟩

theorem Translation.sound_self (code : MethodCode) : (Translation.self code).Sound code code where
  size := rfl
  origin := rfl
  lands {offset} _ := by
    cases found : code.position? offset with
    | none => exact .inl ⟨rfl, found⟩
    | some index => exact .inr ⟨index, rfl, found, rfl⟩
  target _ := rfl
  guarding {block? offset position} _ located := by
    obtain rfl : position = offset := located
    have same : block?.map (Block.moved id) = block? := by cases block? <;> rfl
    rw [show (Translation.self code).place = id from rfl, same, List.forall₂_same]
    intro candidate member
    refine ⟨⟨rfl, ?_⟩, candidate.1.standsFor_self⟩
    have inside := List.snd_lt_add_of_mem_zipIdx (List.mem_filter.mp member).1
    rwa [Nat.zero_add] at inside
  left {block? offset position target} _ located _ := by
    obtain rfl : position = offset := located
    have same : block?.map (Block.moved id) = block? := by cases block? <;> rfl
    rw [show (Translation.self code).place = id from rfl, same]
    exact List.forall₂_same.mpr fun clause _ => clause.standsFor_self
  handlers {index other} handles := by
    obtain ⟨rfl, inside⟩ := handles
    refine ⟨_, _, List.getElem?_eq_getElem inside, List.getElem?_eq_getElem inside, ?_⟩
    rintro offset _ rfl
    rfl

namespace Exec

variable {comparison : Comparison} {standing : Guises} {enclosure : Enclosure}
  {code image : MethodCode} {index frame : Nat} {instruction : Instruction}
  {mark? otherMark? : Option Token} {run other : Runner} {scope : Scope} {stray : Error}
  {guise : Guise}

section Alike

variable (isolates : comparison.Isolates enclosure)
  (alike : comparison.RunsAlike enclosure run other) (excused : comparison.ExcusesFirst stray)
  (isGuise : standing[frame]? = some guise)

include isolates alike excused isGuise

/-- Both threads execute the same code. -/
theorem rowTallies_self (sameHandlers : guise.handlers = (Translation.self code).Handlers)
    (noBox : guise.box? = none) (found : code.instructions[index]? = some instruction)
    (marks : otherMark? = mark?) :
    RowTallies comparison (standing.bond enclosure.parallel) (.self code) code code index
      instruction.offset otherMark?
      (carefulEffect (.disciplined stray) run code {} frame instruction mark?)
      (effect other code {} frame) := by
  refine .single found rfl rfl fun stack =>
    tally_carefulEffect excused fun one two holds goesOn => ?_
  exact tallies_stepAlike isolates alike isGuise ⟨rfl, rfl⟩ sameHandlers
    (Translation.sound_self code) (Array.mem_of_getElem? found) (List.map_id _).symm rfl
    ⟨rfl, fun _ => marks, fun _ _ => rfl, fun _ _ => ⟨marks, .inl rfl⟩⟩ (fun _ => noBox) goesOn
    holds

end Alike

/-! ## Rows of bodies that were made from methods -/

/-- Instructions of both threads that name a method call it in the same way. -/
theorem tallies_stepNamed {translation : Translation} {row : Instruction} {stack : List Value}
    {one two : Machine} {action : Action} (isolates : comparison.Isolates enclosure)
    (alike : comparison.RunsAlike enclosure run other)
    (acts : instruction.opcode.action? = some action) (names : action.namesMethod = true)
    (same : instruction.SameForm row)
    (sameScope : scope = {} ∨ ∀ token, instruction.token? = some token → token.isDynamic = false)
    (next : translation.Marks (index + 1) none none)
    (goesOn : GoesOn comparison standing frame instruction mark? stack one)
    (holds : (standing.bond enclosure.parallel).Holds one two) :
    comparison.Tallies (standing.bond enclosure.parallel) (Effects translation code index)
      (step run code.clauses {} frame instruction mark? stack comparison.first one)
      (step other image.clauses scope frame row mark? stack comparison.second two) := by
  obtain ⟨stays, unmarked⟩ := transfers_of_namesMethod names
  obtain ⟨kind, isKind⟩ := StubKind.exists_of_namesMethod acts names mark?
  have otherActs : row.opcode.action? = some action := by rw [same.opcode, acts]
  refine tallies_straight acts stays unmarked otherActs stays unmarked next ?_
  rw [stepStraight_of_namesMethod names, stepStraight_of_namesMethod names]
  exact tallies_stepCall isolates alike holds same sameScope isKind goesOn.spared
    (goesOn.namesPlainly acts names)

section Bodies

variable {method : MethodDef} {forInterface : Bool} {layout : ArgumentLayout}
  {isolation : IsolationRun} {target : String → Nat} {pieces : Pieces} {emitted : List Emitted}

/-- The setting in which a body of the isolated thread is executed where the plain thread executes
the method that it was made from. -/
structure InBody (comparison : Comparison) (enclosure : Enclosure) (standing : Guises)
    (run other : Runner) (stray : Error) (frame : Nat) (guise : Guise) (method : MethodDef)
    (forInterface : Bool) (layout : ArgumentLayout) (isolation : IsolationRun) (scope : Scope)
    (code image : MethodCode) (target : String → Nat) (pieces : Pieces) : Prop where
  isolates : comparison.Isolates enclosure
  alike : comparison.RunsAlike enclosure run other
  stubs : StubsAlike comparison enclosure run other
  excused : comparison.ExcusesFirst stray
  isGuise : standing[frame]? = some guise
  handlers : guise.handlers = (translationOf code image pieces).Handlers
  boxes : guise.box?.map (·.2) = enclosure.module.boxedOwner? method forInterface
  makesUp : MakesUp (.ofMethod enclosure.module enclosure.id method forInterface layout) isolation
    scope code image target pieces
  regular : code.Regular
  sound : (translationOf code image pieces).Sound code image
  small : scope.size < Token.rowBound
  supplies : ∀ entry ∈ scope.entries, ∃ native, entry = .native native ∧ enclosure.Supplies native

namespace InBody

variable (inBody : InBody comparison enclosure standing run other stray frame guise method
    forInterface layout isolation scope code image target pieces)

/-- What the rows of an instruction have to do. -/
abbrev Row (_inBody : InBody comparison enclosure standing run other stray frame guise method
    forInterface layout isolation scope code image target pieces) (index : Nat)
    (instruction : Instruction) : Prop :=
  RowTallies comparison (standing.bond enclosure.parallel) (translationOf code image pieces) code
    image index instruction.offset none
    (carefulEffect (.disciplined stray) run code {} frame instruction (code.waitingAt index))
    (effect other image scope frame)

include inBody

/-- The receiver is unboxed if the frame has it in a box. -/
theorem box_cases (access : ArgumentAccess) (place : Nat) :
    ((access = .load → standing.Spares (.argument frame place)) ∧
        unboxing (.ofMethod enclosure.module enclosure.id method forInterface layout) access place =
          []) ∨
      ∃ box, access = .load ∧ place = 0 ∧ guise.box? = some (box, method.declaringType) ∧
        unboxing (.ofMethod enclosure.module enclosure.id method forInterface layout) access place =
          [.plain .unbox (.token method.declaringType)] := by
  have boxes := inBody.boxes
  unfold Module.boxedOwner? at boxes
  have sameUnboxes : (Subject.ofMethod enclosure.module enclosure.id method forInterface
      layout).unboxesReceiver =
    (forInterface && !method.isStatic && enclosure.module.isValueType method.declaringType) := rfl
  rw [← sameUnboxes] at boxes
  by_cases boxed : access = .load ∧ place = 0 ∧ (Subject.ofMethod enclosure.module enclosure.id
      method forInterface layout).unboxesReceiver = true
  · rw [if_pos boxed.2.2] at boxes
    obtain ⟨⟨box, owner⟩, isBox, isOwner⟩ := Option.map_eq_some_iff.mp boxes
    obtain rfl : owner = method.declaringType := isOwner
    exact .inr ⟨box, boxed.1, boxed.2.1, isBox, if_pos boxed⟩
  · refine .inl ⟨fun loads found held isRoot isHeld => ?_, if_neg boxed⟩
    cases isRoot
    obtain rfl := Option.some.inj (inBody.isGuise.symm.trans isHeld)
    rw [if_neg fun unboxes => boxed ⟨loads, rfl, unboxes⟩] at boxes
    exact Option.map_eq_none_iff.mp boxes

variable (found : code.instructions[index]? = some instruction)

include found

theorem next (kept : isDropped instruction.opcode = false) :
    (translationOf code image pieces).Marks (index + 1) none none := by
  obtain ⟨inside, rfl⟩ := Array.getElem?_eq_some_iff.mp found
  exact ⟨inBody.regular.waitingAt_succ_of_kept inside kept, rfl⟩

omit found in
theorem row_of_single {item : Emitted}
    (inPlace : InPlace (.ofMethod enclosure.module enclosure.id method forInterface layout)
      isolation scope code image target pieces index instruction [item])
    (tallies : ∀ stack one two, (standing.bond enclosure.parallel).Holds one two →
      GoesOn comparison standing frame instruction (code.waitingAt index) stack one →
        comparison.Tallies (standing.bond enclosure.parallel)
          (Effects (translationOf code image pieces) code index)
          (step run code.clauses {} frame instruction (code.waitingAt index) stack
            comparison.first one)
          (step other image.clauses scope frame
            (item.instruction target (placeOf pieces instruction.offset)) none stack
            comparison.second two)) : inBody.Row index instruction := by
  obtain ⟨stands, located⟩ := inPlace.single
  exact .single stands inPlace.next located fun stack =>
    tally_carefulEffect inBody.excused (tallies stack)

/-! ### Marks -/

theorem row_dropped (dropped : isDropped instruction.opcode)
    (inPlace : InPlace (.ofMethod enclosure.module enclosure.id method forInterface layout)
      isolation scope code image target pieces index instruction []) :
    inBody.Row index instruction := by
  have waits := MethodCode.waitingAt_next found
  have marks : instruction.opcode = .constrained ∨ instruction.opcode = .tail := by
    simpa [isDropped] using dropped
  refine .dropped inPlace.next.symm ⟨waits, rfl⟩ fun stack =>
    silent_carefulEffect inBody.excused ?_
  unfold step waiting
  rcases marks with isMark | isMark
  · have fits := (inBody.makesUp.decoded.stands.wellRead instruction
      (Array.mem_toList_iff.mpr (Array.mem_of_getElem? found))).fits
    rw [isMark] at fits ⊢
    cases operand : instruction.operand <;> rw [operand] at fits <;> cases fits
    simp only [Opcode.action?, if_true, tokenOperand, Instruction.token?, operand]
    rfl
  · rw [isMark]
    rfl

/-! ### Arguments -/

theorem row_argument {access : ArgumentAccess} {place : Nat} {opcode : Opcode} {operand : Operand}
    (isAccess : instruction.opcode.argumentAccess? = some access)
    (isIndex : instruction.argumentIndex? = some place)
    (accesses : Accesses access place opcode operand)
    (inPlace : InPlace (.ofMethod enclosure.module enclosure.id method forInterface layout)
      isolation scope code image target pieces index instruction
      (.plain opcode operand :: unboxing
        (.ofMethod enclosure.module enclosure.id method forInterface layout) access place)) :
    inBody.Row index instruction := by
  have kept : isDropped instruction.opcode = false := by
    cases dropped : isDropped instruction.opcode with
    | false => rfl
    | true => cases Reemission.empty_of_piece inPlace.piece dropped
  have next := inBody.next found kept
  rcases inBody.box_cases access place with ⟨loads, direct⟩ | ⟨box, rfl, rfl, isBox, unboxes⟩
  · rw [direct] at inPlace
    refine inBody.row_of_single inPlace fun stack one two holds goesOn => ?_
    exact tallies_stepArgument isAccess isIndex accesses.1 (accesses.2 _) loads next goesOn holds
  · rw [unboxes] at inPlace
    obtain ⟨stands, lastStands, located⟩ := inPlace.double
    refine .double stands lastStands inPlace.next located fun stack =>
      ⟨none, .object box :: stack, fun one two holds => ?_,
        tally_carefulEffect inBody.excused fun one two holds _ => ?_⟩
    · exact effect_loadBox inBody.isGuise isBox accesses.1 (accesses.2 _) holds
    · exact tallies_unboxReceiver inBody.isGuise isBox isAccess isIndex rfl rfl next holds

/-! ### Calls -/

theorem row_forwarded {token : Token} {callee : MethodDef}
    (isCall : isCallSite instruction.opcode) (operand : instruction.operand = .token token)
    (known : enclosure.module.method token = .ok callee)
    (inPlace : InPlace (.ofMethod enclosure.module enclosure.id method forInterface layout)
      isolation scope code image target pieces index instruction
      (constraintMark (code.waitingAt index) ++ [.plain instruction.opcode (.token token)])) :
    inBody.Row index instruction := by
  have next := inBody.next found (Opcode.isDropped_of_isCallSite isCall)
  obtain ⟨action, acts, names⟩ := Action.exists_namesMethod_of_isCallSite isCall
  have sameScope : ∀ other, instruction.token? = some other → other.isDynamic = false := by
    intro other isToken
    rw [Instruction.token?, operand] at isToken
    cases isToken
    exact Module.isDynamic_of_method known
  have called (offset : Nat) {mark? : Option Token} {stack : List Value} {one two : Machine}
      (goesOn : GoesOn comparison standing frame instruction mark? stack one)
      (holds : (standing.bond enclosure.parallel).Holds one two) :
      comparison.Tallies (standing.bond enclosure.parallel)
        (Effects (translationOf code image pieces) code index)
        (step run code.clauses {} frame instruction mark? stack comparison.first one)
        (step other image.clauses scope frame
          (.placed offset instruction.opcode (.token token)) mark? stack comparison.second two) :=
    tallies_stepNamed inBody.isolates inBody.alike acts names ⟨rfl, operand.symm⟩ (.inr sameScope)
      next goesOn holds
  cases waits : code.waitingAt index with
  | none =>
      rw [waits] at inPlace
      refine inBody.row_of_single inPlace fun stack one two holds goesOn => ?_
      rw [waits] at goesOn ⊢
      exact called _ goesOn holds
  | some mark =>
      rw [waits] at inPlace
      obtain ⟨stands, lastStands, located⟩ := inPlace.double
      refine .double stands lastStands inPlace.next located fun stack =>
        ⟨some mark, stack, fun one two _ => effect_of_step rfl,
          tally_carefulEffect inBody.excused fun one two holds goesOn => ?_⟩
      rw [waits] at goesOn ⊢
      exact called _ goesOn holds

theorem row_stub {token dynamic : Token} {callee : MethodDef} {kind : StubKind}
    (operand : instruction.operand = .token token)
    (known : enclosure.module.method token = .ok callee)
    (isKind : StubKind.ofOpcode? instruction.opcode (code.waitingAt index) = some kind)
    (standsFor : StandsFor (.ofMethod enclosure.module enclosure.id method forInterface layout)
      scope kind token dynamic)
    (inPlace : InPlace (.ofMethod enclosure.module enclosure.id method forInterface layout)
      isolation scope code image target pieces index instruction [.plain .call (.token dynamic)]) :
    inBody.Row index instruction := by
  have next := inBody.next found (Opcode.isDropped_of_isCallSite
    (Reemission.isCallSite_of_ofOpcode? isKind))
  obtain ⟨place, native, other, rfl, entry, otherKnown, made⟩ := standsFor
  obtain rfl : callee = other := Except.ok.inj (known.symm.trans otherKnown)
  obtain ⟨isDynamic, inScope⟩ := Reemission.find?_tokenAt inBody.small entry
  obtain ⟨_, same, supplies⟩ := inBody.supplies _ (Array.mem_of_getElem? entry)
  cases same
  obtain ⟨action, acts, names⟩ := Opcode.namesMethod_of_ofOpcode? isKind
  obtain ⟨stays, unmarked⟩ := transfers_of_namesMethod names
  refine inBody.row_of_single inPlace fun stack one two holds goesOn => ?_
  have calls : Opcode.call.action? = some .call := rfl
  refine tallies_straight acts stays unmarked calls rfl rfl next ?_
  rw [stepStraight_of_namesMethod names, stepStraight_of_namesMethod rfl]
  exact tallies_stepStub inBody.isolates inBody.stubs isKind (by rw [Instruction.token?, operand])
    known rfl isDynamic inScope supplies made goesOn holds

/-! ### Other instructions -/

theorem row_branch {long : Opcode} {offset : Nat}
    (isBranch : instruction.opcode.longForm? = some long)
    (leads : instruction.targets = [offset])
    (inPlace : InPlace (.ofMethod enclosure.module enclosure.id method forInterface layout)
      isolation scope code image target pieces index instruction [.branch long (labelAt offset)]) :
    inBody.Row index instruction := by
  obtain ⟨action, acts, otherActs, transfers, kept⟩ := Opcode.action?_of_longForm? isBranch
  have listed := Array.mem_of_getElem? found
  have labelled := inBody.makesUp.labels instruction (Array.mem_toList_iff.mpr listed) offset
    (by rw [leads]; exact List.mem_singleton.mpr rfl)
  refine inBody.row_of_single inPlace fun stack one two holds _ => ?_
  refine tally_stepTransfer ((inPlace.leads.1 (by simp)).trans ?_) listed inBody.isGuise
    inBody.handlers inBody.sound inPlace.single.2 (inBody.next found kept) acts otherActs transfers
    stack one two holds
  rw [leads]
  exact congrArg (fun place => [place]) labelled

theorem row_switch (isSwitch : instruction.opcode.flow = .switch)
    (inPlace : InPlace (.ofMethod enclosure.module enclosure.id method forInterface layout)
      isolation scope code image target pieces index instruction
      [.switch (instruction.targets.map labelAt)]) :
    inBody.Row index instruction := by
  have isOpcode := Opcode.eq_switch_of_flow isSwitch
  have listed := Array.mem_of_getElem? found
  refine inBody.row_of_single inPlace fun stack one two holds _ => ?_
  refine tally_stepTransfer ((inPlace.leads.1 (by simp)).trans ?_) listed inBody.isGuise
    inBody.handlers inBody.sound inPlace.single.2 (inBody.next found (by rw [isOpcode]; rfl))
    (by rw [isOpcode]; rfl) rfl rfl stack one two holds
  rw [Emitted.labels, List.map_map]
  exact List.map_congr_left
    (inBody.makesUp.labels instruction (Array.mem_toList_iff.mpr listed))

theorem row_plain (noArgument : instruction.opcode.argumentAccess? = none)
    (kept : isDropped instruction.opcode = false)
    (noCall : isCallSite instruction.opcode = false)
    (noBranch : instruction.opcode.flow.isBranch = false)
    (inPlace : InPlace (.ofMethod enclosure.module enclosure.id method forInterface layout)
      isolation scope code image target pieces index instruction
      [.plain instruction.opcode instruction.operand]) :
    inBody.Row index instruction := by
  have listed := Array.mem_of_getElem? found
  have next := inBody.next found kept
  have waits : code.waitingAt index = none := by
    obtain ⟨inside, rfl⟩ := Array.getElem?_eq_some_iff.mp found
    refine Option.not_isSome_iff_eq_none.mp fun waits => ?_
    rcases inBody.regular.marks index inside waits with isCall | dropped
    · rw [isCall] at noCall
      cases noCall
    · rw [kept] at dropped
      cases dropped
  have follows : Follows (translationOf code image pieces) index instruction scope
      (code.waitingAt index) none :=
    { next
      kept := fun _ => waits ▸ next
      named := fun acts => by rw [Opcode.eq_constrained_of_action? acts] at kept; cases kept
      called := fun acts names => by simp [Action.namesMethod_of_noCall acts noCall] at names }
  have leads : ((Emitted.plain instruction.opcode instruction.operand).instruction target
      (placeOf pieces instruction.offset)).targets =
        instruction.targets.map (translationOf code image pieces).place := by
    rw [(inBody.makesUp.decoded.stands.wellRead instruction
      (Array.mem_toList_iff.mpr listed)).targets, Instruction.targetsOf_of_noBranch noBranch]
    exact Instruction.targetsOf_of_noBranch noBranch _ _
  refine inBody.row_of_single inPlace fun stack one two holds goesOn => ?_
  exact tallies_stepAlike inBody.isolates inBody.alike inBody.isGuise ⟨rfl, rfl⟩ inBody.handlers
    inBody.sound listed leads inPlace.single.2 follows (fun some => by simp [noArgument] at some)
    goesOn holds

end InBody

/-- The rows of a body that was made from a method do what its instructions do. -/
theorem rowTallies_body (inBody : InBody comparison enclosure standing run other stray frame guise
    method forInterface layout isolation scope code image target pieces)
    (found : code.instructions[index]? = some instruction)
    (marks : (translationOf code image pieces).Marks index mark? otherMark?) :
    RowTallies comparison (standing.bond enclosure.parallel) (translationOf code image pieces) code
      image index instruction.offset otherMark?
      (carefulEffect (.disciplined stray) run code {} frame instruction mark?)
      (effect other image scope frame) := by
  obtain ⟨rfl, rfl⟩ := marks
  obtain ⟨emitted, inPlace⟩ := inBody.makesUp.exists_inPlace found
  cases inPlace.piece with
  | argument isAccess isIndex accesses =>
      exact inBody.row_argument found isAccess isIndex accesses inPlace
  | dropped dropped => exact inBody.row_dropped found dropped inPlace
  | forwarded isCall operand known =>
      exact inBody.row_forwarded found isCall operand known inPlace
  | stub operand known _ isKind standsFor =>
      exact inBody.row_stub found operand known isKind standsFor inPlace
  | branch isBranch leads => exact inBody.row_branch found isBranch leads inPlace
  | switch isSwitch => exact inBody.row_switch found isSwitch inPlace
  | plain noArgument kept noCall noBranch =>
      exact inBody.row_plain found noArgument kept noCall noBranch inPlace

end Bodies

end Exec

end Cil
