import Cil.Proofs.Isolation.ParallelStubs
import Cil.Proofs.Isolation.Reemission
import Cil.Proofs.Machine.MirroredTransfers

/-!
# Instructions of a plain thread and their rows

Where the care lets an instruction of a method go on, the row that stands for it in the rewritten
body does the same: the instruction again, a call of a stub in place of a call, or an access to an
argument, after which a receiver that came in a box is unboxed.
-/

namespace Cil

open Stateful
open MonadExcept (ofExcept)

/-! ## Actions and opcodes -/

/-- Whether an action names a method. -/
def Action.namesMethod : Action → Bool
  | .call | .callVirtual | .construct | .loadFunction | .loadVirtualFunction => true
  | _ => false

theorem Action.namesMethod_of_reaches {action : Action} (reaches : action.reaches = true) :
    action.namesMethod = true ∨ action = .callIndirect := by
  cases action <;> first | exact .inl rfl | exact .inr rfl | exact nomatch (reaches : false = true)

theorem StubKind.exists_of_namesMethod {opcode : Opcode} {action : Action}
    (acts : opcode.action? = some action) (names : action.namesMethod = true)
    (constraint? : Option Token) :
    ∃ kind, StubKind.ofOpcode? opcode constraint? = some kind := by
  cases opcode <;> cases acts <;>
    first
      | exact nomatch (names : false = true)
      | cases constraint? <;> exact ⟨_, rfl⟩

theorem Opcode.namesMethod_of_ofOpcode? {opcode : Opcode} {constraint? : Option Token}
    {kind : StubKind} (isKind : StubKind.ofOpcode? opcode constraint? = some kind) :
    ∃ action, opcode.action? = some action ∧ action.namesMethod = true := by
  cases opcode <;> cases constraint? <;> cases isKind <;> exact ⟨_, rfl, rfl⟩

theorem Action.namesMethod_of_noCall {opcode : Opcode} {action : Action}
    (acts : opcode.action? = some action) (noCall : Instrumentation.isCallSite opcode = false) :
    action.namesMethod = false := by
  cases opcode <;> cases acts <;> first | rfl | cases noCall

theorem Action.exists_namesMethod_of_isCallSite {opcode : Opcode}
    (isCall : Instrumentation.isCallSite opcode) :
    ∃ action, opcode.action? = some action ∧ action.namesMethod = true := by
  rcases Instrumentation.opcode_of_isCallSite isCall with rfl | rfl | rfl | rfl | rfl <;>
    exact ⟨_, rfl, rfl⟩

theorem Opcode.accessesArgument_eq {opcode : Opcode} {action : Action}
    (acts : opcode.action? = some action) :
    action.accessesArgument = opcode.argumentAccess?.isSome := by
  cases opcode <;> cases acts <;> rfl

/-- What an instruction that accesses an argument does. -/
def ArgumentAccess.action : ArgumentAccess → Action
  | .load => .loadArgument
  | .address => .loadArgumentAddress
  | .store => .storeArgument

theorem Opcode.action?_of_argumentAccess? {opcode : Opcode} {access : ArgumentAccess}
    (isAccess : opcode.argumentAccess? = some access) : opcode.action? = some access.action := by
  cases opcode <;> cases isAccess <;> rfl

/-- Stubs that choose the method by the receiver are made for instance methods only. -/
theorem Native.MadeFor.isInstance {kind : StubKind} {method : MethodDef} {native : Native}
    (made : native.MadeFor kind method.identity) (isVirtual : kind.isVirtual = true) :
    method.isStatic = false := by
  obtain ⟨module, _, target, same, made⟩ := made
  obtain ⟨_, signed, _⟩ := except_bind_eq_ok.mp made
  obtain ⟨_, _, _, _, sameStatic, _, _⟩ := MethodDef.of_identity same
  rw [← sameStatic]
  cases isStatic : target.isStatic with
  | false => rfl
  | true =>
      simp only [StubKind.signature, isStatic, if_true] at signed
      cases kind with
      | virtual => cases signed
      | constrained type => cases signed
      | virtualFunctionPointer => cases signed
      | _ => exact absurd isVirtual Bool.false_ne_true

namespace Exec

variable {comparison : Comparison} {standing : Guises} {enclosure : Enclosure}
  {translation : Translation} {code image : MethodCode} {index frame : Nat}
  {instruction row : Instruction} {mark? otherMark? : Option Token}
  {stack otherStack : List Value} {run other : Runner} {scope : Scope} {one two : Machine}

/-! ## What the care has found -/

/-- What the care has found where it lets an instruction go on. -/
structure GoesOn (comparison : Comparison) (standing : Guises) (frame : Nat)
    (instruction : Instruction) (mark? : Option Token) (stack : List Value) (one : Machine) :
    Prop where
  spared : ∀ value ∈ stack, standing.SparesValue value
  allows : Allows (isDisciplined {} frame instruction mark? stack) comparison.first one

/-- Where the care goes on, the effect is that of the step. -/
theorem tally_carefulEffect {stray : Error} (excused : comparison.ExcusesFirst stray)
    (steps : ∀ one two, (standing.bond enclosure.parallel).Holds one two →
      GoesOn comparison standing frame instruction mark? stack one →
        comparison.Tallies (standing.bond enclosure.parallel) (Effects translation code index)
          (step run code.clauses {} frame instruction mark? stack comparison.first one)
          (step other image.clauses scope frame row otherMark? otherStack comparison.second two)) :
    comparison.Tally (standing.bond enclosure.parallel) (Effects translation code index)
      (carefulEffect (.disciplined stray) run code {} frame instruction mark? stack)
      (effect other image scope frame row otherMark? otherStack) := by
  intro one two holds
  refine tallies_check excused fun answered => tallies_effect (steps one two holds ?_)
  obtain ⟨spared, allowed⟩ := Bool.and_eq_true_iff.mp answered
  exact ⟨fun value member => holds.1.sparesValue (List.all_eq_true.mp spared value member),
    allows_of_answerOr allowed⟩

theorem effect_of_step {context : Context} {machine final : Machine} {does : Effect}
    (stepped : step run code.clauses scope frame instruction mark? stack context machine =
      .ok does final) :
    effect run code scope frame instruction mark? stack context machine = .ok does final :=
  bind_of_ok (catchThrown_ok_iff.mpr stepped)

/-- An instruction that only leaves a mark is silent. -/
theorem silent_carefulEffect {stray : Error} (excused : comparison.ExcusesFirst stray)
    {next? : Option Token}
    (steps : step run code.clauses {} frame instruction mark? stack =
      pure (.next stack next?)) :
    comparison.Silent (carefulEffect (.disciplined stray) run code {} frame instruction mark? stack)
      (.next stack next?) := by
  intro machine
  unfold carefulEffect
  rw [bind_run]
  rcases (stopsOnly_disciplined stray).instruction {} frame instruction mark? stack comparison.first
    machine with ⟨final, stopped⟩ | asked
  · rw [stopped]
    exact .inl ⟨stray, final, rfl, excused⟩
  · rw [asked]
    refine .inr (effect_of_step ?_)
    rw [steps]
    rfl

/-! ## Instructions that go on with the next one -/

/-- Instructions that go on with the next one do so with the stacks that they leave. -/
theorem tallies_straight {action otherAction : Action}
    (acts : instruction.opcode.action? = some action) (stays : action.transfers = false)
    (unmarked : action.marks = false) (otherActs : row.opcode.action? = some otherAction)
    (otherStays : otherAction.transfers = false) (otherUnmarked : otherAction.marks = false)
    (next : translation.Marks (index + 1) none none)
    (tallies : comparison.Tallies (standing.bond enclosure.parallel) Eq
      (stepStraight run {} frame instruction mark? stack action comparison.first one)
      (stepStraight other scope frame row otherMark? otherStack otherAction comparison.second
        two)) :
    comparison.Tallies (standing.bond enclosure.parallel) (Effects translation code index)
      (step run code.clauses {} frame instruction mark? stack comparison.first one)
      (step other image.clauses scope frame row otherMark? otherStack comparison.second two) := by
  rw [step_of_straight acts stays unmarked, step_of_straight otherActs otherStays otherUnmarked]
  refine tallies.seq_run ?_
  intro result middle final holds _
  exact .value (.next result next) holds

theorem stepStraight_of_namesMethod {action : Action} (names : action.namesMethod = true) :
    stepStraight run scope frame instruction mark? stack action =
      stepCall run scope instruction mark? stack := by
  cases action <;> first | rfl | exact nomatch (names : false = true)

theorem transfers_of_namesMethod {action : Action} (names : action.namesMethod = true) :
    action.transfers = false ∧ action.marks = false := by
  cases action <;> first | exact ⟨rfl, rfl⟩ | exact nomatch (names : false = true)

theorem GoesOn.namesPlainly {action : Action}
    (goesOn : GoesOn comparison standing frame instruction mark? stack one)
    (acts : instruction.opcode.action? = some action) (names : action.namesMethod = true) :
    Allows (Exec.namesPlainly {} instruction mark? stack) comparison.first one := by
  have allows := goesOn.allows
  unfold isDisciplined at allows
  rw [acts] at allows
  cases action <;> first | exact allows | exact nomatch (names : false = true)

/-! ## The same instruction -/

/-- How marks go on behind an instruction and a row of the same form.  Calls name no stub. -/
structure Follows (translation : Translation) (index : Nat) (instruction : Instruction)
    (scope : Scope) (mark? otherMark? : Option Token) : Prop where
  next : translation.Marks (index + 1) none none
  kept : instruction.opcode.action? = some .mark → translation.Marks (index + 1) mark? otherMark?
  named : instruction.opcode.action? = some .constrain →
    ∀ type, translation.Marks (index + 1) (some type) (some type)
  called {action : Action} : instruction.opcode.action? = some action →
    action.namesMethod = true → otherMark? = mark? ∧
      (scope = {} ∨ ∀ token, instruction.token? = some token → token.isDynamic = false)

section Alike

variable (isolates : comparison.Isolates enclosure)
  (alike : comparison.RunsAlike enclosure run other) {guise : Guise}
  (isGuise : standing[frame]? = some guise) (same : instruction.SameForm row)

include isGuise in
/-- Without a receiver in a box, every argument is spared. -/
theorem spares_argument (noBox : guise.box? = none) (place : Nat) :
    standing.Spares (.argument frame place) := by
  intro found held isRoot isHeld
  cases isRoot
  obtain rfl := Option.some.inj (isGuise.symm.trans isHeld)
  exact noBox

include isolates alike isGuise same in
/-- Both threads execute an instruction that goes on with the next one. -/
theorem tallies_stepStraight {action : Action} (acts : instruction.opcode.action? = some action)
    (called : action.namesMethod = true → otherMark? = mark? ∧
      (scope = {} ∨ ∀ token, instruction.token? = some token → token.isDynamic = false))
    (noBox : action.accessesArgument = true → guise.box? = none)
    (goesOn : GoesOn comparison standing frame instruction mark? stack one)
    (holds : (standing.bond enclosure.parallel).Holds one two) :
    comparison.Tallies (standing.bond enclosure.parallel) Eq
      (stepStraight run {} frame instruction mark? stack action comparison.first one)
      (stepStraight other scope frame row otherMark? stack action comparison.second two) := by
  cases reaches : action.reaches with
  | true =>
      rcases Action.namesMethod_of_reaches reaches with names | rfl
      · obtain ⟨rfl, sameScope⟩ := called names
        obtain ⟨kind, isKind⟩ := StubKind.exists_of_namesMethod acts names otherMark?
        rw [stepStraight_of_namesMethod names, stepStraight_of_namesMethod names]
        exact tallies_stepCall isolates alike holds same sameScope isKind goesOn.spared
          (goesOn.namesPlainly acts names)
      · have allows := goesOn.allows
        unfold isDisciplined at allows
        rw [acts] at allows
        exact tallies_stepIndirectCall isolates alike holds same goesOn.spared allows
  | false =>
      cases accesses : action.accessesArgument with
      | true =>
          refine tally_argumentStep accesses ?_ (fun _ place _ => ?_) one two holds
          · rw [Instruction.argumentIndex?, Instruction.argumentIndex?, same.opcode,
              same.indexOperand?]
          · exact spares_argument isGuise (noBox accesses) place
      | false => exact tally_stepStraight same goesOn.spared reaches accesses one two holds

variable (sameHandlers : guise.handlers = translation.Handlers)
  (sound : translation.Sound code image) (listed : instruction ∈ code.instructions)
  (leads : row.targets = instruction.targets.map translation.place)
  (located : translation.Located instruction.offset row.offset)

include isolates alike isGuise same sameHandlers sound listed leads located in
/-- Both threads execute an instruction. -/
theorem tallies_stepAlike (follows : Follows translation index instruction scope mark? otherMark?)
    (noBox : instruction.opcode.argumentAccess?.isSome = true → guise.box? = none)
    (goesOn : GoesOn comparison standing frame instruction mark? stack one)
    (holds : (standing.bond enclosure.parallel).Holds one two) :
    comparison.Tallies (standing.bond enclosure.parallel) (Effects translation code index)
      (step run code.clauses {} frame instruction mark? stack comparison.first one)
      (step other image.clauses scope frame row otherMark? stack comparison.second two) := by
  cases acts : instruction.opcode.action? with
  | none =>
      unfold step
      rw [same.opcode, acts]
      refine .throw holds rfl ?_
      simp [Error.kind]
  | some action =>
      have otherActs : row.opcode.action? = some action := by rw [same.opcode, acts]
      cases transfers : action.transfers with
      | true =>
          exact tally_stepTransfer leads listed isGuise sameHandlers sound located follows.next acts
            otherActs transfers stack one two holds
      | false =>
          cases marks : action.marks with
          | false =>
              refine tallies_straight acts transfers marks otherActs transfers marks follows.next ?_
              exact tallies_stepStraight isolates alike isGuise same acts
                (follows.called acts)
                (fun accesses => noBox (Opcode.accessesArgument_eq acts ▸ accesses)) goesOn holds
          | true =>
              unfold step
              rw [acts, otherActs]
              cases action with
              | mark => exact .value (.next stack (follows.kept acts)) holds
              | constrain =>
                  refine ((tally_tokenOperand same).seq fun type => ?_) one two holds
                  exact .pure (.next stack (follows.named acts type))
              | _ => exact absurd marks Bool.false_ne_true

end Alike

/-! ## Arguments -/

section Arguments

variable {access : ArgumentAccess} {place : Nat}

/-- Where an argument may be changed, it leads to no box. -/
theorem spares_of_replaceable (holds : (standing.bond enclosure.parallel).Holds one two)
    (isIndex : instruction.argumentIndex? = some place)
    (allows : Allows (replaceable frame instruction) comparison.first one) :
    standing.Spares (.argument frame place) := by
  have allowed := allows.after get_run
  refine holds.1.sparesValue
    (show one.sparesValue (.pointer (.argument frame place)) = true from ?_)
  rw [isIndex] at allowed
  simp only [Machine.sparesValue, Machine.spares, Pointer.root]
  cases found : one.frames[frame]? with
  | none => rfl
  | some slots =>
      rw [found] at allowed
      exact allowed.answer

theorem straight_of_access (access : ArgumentAccess) :
    access.action.transfers = false ∧ access.action.marks = false ∧
      access.action.accessesArgument = true := by
  cases access <;> exact ⟨rfl, rfl, rfl⟩

/-- Both threads access an argument, and no receiver that came in a box is loaded. -/
theorem tallies_stepArgument (isAccess : instruction.opcode.argumentAccess? = some access)
    (isIndex : instruction.argumentIndex? = some place)
    (otherAccess : row.opcode.argumentAccess? = some access)
    (otherIndex : row.argumentIndex? = some place)
    (loads : access = .load → standing.Spares (.argument frame place))
    (next : translation.Marks (index + 1) none none)
    (goesOn : GoesOn comparison standing frame instruction mark? stack one)
    (holds : (standing.bond enclosure.parallel).Holds one two) :
    comparison.Tallies (standing.bond enclosure.parallel) (Effects translation code index)
      (step run code.clauses {} frame instruction mark? stack comparison.first one)
      (step other image.clauses scope frame row otherMark? stack comparison.second two) := by
  have acts := Opcode.action?_of_argumentAccess? isAccess
  have otherActs := Opcode.action?_of_argumentAccess? otherAccess
  obtain ⟨stays, unmarked, accesses⟩ := straight_of_access access
  refine tallies_straight acts stays unmarked otherActs stays unmarked next ?_
  refine tally_argumentStep accesses (otherIndex.trans isIndex.symm)
    (fun notAddress found isFound => ?_) one two holds
  obtain rfl := Option.some.inj (isIndex.symm.trans isFound)
  cases access with
  | load => exact loads rfl
  | address => exact absurd rfl notAddress
  | store =>
      have allows := goesOn.allows
      unfold isDisciplined at allows
      rw [acts] at allows
      exact spares_of_replaceable holds isIndex allows

end Arguments

/-! ## Receivers in boxes -/

theorem loadArgument_run (context : Context) {machine : Machine} {slots : Frame} {value : Value}
    (isIndex : row.argumentIndex? = some 0) (isFrame : machine.frames[frame]? = some slots)
    (isValue : slots.arguments[0]? = some value) :
    loadArgument frame row context machine = .ok value machine := by
  have found : frameAt frame context machine = .ok slots machine := by
    unfold frameAt
    rw [bind_of_ok get_run, isFrame]
    rfl
  unfold loadArgument operand
  rw [isIndex]
  dsimp only
  rw [pure_bind, bind_of_ok found, isValue]
  rfl

theorem boxOf_of_live (context : Context) {machine : Machine} {box : HeapRef} {type : Token}
    {value : Value} (live : machine.heap.get box = .ok (.boxed type value)) :
    boxOf (.object box) type context machine = .ok box machine := by
  have reads : objectOf (.object box) context machine = .ok box machine := rfl
  unfold boxOf
  rw [bind_of_ok reads, bind_of_ok (readHeap_of_ok live)]
  dsimp only
  rw [if_pos rfl]
  rfl

section Boxes

variable {guise : Guise} (isGuise : standing[frame]? = some guise) {box : HeapRef} {owner : Token}
  (isBox : guise.box? = some (box, owner))

include isGuise isBox

/-- The receiver of the plain thread is the address of what is in the box. -/
theorem receivers_of_holds (holds : (standing.bond enclosure.parallel).Holds one two) :
    ∃ slots others, one.frames[frame]? = some slots ∧ two.frames[frame]? = some others ∧
      slots.arguments[0]? = some (.pointer (.boxed box)) ∧
      others.arguments[0]? = some (.object box) ∧ one.heap.HoldsBox owner box := by
  rcases holds.1.frame_cases frame with
    ⟨isNone, _⟩ | ⟨held, slots, others, isHeld, isOne, isTwo, fits⟩
  · have inside := (List.getElem?_eq_some_iff.mp isGuise).1
    rw [← holds.1.firstSize] at inside
    exact absurd isNone (by simp [inside])
  · obtain rfl := Option.some.inj (isGuise.symm.trans isHeld)
    have passes := fits.arguments
    unfold Guise.Passes at passes
    rw [isBox] at passes
    obtain ⟨holdsBox, address, same⟩ := passes
    refine ⟨slots, others, isOne, isTwo, address, ?_, holdsBox⟩
    rw [same, Array.set!_eq_setIfInBounds, Array.getElem?_setIfInBounds_self]
    simp [(Array.getElem?_eq_some_iff.mp address).1]

/-- The isolated thread loads the box. -/
theorem effect_loadBox (isAccess : row.opcode.argumentAccess? = some .load)
    (isIndex : row.argumentIndex? = some 0)
    (holds : (standing.bond enclosure.parallel).Holds one two) :
    effect other image scope frame row otherMark? stack comparison.second two =
      .ok (.next (.object box :: stack)) two := by
  obtain ⟨slots, others, _, isTwo, _, isObject, _⟩ := receivers_of_holds isGuise isBox holds
  have loaded := loadArgument_run comparison.second isIndex isTwo isObject
  have acts : row.opcode.action? = some .loadArgument := Opcode.action?_of_argumentAccess? isAccess
  have stepped : step other image.clauses scope frame row otherMark? stack comparison.second two =
      .ok (.next (.object box :: stack)) two := by
    rw [step_of_straight acts rfl rfl]
    exact bind_of_ok (bind_of_ok loaded)
  exact effect_of_step stepped

/-- The plain thread loads the address of what is in the box, and the isolated one unboxes the
box. -/
theorem tallies_unboxReceiver (isAccess : instruction.opcode.argumentAccess? = some .load)
    (isIndex : instruction.argumentIndex? = some 0) (unboxes : row.opcode = .unbox)
    (names : row.token? = some owner) (next : translation.Marks (index + 1) none none)
    (holds : (standing.bond enclosure.parallel).Holds one two) :
    comparison.Tallies (standing.bond enclosure.parallel) (Effects translation code index)
      (step run code.clauses {} frame instruction mark? stack comparison.first one)
      (step other image.clauses scope frame row otherMark? (.object box :: stack)
        comparison.second two) := by
  obtain ⟨slots, others, isOne, _, isAddress, _, value, held⟩ :=
    receivers_of_holds isGuise isBox holds
  have loaded := loadArgument_run comparison.first isIndex isOne isAddress
  have otherActs : row.opcode.action? = some .unbox := by rw [unboxes]; rfl
  refine tallies_straight (Opcode.action?_of_argumentAccess? isAccess) rfl rfl otherActs rfl rfl
    next ?_
  have live : two.heap.get box = .ok (.boxed owner value) := by
    rw [holds.1.heap]
    exact held
  have stepped : stepStraight run {} frame instruction mark? stack .loadArgument comparison.first
      one = .ok (.pointer (.boxed box) :: stack) one := bind_of_ok loaded
  have otherStepped : stepStraight other scope frame row otherMark? (.object box :: stack) .unbox
      comparison.second two = .ok (.pointer (.boxed box) :: stack) two :=
    (bind_of_ok (tokenOperand_ok_iff.mpr ⟨names, rfl⟩)).trans (bind_of_ok (boxOf_of_live _ live))
  rw [show ArgumentAccess.load.action = .loadArgument from rfl, stepped, otherStepped]
  exact .value rfl holds

end Boxes

/-! ## Stubs -/

/-- Calls of the stubs of the isolated thread do what the calls of the plain thread do for which
they stand. -/
def StubsAlike (comparison : Comparison) (enclosure : Enclosure) (run other : Runner) : Prop :=
  ∀ (standing : Guises) (native : Native) (site : Stub) (arguments : List Value)
    (one two : Machine), native.body = .stub site → site.run = enclosure.id →
      enclosure.module.Knows site.target →
      (site.kind.isVirtual = true → site.target.isStatic = false) →
      (∀ value ∈ arguments, standing.SparesValue value) →
      Allows (callsPlainly site.kind site.target arguments) comparison.first one →
      (standing.bond enclosure.parallel).Holds one two →
        comparison.Tallies (standing.bond enclosure.parallel) Eq
          (site.kind.perform run site.target arguments comparison.first one)
          (other (.native native arguments) comparison.second two)

section Stubs

variable {kind : StubKind} {token dynamic : Token} {method : MethodDef} {native : Native}

/-- A native method of the run that was made for calls of a method makes calls of that method. -/
theorem exists_site (bare : enclosure.Bare) (supplies : enclosure.Supplies native)
    (made : native.MadeFor kind method.identity) (knows : enclosure.module.Knows method) :
    ∃ site, native.body = .stub site ∧ site.run = enclosure.id ∧ site.kind = kind ∧
      site.target = method := by
  obtain ⟨site, body, isRun, knowsTarget⟩ := supplies
  obtain ⟨other, otherBody, isKind, same⟩ := made.body
  obtain rfl : site = other := NativeBody.stub.inj (body.symm.trans otherBody)
  exact ⟨site, body, isRun, isKind, bare.reachable.tables.eq_of_knows bare.fits knows knowsTarget
    (MethodDef.of_identity same).1⟩

/-- The plain thread makes a call, and the isolated one calls the stub that stands for it. -/
theorem tallies_stepStub (isolates : comparison.Isolates enclosure)
    (stubs : StubsAlike comparison enclosure run other)
    (isKind : StubKind.ofOpcode? instruction.opcode mark? = some kind)
    (names : instruction.token? = some token)
    (known : enclosure.module.method token = .ok method) (otherNames : row.token? = some dynamic)
    (isDynamic : dynamic.isDynamic = true) (inScope : scope.find? dynamic = some (.native native))
    (supplies : enclosure.Supplies native) (made : native.MadeFor kind method.identity)
    (goesOn : GoesOn comparison standing frame instruction mark? stack one)
    (holds : (standing.bond enclosure.parallel).Holds one two) :
    comparison.Tallies (standing.bond enclosure.parallel) Eq
      (stepCall run {} instruction mark? stack comparison.first one)
      (stepCall other scope row otherMark? stack comparison.second two) := by
  have knows : enclosure.module.Knows method := .inr ⟨token, known⟩
  obtain ⟨site, body, isRun, rfl, rfl⟩ := exists_site isolates.bare supplies made knows
  obtain ⟨action, acts, namesMethod⟩ := Opcode.namesMethod_of_ofOpcode? isKind
  have allows := goesOn.namesPlainly acts namesMethod
  have effect := made.effect
  have ran : tokenOperand instruction comparison.first one = .ok token one :=
    tokenOperand_ok_iff.mpr ⟨names, rfl⟩
  have otherRan : tokenOperand row comparison.second two = .ok dynamic two :=
    tokenOperand_ok_iff.mpr ⟨otherNames, rfl⟩
  have called : callTarget {} token comparison.first one = .ok (.method site.target) one := by
    rw [← isolates.module] at known
    rw [callTarget, Module.isDynamic_of_method known, if_neg (by simp), bind_of_ok module_run,
      known]
    rfl
  have otherCalled : callTarget scope dynamic comparison.second two = .ok (.native native) two := by
    rw [callTarget, isDynamic, inScope]
    rfl
  rw [namesPlainly, isKind] at allows
  have allows := (allows.after ran).after called
  rw [stepCall_eq run {} stack isKind, bind_of_ok ran, bind_of_ok called]
  unfold stepCall
  rw [bind_of_ok otherRan, bind_of_ok otherCalled]
  dsimp only at allows ⊢
  rw [← effect]
  rw [← effect] at allows
  refine Comparison.Tally.share_still (fun _ => tally_popArguments _ stack) holds ?_
  rintro ⟨arguments, below⟩ ⟨_, isStack⟩ ran
  have allows := allows.after ran
  dsimp only at allows isStack ⊢
  refine (stubs standing native site arguments one two body isRun knows made.isInstance
    (fun value member => goesOn.spared value ?_) allows holds).seq_run ?_
  · rw [← isStack]
    simp [member]
  · intro result middle final after _
    exact .value rfl after

end Stubs

end Exec

end Cil
