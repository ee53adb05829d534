import Cil.Proofs.Isolation.ParallelBodies
import Cil.Proofs.Isolation.ScopeSizes

/-!
# Runs of a plain thread and of an isolated one

Calls of both threads nest in different depths: a stub of the isolated thread makes a call of its
own.  Within bounds that leave room for that, or where running out of fuel is excused, the threads
run alike what they call.
-/

namespace Cil

open Instrumentation Stateful

/-! ## Bodies that were made from methods -/

theorem MethodCode.locals_of_ofBytes {bytes : List UInt8} {locals : List LocalVariable}
    {clauses : List Clause} {maxStack : Nat} {initLocals : Bool} {code : MethodCode}
    (read : ofBytes bytes locals clauses maxStack initLocals = .ok code) :
    code.locals = locals := by
  obtain ⟨instructions, _, read⟩ := except_bind_eq_ok.mp read
  unfold validate at read
  split at read
  · cases read
  split at read
  · cases read
  cases read
  rfl

theorem DynamicMethod.locals_of_ofCode {name : String} {origin : MethodIdentity}
    {params : List TypeSig} {returnType : TypeSig} {locals : List LocalVariable} {scope : Scope}
    {code : List UInt8} {maxStack : Nat} {clauses : List Clause} {body : DynamicMethod}
    (assembled : ofCode name origin params returnType locals scope code maxStack clauses =
      .ok body) : body.code.locals = locals := by
  obtain ⟨_, _, assembled⟩ := except_bind_eq_ok.mp assembled
  obtain ⟨_, read, assembled⟩ := except_bind_eq_ok.mp assembled
  cases assembled
  exact MethodCode.locals_of_ofBytes read

/-- Instrumented code has the locals of the code of the method. -/
theorem IsolationRun.locals_of_instrument {module : Module} {id : Nat} {method : MethodDef}
    {forInterface : Bool} {run final : IsolationRun} {code : MethodCode}
    {rewritten : DynamicMethod} (read : MethodCode.ofMethod module method = .ok code)
    (ran : instrument module id method forInterface run = .ok rewritten final) :
    rewritten.code.locals = code.locals := by
  obtain ⟨known, _, codeRan, ran⟩ := bind_eq_ok.mp ran
  obtain rfl : code = known := Except.ok.inj (read.symm.trans (ofExcept_eq_ok.mp codeRan).1)
  obtain ⟨params, _, _, ran⟩ := bind_eq_ok.mp ran
  obtain ⟨layout, _, _, ran⟩ := bind_eq_ok.mp ran
  obtain ⟨_, _, _, ran⟩ := bind_eq_ok.mp ran
  generalize emitCode code _ _ = result at ran
  cases result with
  | error error draft =>
      obtain ⟨_, _, _, ran⟩ := bind_eq_ok.mp ran
      exact absurd ran throw_ne_ok
  | ok emitted draft =>
      obtain ⟨_, _, _, ran⟩ := bind_eq_ok.mp ran
      exact DynamicMethod.locals_of_ofCode (ofExcept_eq_ok.mp ran).1

/-- All code that is decoded from known methods of a module is regular. -/
def Module.KeepsRegular (module : Module) : Prop :=
  ∀ method code, module.Knows method → MethodCode.ofMethod module method = .ok code → code.Regular

/-- A guise in which a body takes its arguments. -/
theorem Guise.exists_of_hands {heap : Heap} {owner? : Option Token} {arguments others : List Value}
    (hands : heap.Hands owner? arguments others) (handlers : Nat → Nat → Prop) :
    ∃ guise : Guise, guise.handlers = handlers ∧ guise.box?.map (·.2) = owner? ∧
      guise.Passes heap arguments.toArray others.toArray := by
  cases owner? with
  | none =>
      obtain rfl : others = arguments := hands
      exact ⟨{ handlers }, rfl, rfl, rfl⟩
  | some owner =>
      obtain ⟨box, rest, holdsBox, rfl, rfl⟩ := hands
      exact ⟨{ box? := some (box, owner), handlers }, rfl, rfl, holdsBox, rfl, by simp⟩

/-! ## Bounds -/

/-- Two threads, the first of which is careful, with bounds for the rounds of the code of a
call. -/
structure Comparison.Plays (comparison : Comparison) (enclosure : Enclosure) (stray : Error)
    (rounds otherRounds : Limits → Nat) : Prop where
  isolates : comparison.Isolates enclosure
  excused : comparison.ExcusesFirst stray
  regular : enclosure.module.KeepsRegular
  paced : comparison.Paced Token.rowBound 0 (rounds comparison.first.limits)
    (otherRounds comparison.second.limits)

/-- How deep the calls of both threads may nest.  A call of a stub takes one of its own. -/
structure Comparison.Nests (comparison : Comparison) (calls otherCalls : Nat) : Prop where
  first : ¬ comparison.ExcusesFirst .outOfFuel → otherCalls ≤ calls
  second : ¬ comparison.ExcusesSecond .outOfFuel → 2 * calls ≤ otherCalls

namespace Comparison.Nests

variable {comparison : Comparison} {calls otherCalls : Nat}

theorem excusesSecond (nests : comparison.Nests (calls + 1) otherCalls) (few : otherCalls < 2) :
    comparison.ExcusesSecond .outOfFuel := by
  by_contra counts
  have := nests.second counts
  omega

/-- A call of the first thread takes one or two calls of the second one. -/
theorem inner (nests : comparison.Nests (calls + 1) (otherCalls + 1)) {rest : Nat}
    (fewer : rest ≤ otherCalls) (room : otherCalls ≤ rest + 1) :
    comparison.Nests calls rest where
  first counts := by
    have := nests.first counts
    omega
  second counts := by
    have := nests.second counts
    omega

end Comparison.Nests

namespace Exec

variable {comparison : Comparison} {enclosure : Enclosure} {run other : Runner} {stray : Error}
  {calls otherCalls : Nat} {rounds otherRounds : Limits → Nat} {standing : Guises}

/-! ## Code -/

section Code

variable (plays : comparison.Plays enclosure stray rounds otherRounds)
  (alike : comparison.RunsAlike enclosure run other)

include plays

/-- Both threads execute code in frames of their own. -/
theorem tallies_runCode {code image : MethodCode} {scope : Scope} {translation : Translation}
    {guise : Guise} {arguments others : List Value} {one two : Machine}
    (sameLocals : image.locals = code.locals)
    (sameHandlers : guise.handlers = translation.Handlers) (sound : translation.Sound code image)
    (sized : code.instructions.size ≤ Token.rowBound)
    (rows : ∀ index instruction mark? otherMark?, code.instructions[index]? = some instruction →
      translation.Marks index mark? otherMark? →
        RowTallies comparison ((standing ++ [guise]).bond enclosure.parallel) translation code
          image index instruction.offset otherMark?
          (carefulEffect (.disciplined stray) run code {} standing.length instruction mark?)
          (effect other image scope standing.length))
    (passes : guise.Passes one.heap arguments.toArray others.toArray)
    (holds : (standing.bond enclosure.parallel).Holds one two) :
    comparison.Tallies (standing.bond enclosure.parallel) Eq
      (runCodeUnder (.disciplined stray) rounds run code {} arguments comparison.first one)
      (runCodeUnder .none otherRounds other image scope others comparison.second two) := by
  have unlimited := plays.isolates.unlimited
  refine tallies_asCall unlimited ?_
  refine tallies_inFrame sameLocals (holds_counted holds _ _) passes fun one two holds => ?_
  exact tally_executeFrom unlimited List.getElem?_concat_length sameHandlers sound sized rows
    plays.paced one two holds

variable {method : MethodDef} {code : MethodCode} (knows : enclosure.module.Knows method)
  (read : MethodCode.ofMethod enclosure.module method = .ok code)

include alike knows read

/-- Both threads execute the code of a method. -/
theorem tally_plainCode (arguments : List Value) :
    comparison.Tally (standing.bond enclosure.parallel) Eq
      (runCodeUnder (.disciplined stray) rounds run code {} arguments)
      (runCodeUnder .none otherRounds other code {} arguments) := by
  intro one two holds
  obtain ⟨guise, handlers, boxes, passes⟩ := Guise.exists_of_hands
    (one.heap.hands_self rfl arguments) (Translation.self code).Handlers
  have fits := (plays.regular method code knows read).fits
  refine tallies_runCode plays rfl handlers (Translation.sound_self code) (Nat.le_of_lt fits)
    (fun index instruction mark? otherMark? found marks => ?_) passes holds
  exact rowTallies_self plays.isolates alike plays.excused List.getElem?_concat_length handlers
    (Option.map_eq_none_iff.mp boxes) found marks

/-- The isolated thread executes a body that was made from the method. -/
theorem tallies_bodyCode (stubs : StubsAlike comparison enclosure run other) {forInterface : Bool}
    {body : DynamicMethod} {arguments others : List Value} {one two : Machine}
    (rewrites : enclosure.Rewrites method forInterface body)
    (hands : one.heap.Hands (enclosure.module.boxedOwner? method forInterface) arguments others)
    (holds : (standing.bond enclosure.parallel).Holds one two) :
    comparison.Tallies (standing.bond enclosure.parallel) Eq
      (runCodeUnder (.disciplined stray) rounds run code {} arguments comparison.first one)
      (runCodeUnder .none otherRounds other body.code body.scope others comparison.second two) := by
  have regular := plays.regular method code knows read
  obtain ⟨before, after, arises, made⟩ := rewrites.made
  obtain ⟨layout, target, pieces, makesUp⟩ :=
    makesUp_of_instrument arises.reachable.stubsMade read regular made
  have sound := makesUp.sound regular read
  obtain ⟨guise, handlers, boxes, passes⟩ :=
    Guise.exists_of_hands hands (translationOf code body.code pieces).Handlers
  have inBody : InBody comparison enclosure (standing ++ [guise]) run other stray standing.length
      guise method forInterface layout before body.scope code body.code target pieces :=
    { isolates := plays.isolates, alike, stubs, excused := plays.excused
      isGuise := List.getElem?_concat_length
      handlers, boxes, makesUp, regular, sound
      small := Nat.lt_of_le_of_lt (IsolationRun.scope_size_le read made) regular.fits
      supplies := rewrites.scope }
  exact tallies_runCode plays (IsolationRun.locals_of_instrument read made) handlers sound
    (Nat.le_of_lt regular.fits) (fun _ _ _ _ found marks => rowTallies_body inBody found marks)
    passes holds

end Code

/-! ## Calls -/

/-- The isolated thread runs stubs in calls of their own. -/
theorem stubsAlike_of_inner (isolates : comparison.Isolates enclosure)
    (inner : ∀ rest, otherCalls = rest + 1 →
      comparison.RunsAlike enclosure run (activateUnder .none otherRounds rest))
    (few : otherCalls = 0 → comparison.ExcusesSecond .outOfFuel) :
    StubsAlike comparison enclosure run (activateUnder .none otherRounds otherCalls) := by
  intro standing native site arguments one two body isRun knows isInstance spared allows holds
  cases otherCalls with
  | zero => exact .second (few rfl)
  | succ rest =>
      refine tallies_otherAsCall isolates.unlimited ?_
      rw [body]
      refine tallies_runStub isolates (inner rest rfl) ?_ isRun knows isInstance spared allows
      exact holds_counted holds one.depth _

/-- Runners run alike what the code calls if the runners of the calls in it do. -/
theorem runsAlike_succ (plays : comparison.Plays enclosure stray rounds otherRounds)
    (alike : comparison.RunsAlike enclosure (activateUnder (.disciplined stray) rounds calls)
      (activateUnder .none otherRounds otherCalls))
    (stubs : StubsAlike comparison enclosure (activateUnder (.disciplined stray) rounds calls)
      (activateUnder .none otherRounds otherCalls)) :
    comparison.RunsAlike enclosure (activateUnder (.disciplined stray) rounds (calls + 1))
      (activateUnder .none otherRounds (otherCalls + 1)) where
  native {standing provided operation arguments} isCore spared one two holds := by
    refine tallies_asCall plays.isolates.unlimited ?_
    rw [isCore]
    exact tallies_runNative plays.isolates alike (holds_counted holds _ _) plays.excused operation
      spared
  code arguments knows read := tally_plainCode plays alike knows read arguments
  body knows read rewrites hands holds :=
    tallies_bodyCode plays alike knows read stubs rewrites hands holds

/-- Runners that end alike whatever they run. -/
theorem runsAlike_of_tally
    (tally : ∀ (standing : Guises) (activation called : Activation),
      comparison.Tally (standing.bond enclosure.parallel) Eq (run activation) (other called)) :
    comparison.RunsAlike enclosure run other where
  native _ _ := tally _ _ _
  code _ _ _ := tally _ _ _
  body _ _ _ _ holds := tally _ _ _ _ _ holds

/-- Both threads run alike what their code calls. -/
theorem runsAlike (plays : comparison.Plays enclosure stray rounds otherRounds)
    (nests : comparison.Nests calls otherCalls) :
    comparison.RunsAlike enclosure (activateUnder (.disciplined stray) rounds calls)
      (activateUnder .none otherRounds otherCalls) := by
  -- A stub takes two calls of the second thread, so that its bound is any that leaves room.
  induction calls generalizing otherCalls with
  | zero =>
      refine runsAlike_of_tally fun standing activation called => ?_
      by_cases excused : comparison.ExcusesFirst .outOfFuel
      · exact .first excused
      · obtain rfl := Nat.le_zero.mp (nests.first excused)
        exact .throwSame .outOfFuel
  | succ calls ih =>
      cases otherCalls with
      | zero => exact runsAlike_of_tally fun _ _ _ => .second (nests.excusesSecond (by omega))
      | succ otherCalls =>
          refine runsAlike_succ plays (ih (nests.inner (Nat.le_refl _) (by omega)))
            (stubsAlike_of_inner plays.isolates (fun rest more => ih (nests.inner ?_ ?_))
              fun none => nests.excusesSecond ?_)
          · omega
          · omega
          · omega

end Exec

end Cil
