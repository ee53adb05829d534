import Cil.Proofs.Isolation.CarefulCalls
import Cil.Proofs.Isolation.Counterparts
import Cil.Proofs.Machine.MirroredCalls

/-!
# Calls of a plain thread and of an isolated one

A plain thread and the thread of an isolated run call methods, bodies, function pointers and
delegates alike, if running what is called does.
-/

namespace Cil

open MonadExcept (ofExcept)

/-- Threads of the module of a run without shims, which count nothing.  The second thread is
excused if the run refuses to rewrite a method. -/
structure Comparison.Isolates (comparison : Comparison) (enclosure : Enclosure) : Prop where
  bare : enclosure.Bare
  module : comparison.first.module = enclosure.module
  refused : ∀ error, enclosure.Refuses error → comparison.ExcusesSecond error
  unlimited : comparison.Unlimited

namespace Module

variable {module : Module} {method : MethodDef}

theorem not_lacksBody_of_code {code : MethodCode}
    (read : MethodCode.ofMethod module method = .ok code) : ¬ module.LacksBody method := by
  rintro ⟨error, failed, _⟩
  rw [read] at failed
  cases failed

theorem not_lacksBody_of_error {error : Error}
    (read : MethodCode.ofMethod module method = .error error) (spared : error.blamesBody = false) :
    ¬ module.LacksBody method := by
  rintro ⟨_, failed, blames⟩
  rw [read] at failed
  cases failed
  rw [spared] at blames
  cases blames

theorem isAbstract_of_body (has : ¬ module.LacksBody method) : method.isAbstract = false := by
  cases isAbstract : method.isAbstract with
  | false => rfl
  | true =>
      refine absurd ⟨.unreadableMethodBody method.token, ?_, rfl⟩ has
      unfold MethodCode.ofMethod
      rw [isAbstract]
      cases module.bodyOf? method <;> rfl

end Module

namespace Exec

/-! ## Decoding -/

section Decoding

variable {context : Context} {machine : Machine} {method : MethodDef}

/-- The error of running a method whose body cannot be decoded. -/
def undecoded (module : Module) (method : MethodDef) : Error → Error
  | .unreadableMethodBody _ => .notSupported (.nothingToExecute (module.methodName method.token))
  | error => error

theorem executable_of_ok (tables : context.module.Tables)
    (fits : context.module.methods.size < Token.rowBound) (knows : context.module.Knows method)
    (decodes : context.module.Decodes machine.bodies) {code : MethodCode}
    (read : MethodCode.ofMethod context.module method = .ok code) :
    ∃ bodies, context.module.Decodes bodies ∧
      executable method context machine = .ok code { machine with bodies } := by
  have decoded : ∃ bodies, context.module.Decodes bodies ∧
      decoded method context machine = .ok code { machine with bodies } := by
    unfold Exec.decoded
    rw [bind_of_ok get_run]
    cases found : machine.bodies.lookup method.token with
    | some known =>
        have same := Except.ok.inj ((decodes method known knows found).symm.trans read)
        exact ⟨machine.bodies, decodes, by rw [same]; rfl⟩
    | none =>
        refine ⟨(method.token, code) :: machine.bodies, fun other body otherKnown isBody => ?_, ?_⟩
        · rw [List.lookup_cons] at isBody
          split at isBody
          · rename_i same
            obtain rfl := tables.eq_of_knows fits knows otherKnown (by simpa using same)
            exact Option.some.inj isBody ▸ read
          · exact decodes other body otherKnown isBody
        · dsimp only
          rw [bind_of_ok module_run, read, bind_of_ok (ofExcept_ok_run _)]
          rfl
  obtain ⟨bodies, after, ran⟩ := decoded
  refine ⟨bodies, after, ?_⟩
  have attempted : attempt (Exec.decoded method) context machine =
      .ok (.ok code) { machine with bodies } := by
    unfold attempt
    rw [ran]
  unfold executable
  rw [bind_of_ok attempted]
  rfl

theorem executable_of_error (knows : context.module.Knows method)
    (decodes : context.module.Decodes machine.bodies) {error : Error}
    (read : MethodCode.ofMethod context.module method = .error error) :
    executable method context machine = .error (undecoded context.module method error) machine := by
  have decoded : decoded method context machine = .error error machine := by
    unfold Exec.decoded
    rw [bind_of_ok get_run]
    cases found : machine.bodies.lookup method.token with
    | some known =>
        rw [decodes method known knows found] at read
        cases read
    | none =>
        dsimp only
        rw [bind_of_ok module_run, read]
        rfl
  have attempted : attempt (Exec.decoded method) context machine = .ok (.error error) machine := by
    unfold attempt
    rw [decoded]
  unfold executable
  rw [bind_of_ok attempted]
  cases error <;> rfl

end Decoding

section Calls

variable {β : Type} {values : Value → β → Prop} {comparison : Comparison} {standing : Guises}
  {enclosure : Enclosure} {one two : Machine} (isolates : comparison.Isolates enclosure)
  (holds : (standing.bond enclosure.parallel).Holds one two) {method : MethodDef}
  (knows : enclosure.module.Knows method)

include holds in
theorem holds_withBodies {bodies otherBodies : List (Token × MethodCode)}
    (decodes : enclosure.module.Decodes bodies)
    (otherDecodes : enclosure.module.Decodes otherBodies) :
    (standing.bond enclosure.parallel).Holds { one with bodies }
      { two with bodies := otherBodies } :=
  ⟨holds.1.of_same ⟨rfl, rfl, rfl, rfl⟩ ⟨rfl, rfl, rfl, rfl⟩,
    holds.2.withBodies decodes otherDecodes⟩

include isolates holds knows

/-- No method of the core library has a body that can be read. -/
theorem native?_of_body (has : ¬ enclosure.module.LacksBody method) :
    one.native? method.token = none := by
  by_contra found
  obtain ⟨native, found⟩ := Option.ne_none_iff_exists'.mp found
  obtain ⟨operation, listed, _⟩ := holds.2.core _ _ found
  refine has ⟨_, Module.ofMethod_of_isInternalCall ?_, rfl⟩
  exact isolates.bare.reachable.isInternalCall_of_native isolates.bare.fits knows listed

/-- The plain thread calls a method that has code. -/
theorem callMethod_run (run : Runner) {code : MethodCode} (arguments : List Value)
    (read : MethodCode.ofMethod enclosure.module method = .ok code) :
    ∃ bodies, (standing.bond enclosure.parallel).Holds { one with bodies } two ∧
      callMethod run method arguments comparison.first one =
        run (.code code {} arguments) comparison.first { one with bodies } := by
  have sameModule := isolates.module
  have has := Module.not_lacksBody_of_code read
  obtain ⟨bodies, decodes, ran⟩ := executable_of_ok (sameModule ▸ isolates.bare.reachable.tables)
    (sameModule ▸ isolates.bare.fits) (sameModule ▸ knows) (sameModule ▸ holds.2.firstBodies)
    (sameModule ▸ read)
  refine ⟨bodies, holds_withBodies holds (sameModule ▸ decodes) holds.2.secondBodies, ?_⟩
  unfold callMethod
  rw [bind_of_ok get_run, native?_of_body isolates holds knows has,
    Module.isAbstract_of_body has]
  exact bind_of_ok ran

/-- The plain thread calls a method with a body that cannot be decoded. -/
theorem callMethod_of_error (run : Runner) {error : Error} (arguments : List Value)
    (read : MethodCode.ofMethod enclosure.module method = .error error)
    (spared : error.blamesBody = false) :
    callMethod run method arguments comparison.first one = .error error one := by
  have sameModule := isolates.module
  have has := Module.not_lacksBody_of_error read spared
  have failed := executable_of_error (sameModule ▸ knows) (sameModule ▸ holds.2.firstBodies)
    (sameModule ▸ read)
  unfold callMethod
  rw [bind_of_ok get_run, native?_of_body isolates holds knows has,
    Module.isAbstract_of_body has]
  change (executable method >>= _) comparison.first one = _
  rw [bind_run, failed]
  cases error with
  | unreadableMethodBody token => cases spared
  | _ => rfl

end Calls

end Exec

/-! ## Running what is called -/

/-- The type of the receiver that a body takes in a box, if it takes one. -/
def Module.boxedOwner? (module : Module) (method : MethodDef) (forInterface : Bool) :
    Option Token :=
  if forInterface && !method.isStatic && module.isValueType method.declaringType then
    some method.declaringType
  else none

/-- What is handed to a body where other arguments are handed to the method that it was made
from. -/
def Heap.Hands (heap : Heap) (owner? : Option Token) (arguments others : List Value) : Prop :=
  match owner? with
  | none => others = arguments
  | some owner => ∃ box rest, heap.HoldsBox owner box ∧
      arguments = .pointer (.boxed box) :: rest ∧ others = .object box :: rest

theorem Heap.hands_self {heap : Heap} {owner? : Option Token} (noBox : owner? = none)
    (arguments : List Value) : heap.Hands owner? arguments arguments := by
  rw [noBox]
  rfl

/-- Runners that run alike what the code of both threads calls: methods of the core library, the
code of methods, and bodies that the run made from them. -/
structure Comparison.RunsAlike (comparison : Comparison) (enclosure : Enclosure)
    (run other : Runner) : Prop where
  native {standing : Guises} {provided : Native} {operation : CoreNative} {arguments : List Value}
    (isCore : provided.body = .core operation)
    (spared : ∀ value ∈ arguments, standing.SparesValue value) :
    comparison.Tally (standing.bond enclosure.parallel) Eq (run (.native provided arguments))
      (other (.native provided arguments))
  code {standing : Guises} {method : MethodDef} {code : MethodCode} (arguments : List Value)
    (knows : enclosure.module.Knows method)
    (read : MethodCode.ofMethod enclosure.module method = .ok code) :
    comparison.Tally (standing.bond enclosure.parallel) Eq (run (.code code {} arguments))
      (other (.code code {} arguments))
  body {standing : Guises} {method : MethodDef} {code : MethodCode} {forInterface : Bool}
    {body : DynamicMethod} {arguments others : List Value} {one two : Machine}
    (knows : enclosure.module.Knows method)
    (read : MethodCode.ofMethod enclosure.module method = .ok code)
    (rewrites : enclosure.Rewrites method forInterface body)
    (hands : one.heap.Hands (enclosure.module.boxedOwner? method forInterface) arguments others)
    (holds : (standing.bond enclosure.parallel).Holds one two) :
    comparison.Tallies (standing.bond enclosure.parallel) Eq
      (run (.code code {} arguments) comparison.first one)
      (other (.code body.code body.scope others) comparison.second two)

/-- What the care lets pass leads to no receiver that came in a box. -/
theorem Machine.Mirrors.sparesValue {standing : Guises} {first second : Machine}
    (mirrors : first.Mirrors standing second) {value : Value}
    (spares : first.sparesValue value = true) : standing.SparesValue value := by
  cases value with
  | pointer location =>
      intro frame guise isRoot isGuise
      rcases mirrors.frame_cases frame with ⟨isNone, _⟩ | ⟨held, one, other, isHeld, isOne, _, fits⟩
      · have inside := (List.getElem?_eq_some_iff.mp isGuise).1
        rw [← mirrors.firstSize] at inside
        exact absurd isNone (by simp [inside])
      obtain rfl := Option.some.inj (isHeld.symm.trans isGuise)
      have passes := fits.arguments
      unfold Guise.Passes at passes
      split at passes
      · assumption
      · simp [Machine.sparesValue, Machine.spares, isRoot, isOne, Frame.holdsBoxAddress,
          passes.2.1] at spares
  | _ => trivial

namespace Exec

section Alike

variable {comparison : Comparison} {standing : Guises} {enclosure : Enclosure}
  {one two : Machine} (isolates : comparison.Isolates enclosure) {run other : Runner}
  (alike : comparison.RunsAlike enclosure run other) {method : MethodDef}
  (knows : enclosure.module.Knows method) {arguments others : List Value}

include isolates alike knows

/-- Both threads call a method. -/
theorem tally_callMethod (spared : ∀ value ∈ arguments, standing.SparesValue value) :
    comparison.Tally (standing.bond enclosure.parallel) Eq (callMethod run method arguments)
      (callMethod other method arguments) := by
  intro one two holds
  have sameModule := isolates.module
  have otherModule := comparison.sameModule.trans sameModule
  cases found : one.native? method.token with
  | some native =>
      obtain ⟨operation, _, isCore⟩ := holds.2.core _ _ found
      unfold callMethod
      rw [bind_of_ok get_run, bind_of_ok get_run, holds.2.native?, found]
      exact alike.native isCore spared one two holds
  | none =>
      unfold callMethod
      rw [bind_of_ok get_run, bind_of_ok get_run, holds.2.native?, found]
      dsimp only
      split
      · rw [bind_of_ok module_run, bind_of_ok module_run, comparison.sameModule]
        exact Comparison.Tally.throwSame _ _ _ holds
      cases read : MethodCode.ofMethod enclosure.module method with
      | ok code =>
          obtain ⟨bodies, decodes, ran⟩ := executable_of_ok
            (sameModule ▸ isolates.bare.reachable.tables) (sameModule ▸ isolates.bare.fits)
            (sameModule ▸ knows) (sameModule ▸ holds.2.firstBodies) (sameModule ▸ read)
          obtain ⟨otherBodies, otherDecodes, otherRan⟩ := executable_of_ok
            (otherModule ▸ isolates.bare.reachable.tables) (otherModule ▸ isolates.bare.fits)
            (otherModule ▸ knows) (otherModule ▸ holds.2.secondBodies) (otherModule ▸ read)
          rw [bind_of_ok ran, bind_of_ok otherRan]
          exact alike.code arguments knows read _ _
            (holds_withBodies holds (sameModule ▸ decodes) (otherModule ▸ otherDecodes))
      | error error =>
          have failed := executable_of_error (sameModule ▸ knows) (sameModule ▸ holds.2.firstBodies)
            (sameModule ▸ read)
          have otherFailed := executable_of_error (otherModule ▸ knows)
            (otherModule ▸ holds.2.secondBodies) (otherModule ▸ read)
          rw [bind_run, bind_run, failed, otherFailed, comparison.sameModule]
          exact Comparison.Tally.throwSame _ _ _ holds

/-- The plain thread calls a method, and the isolated one a body that was made from it. -/
theorem tallies_callBody (holds : (standing.bond enclosure.parallel).Holds one two)
    {forInterface : Bool} {body : DynamicMethod}
    (rewrites : enclosure.Rewrites method forInterface body)
    (hands : one.heap.Hands (enclosure.module.boxedOwner? method forInterface) arguments others) :
    comparison.Tallies (standing.bond enclosure.parallel) Eq
      (callMethod run method arguments comparison.first one)
      (other (.code body.code body.scope others) comparison.second two) := by
  obtain ⟨code, read⟩ := rewrites.exists_code
  obtain ⟨bodies, after, ran⟩ := callMethod_run isolates holds knows run arguments read
  rw [ran]
  exact alike.body knows read rewrites hands after

end Alike

/-! ## Virtual calls -/

section Virtual

variable {comparison : Comparison} {standing : Guises} {tables : CodeBond}
  {constraint? : Option Token} {method : MethodDef} {receiver given : Value} {one middle : Machine}

theorem Plan.run_own (run : Runner) (target : MethodDef) (others : List Value) :
    (Plan.own target).run run method receiver others =
      module >>= fun _ => callMethod run target (receiver :: others) := by
  simp only [Plan.run, Plan.target?, Plan.passed, pure_bind]

theorem mirrored_planned (spared : standing.SparesValue receiver) :
    Mirrored comparison standing tables (planned constraint? method receiver) := by
  unfold planned
  cases constraint? with
  | none => exact .pure rfl
  | some constraint =>
      cases receiver with
      | pointer location =>
          refine .module_bind ?_
          split
          · exact .seq (mirrored_load spared) fun _ => .pure rfl
          · refine .seq (.ofExcept _) fun target => ?_
            split
            · exact .pure rfl
            · exact .seq (mirrored_load spared) fun _ => .seq (mirrored_box _ _) fun _ => .pure rfl
      | _ => exact .pure rfl

theorem mirrored_target? (spared : standing.SparesValue given) :
    Mirrored comparison standing tables ((Plan.virtual given).target? method) := by
  unfold Plan.target?
  dsimp only
  split
  · exact .pure rfl
  · refine .seq (mirrored_receiverType? spared) fun type? => ?_
    cases type? with
    | none => exact .pure rfl
    | some type => exact .module_bind <| .seq (.ofExcept _) fun _ => .pure rfl

theorem sparesValue_of_isAddress (notAddress : given.isAddress = false) :
    standing.SparesValue given := by
  cases given with
  | pointer location => cases notAddress
  | _ => trivial

theorem sparesValue_unboxedReceiver (spared : standing.SparesValue given) :
    standing.SparesValue (unboxedReceiver given) := by
  cases given with
  | object reference => exact fun _ _ isArgument => by cases isArgument
  | _ => exact spared

/-- The receiver of a virtual call is the one that was given, or no address. -/
theorem sparesValue_of_planned
    (object : ∀ given middle,
      planned constraint? method receiver comparison.first one = .ok (.virtual given) middle →
        constraint?.isSome = true → given.isAddress = false)
    (spared : standing.SparesValue receiver)
    (plans : planned constraint? method receiver comparison.first one =
      .ok (.virtual given) middle) : standing.SparesValue given := by
  cases isSome : constraint?.isSome with
  | true => exact sparesValue_of_isAddress (object _ _ plans isSome)
  | false =>
      cases constraint? with
      | none =>
          cases plans
          exact spared
      | some constraint => cases isSome

/-- Whatever is passed on is spared. -/
theorem sparesValue_passed {module : Module} {target : MethodDef}
    (spared : standing.SparesValue given) (address : Value) :
    standing.SparesValue ((Plan.virtual given).passed module target address) := by
  unfold Plan.passed
  dsimp only
  split
  · exact sparesValue_unboxedReceiver spared
  · exact spared

end Virtual

section Alike

variable {comparison : Comparison} {standing : Guises} {enclosure : Enclosure}
  {one two : Machine} (isolates : comparison.Isolates enclosure) {run other : Runner}
  (alike : comparison.RunsAlike enclosure run other)
  (holds : (standing.bond enclosure.parallel).Holds one two) {method : MethodDef}
  (knows : enclosure.module.Knows method)

include isolates alike holds knows

/-- Both threads make a virtual call. -/
theorem tallies_virtualCall (constraint? : Option Token) {arguments : List Value}
    (spared : ∀ value ∈ arguments, standing.SparesValue value)
    (object : ∀ receiver ∈ arguments.head?, ∀ given middle,
      planned constraint? method receiver comparison.first one = .ok (.virtual given) middle →
        constraint?.isSome = true → given.isAddress = false) :
    comparison.Tallies (standing.bond enclosure.parallel) Eq
      (virtualCall run constraint? method arguments comparison.first one)
      (virtualCall other constraint? method arguments comparison.second two) := by
  cases arguments with
  | nil => cases constraint? <;> exact Comparison.Tally.throwSame _ _ _ holds
  | cons receiver others =>
      have object := object receiver rfl
      have sparedReceiver := spared receiver (by simp)
      have sparedOthers (value : Value) (member : value ∈ others) : standing.SparesValue value :=
        spared value (by simp [member])
      have knowsTarget {type : Token} {target : MethodDef}
          (resolved : comparison.first.module.resolveVirtual type method = .ok target) :
          enclosure.module.Knows target :=
        knows.of_resolveVirtual (isolates.module ▸ resolved)
      rw [virtualCall_eq, virtualCall_eq]
      refine (mirrored_planned sparedReceiver one two holds).seq_run
        fun plan middle final after plans => ?_
      cases plan with
      | own target =>
          obtain ⟨type, resolved⟩ := resolved_of_planned plans
          rw [Plan.run_own, Plan.run_own]
          exact Comparison.Tally.module_bind
            (tally_callMethod isolates alike (knowsTarget resolved) spared) _ _ after
      | virtual given =>
          have sparedGiven := sparesValue_of_planned object sparedReceiver plans
          refine (mirrored_target? sparedGiven _ _ after).seq_run
            fun target? middle final after found => ?_
          cases target? with
          | none => exact tally_nullReference _ _ after
          | some target =>
              refine Comparison.Tally.module_bind ?_ _ _ after
              have knowsTarget : enclosure.module.Knows target := by
                rcases (target?_cases found).2 target rfl with rfl | ⟨type, resolved⟩
                · exact knows
                · exact knowsTarget resolved
              refine tally_callMethod isolates alike knowsTarget fun value member => ?_
              rcases List.mem_cons.mp member with rfl | member
              · exact sparesValue_passed sparedGiven _
              · exact sparedOthers value member

end Alike

end Exec

end Cil
