import Cil.Proofs.Machine.Running

/-!
# Runs that tally

Two pieces of execution tally if, on machines between which a bond holds, they end with values
that belong together or with the same exception, and the bond holds again, or if they fail in the
same way and what can be seen of the machines is the same.  Some failures may be excused: where
one of the pieces ends with such a failure, nothing is said about the other one.  Pieces that
tally can be put together.
-/

namespace Cil

open MonadExcept (ofExcept)

/-- A relation between machines with the same objects, static fields and lines on the console. -/
structure Bond where
  Holds : Machine → Machine → Prop
  heap {first second : Machine} : Holds first second → second.heap = first.heap
  statics {first second : Machine} : Holds first second → second.statics = first.statics
  console {first second : Machine} : Holds first second → second.console = first.console

/-- The bond between two machines and no others. -/
def Bond.only {bond : Bond} {one two : Machine} (holds : bond.Holds one two) : Bond where
  Holds first second := first = one ∧ second = two
  heap same := by
    obtain ⟨rfl, rfl⟩ := same
    exact bond.heap holds
  statics same := by
    obtain ⟨rfl, rfl⟩ := same
    exact bond.statics holds
  console same := by
    obtain ⟨rfl, rfl⟩ := same
    exact bond.console holds

/-- Two threads of the same module, whose executions are compared unless they fail in an excused
way. -/
structure Comparison where
  first : Context
  second : Context
  sameModule : second.module = first.module
  /-- The failures of the first thread that are excused. -/
  ExcusesFirst : Error → Prop
  ExcusesSecond : Error → Prop
  first_ne {error : Error} : ExcusesFirst error → error.kind ≠ "Thrown"
  second_ne {error : Error} : ExcusesSecond error → error.kind ≠ "Thrown"

theorem Error.eq_thrown_of_kind {error : Error} (isThrown : error.kind = "Thrown") :
    ∃ exception, error = .thrown exception := by
  cases error with
  | thrown exception => exact ⟨exception, rfl⟩
  | _ => exact absurd isThrown (by simp [Error.kind])

/-- Errors of the same kind that throw nothing.  A managed exception that was described is
described in the same way. -/
structure Error.Resembles (error other : Error) : Prop where
  kind : other.kind = error.kind
  uncaught : error.kind ≠ "Thrown"
  described : error.kind = "ManagedException" → other = error

theorem Error.Resembles.self {error : Error} (uncaught : error.kind ≠ "Thrown") :
    error.Resembles error :=
  ⟨rfl, uncaught, fun _ => rfl⟩

theorem Error.Resembles.of_kind {error other : Error} (kind : other.kind = error.kind)
    (unlike : error.kind ≠ "Thrown" ∧ error.kind ≠ "ManagedException") :
    error.Resembles other :=
  ⟨kind, unlike.1, fun described => absurd described unlike.2⟩

namespace Comparison

variable {α β γ δ : Type} {comparison : Comparison} {bond : Bond} {values : α → β → Prop}
  {results : γ → δ → Prop}

/-- How two pieces of execution may have ended. -/
inductive Tallies (comparison : Comparison) (bond : Bond) (values : α → β → Prop) :
    EStateM.Result Error Machine α → EStateM.Result Error Machine β → Prop
  | value {value : α} {other : β} {first second : Machine} (related : values value other)
      (holds : bond.Holds first second) :
      Tallies comparison bond values (.ok value first) (.ok other second)
  | thrown {exception : HeapRef} {first second : Machine} (holds : bond.Holds first second) :
      Tallies comparison bond values (.error (.thrown exception) first)
        (.error (.thrown exception) second)
  | failed {error other : Error} {first second : Machine} (resembles : error.Resembles other)
      (statics : second.statics = first.statics) (console : second.console = first.console) :
      Tallies comparison bond values (.error error first) (.error other second)
  | first {error : Error} {machine : Machine} {result : EStateM.Result Error Machine β}
      (excused : comparison.ExcusesFirst error) :
      Tallies comparison bond values (.error error machine) result
  | second {error : Error} {machine : Machine} {result : EStateM.Result Error Machine α}
      (excused : comparison.ExcusesSecond error) :
      Tallies comparison bond values result (.error error machine)

/-- Two pieces of execution tally wherever a bond holds. -/
def Tally (comparison : Comparison) (bond : Bond) (values : α → β → Prop) (first : Exec α)
    (second : Exec β) : Prop :=
  ∀ one two, bond.Holds one two →
    comparison.Tallies bond values (first comparison.first one) (second comparison.second two)

/-- The outcomes of executions that managed exceptions may end. -/
def Outcomes (values : α → β → Prop) : Except HeapRef α → Except HeapRef β → Prop
  | .ok value, .ok other => values value other
  | .error exception, .error other => other = exception
  | _, _ => False

theorem Outcomes.cases {outcome : Except HeapRef α} {otherOutcome : Except HeapRef β}
    (related : Outcomes values outcome otherOutcome) :
    (∃ value other, outcome = .ok value ∧ otherOutcome = .ok other ∧ values value other) ∨
      ∃ exception, outcome = .error exception ∧ otherOutcome = .error exception := by
  cases outcome with
  | ok value =>
      cases otherOutcome with
      | ok other => exact .inl ⟨value, other, rfl, rfl, related⟩
      | error _ => exact related.elim
  | error exception =>
      cases otherOutcome with
      | ok _ => exact related.elim
      | error other => exact .inr ⟨exception, rfl, congrArg _ related⟩

namespace Tallies

theorem weaken {first : EStateM.Result Error Machine α} {second : EStateM.Result Error Machine β}
    {looser : Bond} {weaker : α → β → Prop} (tallies : comparison.Tallies bond values first second)
    (bonds : ∀ one two, bond.Holds one two → looser.Holds one two)
    (implies : ∀ value other, values value other → weaker value other) :
    comparison.Tallies looser weaker first second := by
  cases tallies with
  | value related holds => exact .value (implies _ _ related) (bonds _ _ holds)
  | thrown holds => exact .thrown (bonds _ _ holds)
  | failed resembles statics console => exact .failed resembles statics console
  | first excused => exact .first excused
  | second excused => exact .second excused

/-- Both threads go on from where two pieces of execution that tally ended. -/
theorem bind_run {inner : Bond} {first : Exec α} {second : Exec β} {next : α → Exec γ}
    {other : β → Exec δ} {one two : Machine}
    (tallies : comparison.Tallies inner values (first comparison.first one)
      (second comparison.second two))
    (nexts : ∀ value otherValue middle final, values value otherValue →
      inner.Holds middle final →
      first comparison.first one = .ok value middle →
      comparison.Tallies bond results (next value comparison.first middle)
        (other otherValue comparison.second final))
    (bonds : ∀ one two, inner.Holds one two → bond.Holds one two) :
    comparison.Tallies bond results ((first >>= next) comparison.first one)
      ((second >>= other) comparison.second two) := by
  rw [Exec.bind_run, Exec.bind_run]
  generalize ran : first comparison.first one = ended at tallies
  generalize second comparison.second two = otherEnded at tallies ⊢
  cases tallies with
  | value related holds => exact nexts _ _ _ _ related holds ran
  | thrown holds => exact .thrown (bonds _ _ holds)
  | failed resembles statics console => exact .failed resembles statics console
  | first excused => exact .first excused
  | second excused => exact .second excused

/-- Both threads go on with the same value. -/
theorem seq_run {first second : Exec α} {next : α → Exec γ} {other : α → Exec δ}
    {one two : Machine}
    (tallies : comparison.Tallies bond Eq (first comparison.first one)
      (second comparison.second two))
    (nexts : ∀ value middle final, bond.Holds middle final →
      first comparison.first one = .ok value middle →
        comparison.Tallies bond results (next value comparison.first middle)
          (other value comparison.second final)) :
    comparison.Tallies bond results ((first >>= next) comparison.first one)
      ((second >>= other) comparison.second two) := by
  refine tallies.bind_run ?_ fun _ _ => id
  rintro value _ middle final rfl holds ran
  exact nexts value middle final holds ran

theorem catchThrown {first : Exec α} {second : Exec β} {one two : Machine}
    (tallies : comparison.Tallies bond values (first comparison.first one)
      (second comparison.second two)) :
    comparison.Tallies bond (Outcomes values) (Exec.catchThrown first comparison.first one)
      (Exec.catchThrown second comparison.second two) := by
  generalize ran : first comparison.first one = ended at tallies
  generalize otherRan : second comparison.second two = otherEnded at tallies
  cases tallies with
  | value related holds =>
      rw [Exec.catchThrown_ok_iff.mpr ran, Exec.catchThrown_ok_iff.mpr otherRan]
      exact .value related holds
  | thrown holds =>
      rw [Exec.catchThrown_error_iff.mpr ran, Exec.catchThrown_error_iff.mpr otherRan]
      exact .value rfl holds
  | failed resembles statics console =>
      rw [Exec.catchThrown_of_uncaught resembles.uncaught ran,
        Exec.catchThrown_of_uncaught (resembles.kind ▸ resembles.uncaught) otherRan]
      exact .failed resembles statics console
  | first excused =>
      rw [Exec.catchThrown_of_uncaught (comparison.first_ne excused) ran]
      exact .first excused
  | second excused =>
      rw [Exec.catchThrown_of_uncaught (comparison.second_ne excused) otherRan]
      exact .second excused

theorem throw {error other : Error} {one two : Machine} (holds : bond.Holds one two)
    (kind : other.kind = error.kind)
    (unlike : error.kind ≠ "Thrown" ∧ error.kind ≠ "ManagedException") :
    comparison.Tallies bond values ((throw error : Exec α) comparison.first one)
      ((throw other : Exec β) comparison.second two) :=
  .failed (.of_kind kind unlike) (bond.statics holds) (bond.console holds)

/-- What is cleaned up cannot be seen. -/
theorem andFinally {inner : Bond} {first : Exec α} {second : Exec β} {one two : Machine}
    {cleanUp otherCleanUp : Machine → Machine}
    (tallies : comparison.Tallies inner values (first comparison.first one)
      (second comparison.second two))
    (cleaned : ∀ one two, inner.Holds one two → bond.Holds (cleanUp one) (otherCleanUp two))
    (unseen : ∀ machine, (cleanUp machine).statics = machine.statics ∧
      (cleanUp machine).console = machine.console)
    (otherUnseen : ∀ machine, (otherCleanUp machine).statics = machine.statics ∧
      (otherCleanUp machine).console = machine.console) :
    comparison.Tallies bond values (Exec.andFinally first cleanUp comparison.first one)
      (Exec.andFinally second otherCleanUp comparison.second two) := by
  unfold Exec.andFinally
  generalize first comparison.first one = ended at tallies ⊢
  generalize second comparison.second two = otherEnded at tallies ⊢
  cases tallies with
  | value related holds => exact .value related (cleaned _ _ holds)
  | thrown holds => exact .thrown (cleaned _ _ holds)
  | failed resembles statics console =>
      refine .failed resembles ?_ ?_
      · rw [(unseen _).1, (otherUnseen _).1, statics]
      · rw [(unseen _).2, (otherUnseen _).2, console]
  | first excused => exact .first excused
  | second excused => exact .second excused

end Tallies

namespace Tally

theorem weaken {weaker : α → β → Prop} {first : Exec α} {second : Exec β}
    (tally : comparison.Tally bond values first second)
    (implies : ∀ value other, values value other → weaker value other) :
    comparison.Tally bond weaker first second :=
  fun one two holds => (tally one two holds).weaken (fun _ _ => id) implies

theorem bind {first : Exec α} {second : Exec β} {next : α → Exec γ} {other : β → Exec δ}
    (firsts : comparison.Tally bond values first second)
    (nexts : ∀ value otherValue, values value otherValue →
      comparison.Tally bond results (next value) (other otherValue)) :
    comparison.Tally bond results (first >>= next) (second >>= other) :=
  fun one two holds => (firsts one two holds).bind_run
    (fun value otherValue _ _ related middle _ => nexts value otherValue related _ _ middle)
    fun _ _ => id

/-- Both threads go on with the same value. -/
theorem seq {first second : Exec α} {next : α → Exec γ} {other : α → Exec δ}
    (firsts : comparison.Tally bond Eq first second)
    (nexts : ∀ value, comparison.Tally bond results (next value) (other value)) :
    comparison.Tally bond results (first >>= next) (second >>= other) :=
  firsts.bind fun value _ same => same ▸ nexts value

/-- Both threads go on with the same value, of which something is known. -/
theorem share {known : α → Prop} {first second : Exec α} {next : α → Exec γ} {other : α → Exec δ}
    (firsts : comparison.Tally bond (fun one two => one = two ∧ known one) first second)
    (nexts : ∀ value, known value → comparison.Tally bond results (next value) (other value)) :
    comparison.Tally bond results (first >>= next) (second >>= other) := by
  refine firsts.bind ?_
  rintro value _ ⟨rfl, isKnown⟩
  exact nexts value isKnown

theorem pure {value : α} {other : β} (related : values value other) :
    comparison.Tally bond values (Pure.pure value) (Pure.pure other) :=
  fun _ _ holds => .value related holds

theorem throw {error other : Error} (kind : other.kind = error.kind)
    (unlike : error.kind ≠ "Thrown" ∧ error.kind ≠ "ManagedException") :
    comparison.Tally bond values (throw error) (throw other) :=
  fun _ _ holds => .failed (.of_kind kind unlike) (bond.statics holds) (bond.console holds)

theorem throwSame (error : Error) : comparison.Tally bond values (MonadExcept.throw error)
    (MonadExcept.throw error) := by
  intro one two holds
  by_cases isThrown : error.kind = "Thrown"
  · obtain ⟨exception, rfl⟩ := Error.eq_thrown_of_kind isThrown
    exact .thrown holds
  · exact .failed (.self isThrown) (bond.statics holds) (bond.console holds)

theorem first {error : Error} {second : Exec β} (excused : comparison.ExcusesFirst error) :
    comparison.Tally bond values (MonadExcept.throw error) second :=
  fun _ _ _ => .first excused

theorem second {error : Error} {first : Exec α} (excused : comparison.ExcusesSecond error) :
    comparison.Tally bond values first (MonadExcept.throw error) :=
  fun _ _ _ => .second excused

theorem ofExcept (outcome : Except Error α) :
    comparison.Tally bond Eq (ofExcept outcome) (MonadExcept.ofExcept outcome) := by
  cases outcome with
  | ok value => exact pure rfl
  | error error => exact throwSame error

theorem module : comparison.Tally bond Eq Exec.module Exec.module :=
  fun _ _ holds => .value comparison.sameModule.symm holds

/-- Both threads have the module of the first one. -/
theorem module_bind {next : Module → Exec γ} {other : Module → Exec δ}
    (nexts : comparison.Tally bond results (next comparison.first.module)
      (other comparison.first.module)) :
    comparison.Tally bond results (Exec.module >>= next) (Exec.module >>= other) := by
  intro one two holds
  have after := nexts one two holds
  rw [Exec.bind_run, Exec.bind_run, Exec.module_run, Exec.module_run, comparison.sameModule]
  exact after

/-- What is asked of the machines is answered in the same way. -/
theorem get_bind {ε : Type} (query : Machine → ε) (next : ε → Exec γ) (other : ε → Exec δ)
    (same : ∀ one two, bond.Holds one two → query two = query one)
    (nexts : ∀ value, comparison.Tally bond results (next value) (other value)) :
    comparison.Tally bond results (get >>= fun machine => next (query machine))
      (get >>= fun machine => other (query machine)) := by
  intro one two holds
  rw [Exec.bind_run, Exec.bind_run, Exec.get_run, Exec.get_run]
  dsimp only
  rw [same one two holds]
  exact nexts _ one two holds

theorem modify {change otherChange : Machine → Machine}
    (kept : ∀ one two, bond.Holds one two → bond.Holds (change one) (otherChange two)) :
    comparison.Tally bond Eq (MonadState.modifyGet fun machine => (⟨⟩, change machine) : Exec PUnit)
      (MonadState.modifyGet fun machine => (⟨⟩, otherChange machine)) :=
  fun _ _ holds => .value rfl (kept _ _ holds)

theorem readHeap (query : Heap → Except Error α) :
    comparison.Tally bond Eq (Exec.readHeap query) (Exec.readHeap query) :=
  get_bind (fun machine => query machine.heap) (fun outcome => MonadExcept.ofExcept outcome)
    (fun outcome => MonadExcept.ofExcept outcome)
    (fun _ _ holds => congrArg query (bond.heap holds)) ofExcept

theorem discard {first : Exec α} {second : Exec β}
    (tally : comparison.Tally bond values first second) :
    comparison.Tally bond Eq (Functor.discard first) (Functor.discard second) := by
  intro one two holds
  have before := tally one two holds
  change comparison.Tallies bond Eq (EStateM.map _ (first comparison.first) one)
    (EStateM.map _ (second comparison.second) two)
  unfold EStateM.map
  generalize first comparison.first one = ended at before ⊢
  generalize second comparison.second two = otherEnded at before ⊢
  cases before with
  | value related holds => exact .value rfl holds
  | thrown holds => exact .thrown holds
  | failed resembles statics console => exact .failed resembles statics console
  | first excused => exact .first excused
  | second excused => exact .second excused

/-- Pieces that tally whatever the bond is leave the machines as they are. -/
theorem bind_still {first : Exec α} {second : Exec β} {next : α → Exec γ} {other : β → Exec δ}
    {one two : Machine} (firsts : ∀ bond, comparison.Tally bond values first second)
    (holds : bond.Holds one two)
    (nexts : ∀ value otherValue, values value otherValue →
      first comparison.first one = .ok value one →
        comparison.Tallies bond results (next value comparison.first one)
          (other otherValue comparison.second two)) :
    comparison.Tallies bond results ((first >>= next) comparison.first one)
      ((second >>= other) comparison.second two) := by
  refine (firsts (.only holds) one two ⟨rfl, rfl⟩).bind_run ?_ ?_
  · rintro value otherValue _ _ related ⟨rfl, rfl⟩ ran
    exact nexts value otherValue related ran
  · rintro _ _ ⟨rfl, rfl⟩
    exact holds

/-- Both threads go on with the same value, of which something is known, on machines that are as
they were. -/
theorem share_still {known : α → Prop} {first second : Exec α} {next : α → Exec γ}
    {other : α → Exec δ} {one two : Machine}
    (firsts : ∀ bond, comparison.Tally bond (fun one two => one = two ∧ known one) first second)
    (holds : bond.Holds one two)
    (nexts : ∀ value, known value → first comparison.first one = .ok value one →
      comparison.Tallies bond results (next value comparison.first one)
        (other value comparison.second two)) :
    comparison.Tallies bond results ((first >>= next) comparison.first one)
      ((second >>= other) comparison.second two) := by
  refine bind_still firsts holds ?_
  rintro value _ ⟨rfl, isKnown⟩ ran
  exact nexts value isKnown ran

theorem seq_still {first second : Exec α} {next : α → Exec γ} {other : α → Exec δ}
    {one two : Machine} (firsts : ∀ bond, comparison.Tally bond Eq first second)
    (holds : bond.Holds one two)
    (nexts : ∀ value, first comparison.first one = .ok value one →
      comparison.Tallies bond results (next value comparison.first one)
        (other value comparison.second two)) :
    comparison.Tallies bond results ((first >>= next) comparison.first one)
      ((second >>= other) comparison.second two) := by
  refine bind_still firsts holds ?_
  rintro value _ rfl ran
  exact nexts value ran

theorem catchThrown {first : Exec α} {second : Exec β}
    (tally : comparison.Tally bond values first second) :
    comparison.Tally bond (Outcomes values) (Exec.catchThrown first) (Exec.catchThrown second) :=
  fun one two holds => (tally one two holds).catchThrown

end Tally

end Comparison

end Cil
