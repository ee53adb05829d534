import Cil.Proofs.Machine.CallsInProgress
import Cil.Proofs.Machine.MirroredExecution

/-!
# Calls on machines that mirror each other

A call brings a frame.  If the frames of two calls stand for each other, then the calls tally if
what they execute does.  The second thread may also make a call of its own in between, which
brings no frame.
-/

namespace Cil

open MonadExcept (ofExcept)

namespace Exec

variable {α β : Type} {values : α → β → Prop} {comparison : Comparison} {standing : Guises}
  {tables : CodeBond} {one two : Machine}

/-! ## Counting calls -/

theorem holds_counted (holds : (standing.bond tables).Holds one two) (depth otherDepth : Nat) :
    (standing.bond tables).Holds { one with depth } { two with depth := otherDepth } :=
  ⟨holds.1.of_same ⟨rfl, rfl, rfl, rfl⟩ ⟨rfl, rfl, rfl, rfl⟩,
    tables.kept holds.2 ⟨rfl, rfl, rfl, rfl⟩ ⟨rfl, rfl, rfl, rfl⟩⟩

section Counted

variable {first : Exec α} {second : Exec β} (unlimited : comparison.Unlimited)

include unlimited

theorem tallies_asCall
    (tallies : comparison.Tallies (standing.bond tables) values
      (first comparison.first { one with depth := one.depth + 1 })
      (second comparison.second { two with depth := two.depth + 1 })) :
    comparison.Tallies (standing.bond tables) values (asCall first comparison.first one)
      (asCall second comparison.second two) := by
  rw [asCall_run, asCall_run, unlimited.calls, unlimited.otherCalls, if_neg (by simp),
    if_neg (by simp)]
  exact tallies.andFinally (fun _ _ holds => holds_counted holds _ _)
    (fun _ => ⟨rfl, rfl⟩) fun _ => ⟨rfl, rfl⟩

/-- The second thread makes a call of its own. -/
theorem tallies_otherAsCall
    (tallies : comparison.Tallies (standing.bond tables) values (first comparison.first one)
      (second comparison.second { two with depth := two.depth + 1 })) :
    comparison.Tallies (standing.bond tables) values (first comparison.first one)
      (asCall second comparison.second two) := by
  have plain : andFinally first id comparison.first one = first comparison.first one := by
    unfold andFinally
    cases first comparison.first one <;> rfl
  rw [asCall_run, unlimited.otherCalls, if_neg (by simp), ← plain]
  exact tallies.andFinally (fun one _ holds => holds_counted holds one.depth _)
    (fun _ => ⟨rfl, rfl⟩) fun _ => ⟨rfl, rfl⟩

end Counted

/-! ## Frames -/

/-- The guise of a frame in which no exceptions are received, and whose arguments are the
same. -/
def plainGuise : Guise where
  handlers _ _ := False

theorem shrink_of_holds {guise : Guise}
    (holds : ((standing ++ [guise]).bond tables).Holds one two) :
    (standing.bond tables).Holds
      { one with frames := one.frames.shrink standing.length }
      { two with frames := two.frames.shrink standing.length } :=
  ⟨holds.1.shrink, tables.kept holds.2 ⟨rfl, rfl, rfl, rfl⟩ ⟨rfl, rfl, rfl, rfl⟩⟩

theorem push_of_holds (holds : (standing.bond tables).Holds one two) {guise : Guise}
    (frame other : Frame) (fits : guise.Fits one.heap frame other) :
    ((standing ++ [guise]).bond tables).Holds { one with frames := one.frames.push frame }
      { two with frames := two.frames.push other } :=
  ⟨holds.1.push fits, tables.kept holds.2 ⟨rfl, rfl, rfl, rfl⟩ ⟨rfl, rfl, rfl, rfl⟩⟩

theorem tallies_inFrame {code image : MethodCode} (sameLocals : image.locals = code.locals)
    {arguments others : List Value} {guise : Guise}
    {body otherBody : Nat → Exec Value} (holds : (standing.bond tables).Holds one two)
    (passes : guise.Passes one.heap arguments.toArray others.toArray)
    (bodies : comparison.Tally ((standing ++ [guise]).bond tables) Eq (body standing.length)
      (otherBody standing.length)) :
    comparison.Tallies (standing.bond tables) Eq
      (inFrame code arguments body comparison.first one)
      (inFrame image others otherBody comparison.second two) := by
  unfold inFrame
  rw [bind_of_ok module_run, bind_of_ok module_run, comparison.sameModule, sameLocals]
  cases zeros : code.locals.mapM fun slot => comparison.first.module.zero slot.signature with
  | error error => exact Comparison.Tally.throwSame error _ _ holds
  | ok locals =>
      rw [bind_of_ok (ofExcept_ok_run _), bind_of_ok (ofExcept_ok_run _), bind_of_ok get_run,
        bind_of_ok get_run, holds.1.firstSize, holds.1.secondSize]
      exact (bodies _ _ (push_of_holds holds ⟨arguments.toArray, locals.toArray, []⟩
        ⟨others.toArray, locals.toArray, []⟩ ⟨rfl, .nil, passes⟩)).andFinally
        (fun _ _ => shrink_of_holds) (fun _ => ⟨rfl, rfl⟩) fun _ => ⟨rfl, rfl⟩

theorem tally_withTemporary (initial : Value) {use otherUse : Pointer → Exec Unit}
    (uses : comparison.Tally ((standing ++ [plainGuise]).bond tables) Eq
      (use (.localSlot standing.length 0)) (otherUse (.localSlot standing.length 0))) :
    comparison.Tally (standing.bond tables) Eq (withTemporary initial use)
      (withTemporary initial otherUse) := by
  intro one two holds
  rw [withTemporary_run, withTemporary_run, holds.1.firstSize, holds.1.secondSize]
  have used := uses _ _ (push_of_holds holds ⟨#[], #[initial], []⟩ ⟨#[], #[initial], []⟩
    ⟨rfl, .nil, rfl⟩)
  revert used
  rcases use (.localSlot standing.length 0) comparison.first _ with
      ⟨_, middle⟩ | ⟨error, middle⟩ <;>
    rcases otherUse (.localSlot standing.length 0) comparison.second _ with
      ⟨_, final⟩ | ⟨otherError, final⟩ <;> intro used
  · cases used with
    | value _ holds =>
        refine .value ?_ (shrink_of_holds holds)
        rcases holds.1.frame_cases standing.length with
          ⟨isNone, otherNone⟩ | ⟨_, frame, other, _, isFrame, isOther, fits⟩
        · rw [isNone, otherNone]
        · rw [isFrame, isOther, Option.bind_some, Option.bind_some, fits.locals]
  · cases used with
    | second excused => exact .second excused
  · cases used with
    | first excused => exact .first excused
  · cases used with
    | thrown holds => exact .thrown (shrink_of_holds holds)
    | failed resembles statics console => exact .failed resembles statics console
    | first excused => exact .first excused
    | second excused => exact .second excused

end Exec

end Cil
