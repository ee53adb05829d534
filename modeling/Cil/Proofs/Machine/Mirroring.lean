import Cil.Proofs.Machine.Lenses
import Cil.Proofs.Machine.Running
import Mathlib.Data.List.Forall2

/-!
# Machines that mirror each other

A machine mirrors another one if it has the same objects, static fields and lines on the console,
and frames that hold the same.  Two things may differ: where a frame of the first machine has the
address of what is in a box as its receiver, that of the second one may have the box, and the
clauses that received the exceptions of a frame may have other indices.
-/

namespace Cil

open Stateful
open MonadExcept (ofExcept)

/-! ## Boxes that stay boxes -/

/-- Whether a reference is to a box of a type. -/
def Heap.HoldsBox (heap : Heap) (owner : Token) (box : HeapRef) : Prop :=
  ∃ value, heap.get box = .ok (.boxed owner value)

namespace Heap

variable {owner : Token} {box : HeapRef}

theorem keepsBox_allocate (object : HeapObject) :
    Keeps (HoldsBox · owner box) (allocate object) := by
  refine .bind .get fun heap => ?_
  have added : Keeps (HoldsBox · owner box) (modifyGet (fun heap : Heap =>
      ((⟨heap.count + 1⟩ : HeapRef),
        { heap with objects := heap.objects.push object })) : HeapM _) :=
    .modifyGet fun heap ⟨value, held⟩ => ⟨value, get_push held⟩
  dsimp only
  split
  · exact .bind (.throw _) fun _ => added
  · exact added

theorem HoldsBox.put {heap : Heap} {reference : HeapRef} {object changed : HeapObject}
    (holds : heap.HoldsBox owner box) (live : heap.get reference = .ok object)
    (kept : ∀ value, object = .boxed owner value → ∃ value, changed = .boxed owner value) :
    (heap.put reference changed).HoldsBox owner box := by
  obtain ⟨value, held⟩ := holds
  by_cases same : box = reference
  · subst same
    obtain ⟨new, rfl⟩ := kept value (Except.ok.inj (live.symm.trans held))
    exact ⟨new, get_put live⟩
  · exact ⟨value, (get_put_of_ne live same).trans held⟩

/-- To read an object and to go on with what it becomes keeps boxes, if going on does. -/
theorem keepsBox_bind {α β : Type} (reference : HeapRef)
    {change : HeapObject → Except Error α} {rest : α → HeapM β}
    (kept : ∀ heap : Heap, heap.HoldsBox owner box → ∀ object made,
      heap.get reference = .ok object → change object = .ok made →
      (finalState (rest made heap)).HoldsBox owner box) :
    Keeps (HoldsBox · owner box) (do
      let object ← ofExcept ((← get).get reference)
      let made ← ofExcept (change object)
      rest made : HeapM β) := by
  intro heap holds
  cases found : heap.get reference >>= change with
  | error error =>
      rw [refused_bind found]
      exact holds
  | ok made =>
      obtain ⟨object, live, changes⟩ := except_bind_eq_ok.mp found
      rw [made_bind live changes]
      exact kept heap holds object made live changes

/-- A change of an object keeps boxes if it makes boxes of boxes. -/
theorem keepsBox_update (reference : HeapRef) {change : HeapObject → Except Error HeapObject}
    (kept : ∀ value changed, change (.boxed owner value) = .ok changed →
      ∃ value, changed = .boxed owner value) :
    Keeps (HoldsBox · owner box) (update reference change) :=
  keepsBox_bind reference fun _ holds _ changed live made =>
    holds.put live fun value isBox => kept value changed (isBox ▸ made)

/-- A change of an object that is no box keeps the boxes. -/
theorem HoldsBox.update {heap : Heap} {reference : HeapRef}
    {change : HeapObject → Except Error HeapObject} (holds : heap.HoldsBox owner box)
    (noBox : ∀ type value, heap.get reference ≠ .ok (.boxed type value)) :
    (finalState (update reference change heap)).HoldsBox owner box := by
  unfold Heap.update
  cases found : heap.get reference >>= change with
  | error error =>
      rw [refused_bind found]
      exact holds
  | ok made =>
      obtain ⟨object, live, changes⟩ := except_bind_eq_ok.mp found
      rw [made_bind live changes]
      exact holds.put live fun value isBox => absurd (isBox ▸ live) (noBox _ _)

theorem keepsBox_setField (reference : HeapRef) (key : Token) (new : Value) :
    Keeps (HoldsBox · owner box) (setField reference key new) := by
  refine keepsBox_update reference fun value changed made => ?_
  obtain ⟨inside, _, made⟩ := except_bind_eq_ok.mp made
  exact ⟨inside, (Except.ok.inj made).symm⟩

theorem keepsBox_setBoxed (reference : HeapRef) (new : Value) :
    Keeps (HoldsBox · owner box) (setBoxed reference new) :=
  keepsBox_update reference fun _ _ made => ⟨new, (Except.ok.inj made).symm⟩

theorem keepsBox_setElement (reference : HeapRef) (index : Nat) (new : Value) :
    Keeps (HoldsBox · owner box) (setElement reference index new) := by
  refine keepsBox_bind reference fun heap holds object changed? live made => ?_
  cases changed? with
  | none => exact holds
  | some changed =>
      refine holds.put live fun value isBox => ?_
      subst isBox
      cases made

end Heap

/-! ## Frames -/

/-- How a frame of the second machine stands for one of the first. -/
structure Guise where
  /-- The box that the second frame has as its receiver, and its type. -/
  box? : Option (HeapRef × Token) := none
  /-- Which clauses of the code of the second frame stand for which of the first. -/
  handlers : Nat → Nat → Prop

namespace Guise

/-- The second frame has the arguments of the first, up to a receiver in a box. -/
def Passes (guise : Guise) (heap : Heap) (first second : Array Value) : Prop :=
  match guise.box? with
  | none => second = first
  | some (box, owner) => heap.HoldsBox owner box ∧ first[0]? = some (.pointer (.boxed box)) ∧
      second = first.set! 0 (.object box)

structure Fits (guise : Guise) (heap : Heap) (first second : Frame) : Prop where
  locals : second.locals = first.locals
  caught : List.Forall₂ (fun one other => guise.handlers one.1 other.1 ∧ other.2 = one.2)
    first.caught second.caught
  arguments : guise.Passes heap first.arguments second.arguments

variable {guise : Guise} {heap : Heap} {first second : Array Value}

theorem Passes.size (passes : guise.Passes heap first second) : second.size = first.size := by
  unfold Passes at passes
  split at passes
  · rw [passes]
  · rw [passes.2.2]
    simp

theorem Passes.getElem? (passes : guise.Passes heap first second) {index : Nat}
    (spared : index = 0 → guise.box? = none) : second[index]? = first[index]? := by
  unfold Passes at passes
  split at passes
  · rw [passes]
  · rename_i found
    have other : 0 ≠ index := fun isFirst => by
      rw [spared isFirst.symm] at found
      cases found
    rw [passes.2.2, Array.set!_eq_setIfInBounds, Array.getElem?_setIfInBounds_ne other]

theorem Passes.set (passes : guise.Passes heap first second) {index : Nat} (value : Value)
    (spared : index = 0 → guise.box? = none) :
    guise.Passes heap (first.set! index value) (second.set! index value) := by
  unfold Passes at passes ⊢
  split at passes
  · rw [passes]
  · rename_i box owner found
    have other : index ≠ 0 := fun isFirst => by
      rw [spared isFirst] at found
      cases found
    obtain ⟨holds, address, same⟩ := passes
    simp only [Array.set!_eq_setIfInBounds] at same ⊢
    refine ⟨holds, ?_, ?_⟩
    · rw [Array.getElem?_setIfInBounds_ne other]
      exact address
    · rw [same]
      exact Array.setIfInBounds_comm _ _ other.symm

theorem Passes.mono {wider : Heap} (passes : guise.Passes heap first second)
    (kept : ∀ owner box, heap.HoldsBox owner box → wider.HoldsBox owner box) :
    guise.Passes wider first second := by
  unfold Passes at passes ⊢
  split at passes
  · exact passes
  · exact ⟨kept _ _ passes.1, passes.2⟩

end Guise

/-- The guises of the frames in progress, the outermost call first. -/
abbrev Guises := List Guise

/-- Whether what stands at the root of a pointer is the same in both machines. -/
def Guises.Spares (standing : Guises) (pointer : Pointer) : Prop :=
  ∀ frame guise, pointer.root = .argument frame 0 → standing[frame]? = some guise →
    guise.box? = none

/-! ## Machines -/

/-- The second machine mirrors the first one. -/
structure Machine.Mirrors (standing : Guises) (first second : Machine) : Prop where
  heap : second.heap = first.heap
  statics : second.statics = first.statics
  console : second.console = first.console
  firstSize : first.frames.size = standing.length
  secondSize : second.frames.size = standing.length
  frames : ∀ (index : Nat) (guise : Guise) (one other : Frame), standing[index]? = some guise →
    first.frames[index]? = some one → second.frames[index]? = some other →
    guise.Fits first.heap one other

namespace Machine.Mirrors

variable {standing : Guises} {first second : Machine}

/-- A frame is missing in both machines, or the second machine has one that stands for it. -/
theorem frame_cases (mirrors : first.Mirrors standing second) (index : Nat) :
    (first.frames[index]? = none ∧ second.frames[index]? = none) ∨
      ∃ guise one other, standing[index]? = some guise ∧ first.frames[index]? = some one ∧
        second.frames[index]? = some other ∧ guise.Fits first.heap one other := by
  by_cases inside : index < standing.length
  · have inFirst : index < first.frames.size := mirrors.firstSize ▸ inside
    have inSecond : index < second.frames.size := mirrors.secondSize ▸ inside
    refine .inr ⟨_, _, _, List.getElem?_eq_getElem inside, Array.getElem?_eq_getElem inFirst,
      Array.getElem?_eq_getElem inSecond, ?_⟩
    exact mirrors.frames index _ _ _ (List.getElem?_eq_getElem inside)
      (Array.getElem?_eq_getElem inFirst) (Array.getElem?_eq_getElem inSecond)
  · have firstSize := mirrors.firstSize
    have secondSize := mirrors.secondSize
    exact .inl ⟨Array.getElem?_eq_none (by omega), Array.getElem?_eq_none (by omega)⟩

/-- Mirroring is about objects, static fields, lines and frames only. -/
theorem of_same {after final : Machine} (mirrors : first.Mirrors standing second)
    (same : after.heap = first.heap ∧ after.statics = first.statics ∧
      after.console = first.console ∧ after.frames = first.frames)
    (sameOther : final.heap = second.heap ∧ final.statics = second.statics ∧
      final.console = second.console ∧ final.frames = second.frames) :
    after.Mirrors standing final := by
  obtain ⟨heap, statics, console, frames⟩ := same
  obtain ⟨otherHeap, otherStatics, otherConsole, otherFrames⟩ := sameOther
  exact
    { heap := by rw [otherHeap, heap, mirrors.heap]
      statics := by rw [otherStatics, statics, mirrors.statics]
      console := by rw [otherConsole, console, mirrors.console]
      firstSize := by rw [frames, mirrors.firstSize]
      secondSize := by rw [otherFrames, mirrors.secondSize]
      frames := by rw [frames, otherFrames, heap]; exact mirrors.frames }

theorem withHeap (mirrors : first.Mirrors standing second) {heap : Heap}
    (kept : ∀ owner box, first.heap.HoldsBox owner box → heap.HoldsBox owner box) :
    Mirrors standing { first with heap } { second with heap } :=
  { mirrors with
    heap := rfl
    frames := fun index guise one other isGuise isOne isOther =>
      have fits := mirrors.frames index guise one other isGuise isOne isOther
      ⟨fits.locals, fits.caught, fits.arguments.mono kept⟩ }

theorem setStatic (mirrors : first.Mirrors standing second) (field : Token) (value : Value) :
    Mirrors standing (first.setStatic field value) (second.setStatic field value) :=
  { mirrors with
    statics := by unfold Machine.setStatic; rw [mirrors.statics] }

theorem writeLine (mirrors : first.Mirrors standing second) (line : String) :
    Mirrors standing (first.writeLine line) (second.writeLine line) :=
  { mirrors with
    console := by unfold Machine.writeLine; rw [mirrors.console] }

/-- A frame is changed in both machines. -/
theorem modifyFrame (mirrors : first.Mirrors standing second) (index : Nat)
    {change otherChange : Frame → Frame}
    (fits : ∀ guise one other, standing[index]? = some guise → guise.Fits first.heap one other →
      guise.Fits first.heap (change one) (otherChange other)) :
    Mirrors standing { first with frames := first.frames.modify index change }
      { second with frames := second.frames.modify index otherChange } where
  heap := mirrors.heap
  statics := mirrors.statics
  console := mirrors.console
  firstSize := by rw [Array.size_modify]; exact mirrors.firstSize
  secondSize := by rw [Array.size_modify]; exact mirrors.secondSize
  frames place guise one other isGuise isOne isOther := by
    rw [Array.getElem?_modify] at isOne isOther
    by_cases here : index = place
    · subst here
      rw [if_pos rfl] at isOne isOther
      obtain ⟨before, isBefore, rfl⟩ := Option.map_eq_some_iff.mp isOne
      obtain ⟨otherBefore, isOtherBefore, rfl⟩ := Option.map_eq_some_iff.mp isOther
      exact fits guise _ _ isGuise (mirrors.frames _ _ _ _ isGuise isBefore isOtherBefore)
    · rw [if_neg here] at isOne isOther
      exact mirrors.frames _ _ _ _ isGuise isOne isOther

theorem push (mirrors : first.Mirrors standing second) {guise : Guise} {one other : Frame}
    (fits : guise.Fits first.heap one other) :
    Mirrors (standing ++ [guise]) { first with frames := first.frames.push one }
      { second with frames := second.frames.push other } where
  heap := mirrors.heap
  statics := mirrors.statics
  console := mirrors.console
  firstSize := by simp [mirrors.firstSize]
  secondSize := by simp [mirrors.secondSize]
  frames index held before otherBefore isGuise isOne isOther := by
    simp only [Array.getElem?_push, List.getElem?_append, mirrors.firstSize,
      mirrors.secondSize] at isGuise isOne isOther
    by_cases inside : index < standing.length
    · rw [if_pos inside] at isGuise
      rw [if_neg (by omega)] at isOne isOther
      exact mirrors.frames _ _ _ _ isGuise isOne isOther
    · by_cases last : index = standing.length
      · subst last
        simp only [Nat.lt_irrefl, ↓reduceIte, Nat.sub_self, List.getElem?_cons_zero,
          Option.some.injEq] at isGuise isOne isOther
        subst isGuise isOne isOther
        exact fits
      · rw [if_neg last, Array.getElem?_eq_none (by
          have := mirrors.firstSize
          omega)] at isOne
        cases isOne

theorem shrink {guise : Guise} (mirrors : first.Mirrors (standing ++ [guise]) second) :
    Mirrors standing { first with frames := first.frames.shrink standing.length }
      { second with frames := second.frames.shrink standing.length } where
  heap := mirrors.heap
  statics := mirrors.statics
  console := mirrors.console
  firstSize := by simp [mirrors.firstSize]
  secondSize := by simp [mirrors.secondSize]
  frames index held one other isGuise isOne isOther := by
    have inside := (List.getElem?_eq_some_iff.mp isGuise).1
    refine mirrors.frames index held one other ?_ ?_ ?_
    · rw [List.getElem?_append_left inside, isGuise]
    · rw [Array.shrink_eq_take, Array.getElem?_extract] at isOne
      simpa using (Option.ite_none_right_eq_some.mp isOne).2
    · rw [Array.shrink_eq_take, Array.getElem?_extract] at isOther
      simpa using (Option.ite_none_right_eq_some.mp isOther).2

end Machine.Mirrors

end Cil
