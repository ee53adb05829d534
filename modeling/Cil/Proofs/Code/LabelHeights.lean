import Cil.Proofs.Code.Underflow

/-!
# Heights at labels

Every branch to a label at a point in reach leaves it known with one height, and so does its
definition, where the encoder knows a height there.  Behind code that does not fall through it may
know none: then it goes on with an empty stack and does not write that down.
-/

namespace Cil

open Stateful

namespace Encoder

/-! ## What requests keep -/

/-- All heights that an encoder knows are those of stacks. -/
structure Tame (encoder : Encoder) : Prop where
  depth : 0 ≤ encoder.depth
  labels : ∀ label height, encoder.labelDepth? label = some height → 0 ≤ height

theorem tame_empty : Tame {} :=
  ⟨by decide, nofun⟩

/-- Between two encoders heights of labels stay, the maximum does not fall, and no height falls
below zero. -/
structure Moves (before after : Encoder) : Prop where
  known : ∀ label height, before.labelDepth? label = some height →
    after.labelDepth? label = some height
  grows : before.maxDepth ≤ after.maxDepth
  tame : before.Tame → after.Tame

namespace Moves

theorem refl (encoder : Encoder) : Moves encoder encoder :=
  ⟨fun _ _ known => known, Nat.le_refl _, id⟩

theorem trans {before middle after : Encoder} (first : Moves before middle)
    (second : Moves middle after) : Moves before after :=
  ⟨fun label height known => second.known label height (first.known label height known),
    Nat.le_trans first.grows second.grows, fun tame => second.tame (first.tame tame)⟩

theorem of_sameHeights {before middle after : Encoder} (moves : Moves before middle)
    (same : SameHeights middle after) : Moves before after where
  known label height isKnown := by
    rw [labelDepth?, same.labelDepths]
    exact moves.known label height isKnown
  grows := by
    rw [same.maxDepth]
    exact moves.grows
  tame tame := by
    refine ⟨?_, fun label height isKnown => ?_⟩
    · rw [same.depth]
      exact (moves.tame tame).depth
    · rw [labelDepth?, same.labelDepths] at isKnown
      exact (moves.tame tame).labels label height isKnown

theorem recorded (encoder : Encoder) (label : String) : Moves encoder (encoder.recorded label) where
  known other height isKnown := recorded.labelDepth?_of_known isKnown
  grows := by simp
  tame tame := by
    refine ⟨by simpa using tame.depth, fun other height isKnown => ?_⟩
    rw [recorded.labelDepth?_eq] at isKnown
    split at isKnown
    · rw [← Option.some.inj isKnown]
      exact tame.depth
    · exact tame.labels other height isKnown

theorem foldl_recorded (encoder : Encoder) (labels : List String) :
    Moves encoder (labels.foldl Encoder.recorded encoder) := by
  induction labels generalizing encoder with
  | nil => exact .refl encoder
  | cons label labels ih => exact (recorded encoder label).trans (ih _)

theorem atHeight (encoder : Encoder) {height : Int16} (positive : 0 ≤ height) :
    Moves encoder (encoder.atHeight height) :=
  ⟨fun _ _ known => known, Nat.le_max_left _ _, fun tame => ⟨positive, tame.labels⟩⟩

theorem settled (encoder : Encoder) (effect : Effect) : Moves encoder (encoder.settled effect) := by
  have tracked : Moves encoder (encoder.tracked effect.pops effect.pushes) := by
    refine atHeight encoder ?_
    split
    · decide
    · rename_i positive
      exact Int16.not_lt.mp positive
  unfold Encoder.settled
  split
  · exact tracked.trans
      ⟨fun _ _ known => known, Nat.le_refl _, fun tame => ⟨Int16.le_refl 0, tame.labels⟩⟩
  · exact tracked

theorem emitted (encoder : Encoder) (effect : Effect) : Moves encoder (encoder.emitted effect) := by
  have recorded := (settled encoder effect).trans (foldl_recorded _ effect.labels)
  unfold Encoder.emitted
  cases effect.ends with
  | true =>
      exact recorded.trans ⟨fun _ _ known => known, Nat.le_refl _, fun tame => ⟨tame.1, tame.2⟩⟩
  | false => exact recorded

theorem labelled (encoder : Encoder) (label : String) :
    Moves encoder (encoder.labelled label) := by
  have moves := recorded encoder label
  refine ⟨moves.known, moves.grows, fun tame => ⟨?_, (moves.tame tame).labels⟩⟩
  change 0 ≤ if encoder.unreachable = true then (encoder.labelDepth? label).getD 0
    else encoder.depth
  split
  · cases known : encoder.labelDepth? label with
    | none => decide
    | some height => exact tame.labels label height known
  · exact tame.depth

theorem entered (encoder : Encoder) (event : RegionEvent) :
    Moves encoder (encoder.entered event) := by
  unfold Encoder.entered
  have start {height : Int16} (positive : 0 ≤ height) :
      Moves encoder { encoder.atHeight height with unreachable := false } :=
    (atHeight encoder positive).trans
      ⟨fun _ _ known => known, Nat.le_refl _, fun tame => ⟨tame.1, tame.2⟩⟩
  cases event <;> first | exact refl encoder | exact start (by decide)

end Moves

/-- Requests that do not say how high the stack is. -/
def Request.Unforced : Request → Prop
  | .setDepth _ => False
  | _ => True

theorem moves_of_perform {request : Request} (unforced : request.Unforced) {before after : Encoder}
    {result : Unit} (ran : request.perform before = .ok result after) : Moves before after := by
  cases request with
  | setDepth height => exact unforced.elim
  | setShortening enabled =>
      rw [← modify_eq_ok.mp ran]
      exact ⟨fun _ _ known => known, Nat.le_refl _, fun tame => ⟨tame.1, tame.2⟩⟩
  | ask command =>
      cases emits : command.effect? with
      | some effect =>
          obtain ⟨item, _, _, rfl⟩ := (Command.perform_eq_ok emits).mp ran
          have pushed : Moves before (before.pushed item) :=
            ⟨fun _ _ known => known, Nat.le_refl _, fun tame => ⟨tame.1, tame.2⟩⟩
          exact pushed.trans (.emitted _ effect)
      | none =>
          cases command with
          | defineLabel label =>
              rw [← (defineLabel_heights ran).2]
              exact .labelled before label
          | region event => exact (Moves.entered before event).of_sameHeights (perform_heights ran)
          | _ => cases emits

theorem moves_of_forM {requests : List Request}
    (unforced : ∀ request ∈ requests, request.Unforced) {before after : Encoder} {result : Unit}
    (ran : requests.forM Request.perform before = .ok result after) : Moves before after := by
  induction requests generalizing before with
  | nil =>
      obtain ⟨_, rfl⟩ := pure_eq_ok.mp ran
      exact .refl before
  | cons request requests ih =>
      obtain ⟨_, middle, first, rest⟩ := bind_eq_ok.mp ran
      obtain ⟨unforcedFirst, unforcedRest⟩ := List.forall_mem_cons.mp unforced
      exact (moves_of_perform unforcedFirst first).trans (ih unforcedRest rest)

/-! ## Points of a run -/

theorem forM_append_eq_ok {first second : List Request} {before after : Encoder} :
    (first ++ second).forM Request.perform before = .ok () after ↔
      ∃ middle, first.forM Request.perform before = .ok () middle ∧
        second.forM Request.perform middle = .ok () after := by
  induction first generalizing before with
  | nil => exact ⟨fun ran => ⟨before, rfl, ran⟩, fun ⟨_, start, ran⟩ => by cases start; exact ran⟩
  | cons request first ih =>
      constructor
      · intro ran
        obtain ⟨_, next, performed, rest⟩ := bind_eq_ok.mp ran
        obtain ⟨middle, firstRan, secondRan⟩ := ih.mp rest
        exact ⟨middle, bind_eq_ok.mpr ⟨_, next, performed, firstRan⟩, secondRan⟩
      · rintro ⟨middle, firstRan, secondRan⟩
        obtain ⟨_, next, performed, rest⟩ := bind_eq_ok.mp firstRan
        exact bind_eq_ok.mpr ⟨_, next, performed, ih.mpr ⟨middle, rest, secondRan⟩⟩

/-- A command is carried out among requests, from one encoder to the next. -/
def Performs (requests : List Request) (command : Command) (before after : Encoder) : Prop :=
  ∃ earlier later, requests = earlier ++ .ask command :: later ∧
    earlier.forM Request.perform {} = .ok () before ∧ command.perform before = .ok () after

section Performs

variable {requests : List Request} {command : Command} {before after done : Encoder}

theorem Performs.tame (performs : Performs requests command before after)
    (unforced : ∀ request ∈ requests, request.Unforced) : before.Tame := by
  obtain ⟨earlier, later, rfl, reaches, _⟩ := performs
  exact (moves_of_forM (fun request member => unforced request (by simp [member])) reaches).tame
    tame_empty

/-- What is known behind a command is known at the end. -/
theorem Performs.moves (performs : Performs requests command before after)
    (unforced : ∀ request ∈ requests, request.Unforced)
    (ran : requests.forM Request.perform {} = .ok () done) : Moves after done := by
  obtain ⟨earlier, later, rfl, reaches, performed⟩ := performs
  obtain ⟨middle, first, rest⟩ := forM_append_eq_ok.mp ran
  obtain rfl : before = middle := by
    rw [reaches] at first
    cases first
    rfl
  obtain ⟨_, next, performedNext, rest⟩ := bind_eq_ok.mp rest
  obtain rfl : after = next := by
    have performedNext : command.perform before = .ok _ next := performedNext
    rw [performed] at performedNext
    cases performedNext
    rfl
  exact moves_of_forM (fun request member => unforced request (by simp [member])) rest

/-! ## Labels -/

theorem known_of_foldl {encoder : Encoder} {labels : List String}
    (reachable : encoder.unreachable = false) (agrees : ∀ label ∈ labels, encoder.Agrees label) :
    ∀ label ∈ labels, (labels.foldl recorded encoder).labelDepth? label = some encoder.depth := by
  induction labels generalizing encoder with
  | nil => simp
  | cons label labels ih =>
      obtain ⟨first, rest⟩ := List.forall_mem_cons.mp agrees
      refine List.forall_mem_cons.mpr ⟨?_, ?_⟩
      · exact (Moves.foldl_recorded _ labels).known label _
          (recorded.labelDepth?_self reachable first)
      · have reached : (encoder.recorded label).unreachable = false := by simpa using reachable
        simpa using ih reached fun other member =>
          (recorded.agrees_iff first other).mpr (rest other member)

/-- An instruction in reach leaves its labels known with the height behind it. -/
theorem known_of_branch {effect : Effect} (emits : command.effect? = some effect)
    (reachable : before.unreachable = false) (ran : command.perform before = .ok () after) :
    ∀ label ∈ effect.labels, after.labelDepth? label = some after.depth := by
  obtain ⟨item, _, admits, rfl⟩ := (Command.perform_eq_ok emits).mp ran
  have reached : ((before.pushed item).settled effect).unreachable = false := by
    simpa [pushed] using reachable
  have known := known_of_foldl reached admits.labels
  rw [emitted_depth]
  unfold emitted
  cases effect.ends <;> exact known

/-- A label is known with the height that it has where it is defined, or the code goes on there
with an empty stack. -/
theorem known_of_label {label : String}
    (ran : (Command.defineLabel label).perform before = .ok () after) :
    (before.unreachable = true → before.labelDepth? label ≠ none) ∧
        after.labelDepth? label = some after.depth ∨
      before.unreachable = true ∧ before.labelDepth? label = none ∧ after.depth = 0 := by
  obtain ⟨agrees, rfl⟩ := defineLabel_heights ran
  have depth : (before.labelled label).depth =
      if before.unreachable then (before.labelDepth? label).getD 0 else before.depth := rfl
  have known : (before.labelled label).labelDepth? label =
      (before.recorded label).labelDepth? label := rfl
  rw [depth, known]
  cases reach : before.unreachable with
  | false => exact .inl ⟨nofun, recorded.labelDepth?_self reach agrees⟩
  | true =>
      cases isKnown : before.labelDepth? label with
      | none => exact .inr ⟨rfl, rfl, rfl⟩
      | some height => exact .inl ⟨nofun, recorded.labelDepth?_of_known isKnown⟩

/-- A branch in reach agrees with its label, unless the encoder knew no height at the label and
the branch does not leave an empty stack. -/
theorem agree_iff {effect : Effect} {label : String} {start stop : Encoder}
    (unforced : ∀ request ∈ requests, request.Unforced)
    (ran : requests.forM Request.perform {} = .ok () done)
    (emits : command.effect? = some effect) (branches : Performs requests command before after)
    (reachable : before.unreachable = false) (listed : label ∈ effect.labels)
    (defines : Performs requests (.defineLabel label) start stop) :
    after.depth = stop.depth ↔
      (start.unreachable = true → start.labelDepth? label = none → after.depth = 0) := by
  have atBranch : done.labelDepth? label = some after.depth := by
    have moves := branches.moves unforced ran
    obtain ⟨_, _, _, _, performed⟩ := branches
    exact moves.known _ _ (known_of_branch emits reachable performed label listed)
  have moves := defines.moves unforced ran
  obtain ⟨_, _, _, _, defined⟩ := defines
  obtain ⟨recorded, known⟩ | ⟨unreachable, unknown, empty⟩ := known_of_label defined
  · have atLabel := moves.known _ _ known
    exact iff_of_true (Option.some.inj (atBranch.symm.trans atLabel))
      fun unreachable unknown => absurd unknown (recorded unreachable)
  · rw [empty]
    exact ⟨fun same _ _ => same, fun guessed => guessed unreachable unknown⟩

end Performs

end Encoder

end Cil
