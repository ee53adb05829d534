import Cil.Proofs.Code.Tiling
import Cil.Proofs.Isolation.Constraints
import Cil.Proofs.Isolation.KeptRegions
import Cil.Proofs.Isolation.ScopeSizes
import Cil.Proofs.Machine.MirroredCode

/-!
# Regular code

Code whose clauses nest and whose `constrained.` marks stand in front of virtual calls, where no
branch and no clause comes between a mark and its call, is regular.  The places of its seams
ascend, so that its clauses guard in the instrumented code what they guarded.  So the instrumented
code stands for the code.
-/

namespace Cil

open Instrumentation

namespace MethodCode

/-- Whether an offset is a boundary of a clause or a target of a branch. -/
def isSeam (code : MethodCode) (offset : Nat) : Bool :=
  code.clauses.any (·.boundaries.contains offset) ||
    code.instructions.any (·.targets.contains offset)

/-- The mark that waits in front of an instruction, by its index. -/
def waitingAt (code : MethodCode) (index : Nat) : Option Token :=
  (code.instructions.toList.take index).foldl waiting none

/-- Code that keeps its marks together with their calls. -/
structure Regular (code : MethodCode) : Prop where
  nested : Regions.WellNested code.clauses
  /-- Catch clauses name their classes. -/
  typed : ∀ clause ∈ code.clauses, clause.kind = .catchClause → clause.class?.isSome
  /-- Marks wait for virtual calls, with other marks in between at most. -/
  marks : ∀ index (inside : index < code.instructions.size), (code.waitingAt index).isSome →
    code.instructions[index].opcode = .callvirt ∨ isDropped code.instructions[index].opcode
  /-- Behind a mark stands an instruction that is not a seam. -/
  followed : ∀ index (inside : index < code.instructions.size),
    isDropped code.instructions[index].opcode →
      (code.instructions[index + 1]?).any fun next => !code.isSeam next.offset
  fits : code.instructions.size < Token.rowBound

instance (clauses : List Clause) : Decidable (Regions.WellNested clauses) :=
  decidable_of_iff
    ((∀ clause ∈ clauses, clause.tryOffset < clause.tryEnd) ∧
      (∀ group ∈ Regions.groupsOf clauses,
        Regions.Chained group.tryEnd (Regions.members clauses group)) ∧
      ((Regions.groupsOf clauses).Pairwise fun first second =>
        Regions.Spares clauses first second ∨ Regions.Spares clauses second first) ∧
      clauses.Pairwise fun first second => first.Overlaps second →
        second.tryOffset ≤ first.tryOffset ∧ first.tryEnd ≤ second.tryEnd)
    ⟨fun ⟨guarded, chained, nested, innerFirst⟩ => ⟨guarded, chained, nested, innerFirst⟩,
      fun ⟨guarded, chained, nested, innerFirst⟩ => ⟨guarded, chained, nested, innerFirst⟩⟩

instance (code : MethodCode) : Decidable code.Regular :=
  decidable_of_iff
    (Regions.WellNested code.clauses ∧
      (∀ clause ∈ code.clauses, clause.kind = .catchClause → clause.class?.isSome) ∧
      (∀ index (inside : index < code.instructions.size), (code.waitingAt index).isSome →
        code.instructions[index].opcode = .callvirt ∨
          isDropped code.instructions[index].opcode) ∧
      (∀ index (inside : index < code.instructions.size),
        isDropped code.instructions[index].opcode →
          (code.instructions[index + 1]?).any fun next => !code.isSeam next.offset) ∧
      code.instructions.size < Token.rowBound)
    ⟨fun ⟨nested, typed, marks, followed, fits⟩ => ⟨nested, typed, marks, followed, fits⟩,
      fun ⟨nested, typed, marks, followed, fits⟩ => ⟨nested, typed, marks, followed, fits⟩⟩

theorem isSeam_of_boundary {code : MethodCode} {clause : Clause} (listed : clause ∈ code.clauses)
    {offset : Nat} (isBoundary : offset ∈ clause.boundaries) : code.isSeam offset := by
  refine Bool.or_eq_true_iff.mpr (.inl (List.any_eq_true.mpr ⟨clause, listed, ?_⟩))
  exact List.contains_iff_mem.mpr isBoundary

theorem isSeam_of_target {code : MethodCode} {instruction : Instruction}
    (listed : instruction ∈ code.instructions) {offset : Nat}
    (isTarget : offset ∈ instruction.targets) : code.isSeam offset := by
  refine Bool.or_eq_true_iff.mpr (.inr (Array.any_eq_true'.mpr ⟨instruction, listed, ?_⟩))
  exact List.contains_iff_mem.mpr isTarget

theorem waitingAt_succ {code : MethodCode} {index : Nat} (inside : index < code.instructions.size) :
    code.waitingAt (index + 1) = waiting (code.waitingAt index) code.instructions[index] := by
  unfold waitingAt
  rw [List.take_succ_eq_append_getElem (by simpa using inside), List.foldl_append]
  rfl

theorem waitingAt_next {code : MethodCode} {index : Nat} {instruction : Instruction}
    (found : code.instructions[index]? = some instruction) :
    code.waitingAt (index + 1) = waiting (code.waitingAt index) instruction := by
  obtain ⟨inside, rfl⟩ := Array.getElem?_eq_some_iff.mp found
  exact waitingAt_succ inside

/-! ## Offsets where control may be sent -/

section Offsets

variable {code : MethodCode} (decoded : code.Decoded)

theorem mem_eventOffsets_of_instruction {instruction : Instruction}
    (listed : instruction ∈ code.instructions) : instruction.offset ∈ code.eventOffsets :=
  List.mem_append_left _ (List.mem_map_of_mem (Array.mem_toList_iff.mpr listed))

include decoded

theorem Decoded.increasing : code.instructions.toList.Pairwise (·.offset < ·.offset) :=
  ordered_of_stands decoded.stands

theorem Decoded.offset_lt_iff {first second : Nat} (firstInside : first < code.instructions.size)
    (secondInside : second < code.instructions.size) :
    code.instructions[first].offset < code.instructions[second].offset ↔ first < second := by
  have ascends {one other : Nat} (before : one < other) (inside : other < code.instructions.size) :
      code.instructions[one].offset < code.instructions[other].offset := by
    have := offset_lt_of_lt decoded.increasing before inside
    rwa [getElem!_pos code.instructions one (by omega),
      getElem!_pos code.instructions other inside] at this
  constructor
  · intro lt
    rcases Nat.lt_trichotomy first second with before | same | behind
    · exact before
    · subst same
      omega
    · have := ascends behind firstInside
      omega
  · exact fun before => ascends before secondInside

theorem Decoded.le_codeSize {offset : Nat} (isEvent : offset ∈ code.eventOffsets) :
    offset ≤ code.codeSize := by
  rcases List.mem_append.mp isEvent with listed | atEnd
  · obtain ⟨instruction, member, rfl⟩ := List.mem_map.mp listed
    exact Nat.le_of_lt (decoded.offset_lt member)
  · exact Nat.le_of_eq (List.mem_singleton.mp atEnd)

/-- An event offset in front of another one is that of an instruction. -/
theorem Decoded.exists_index_of_lt {offset later : Nat} (isEvent : offset ∈ code.eventOffsets)
    (isLater : later ∈ code.eventOffsets) (lt : offset < later) :
    ∃ index, ∃ inside : index < code.instructions.size,
      code.instructions[index].offset = offset := by
  rcases List.mem_append.mp isEvent with listed | atEnd
  · obtain ⟨instruction, member, rfl⟩ := List.mem_map.mp listed
    obtain ⟨index, inside, rfl⟩ := Array.mem_iff_getElem.mp (Array.mem_toList_iff.mp member)
    exact ⟨index, inside, rfl⟩
  · have := decoded.le_codeSize isLater
    have := List.mem_singleton.mp atEnd
    omega

/-- An event offset behind an instruction is that of the next one, or behind it. -/
theorem Decoded.next_lt {index later : Nat} (isLater : later ∈ code.eventOffsets)
    (further : index + 1 < code.instructions.size)
    (lt : code.instructions[index].offset < later)
    (apart : code.instructions[index + 1].offset ≠ later) :
    code.instructions[index + 1].offset < later := by
  by_contra notLess
  have before : later < code.instructions[index + 1].offset := by omega
  have isNext := mem_eventOffsets_of_instruction (Array.getElem_mem further)
  obtain ⟨other, inside, rfl⟩ := decoded.exists_index_of_lt isLater isNext before
  rw [decoded.offset_lt_iff] at lt before
  omega

end Offsets

theorem Destination.mem_eventOffsets {module : Module} {method : MethodDef} {code : MethodCode}
    (read : ofMethod module method = .ok code) {offset : Nat}
    (destination : code.Destination offset) : offset ∈ code.eventOffsets := by
  obtain ⟨_, _, _, _, _, fromBytes⟩ := exists_ofBytes_of_ofMethod read
  rcases destination with isEntry | ⟨instruction, listed, isTarget⟩
  · by_cases atEnd : offset = code.codeSize
    · exact List.mem_append_right _ (List.mem_singleton.mpr atEnd)
    · obtain ⟨reached, member, rfl⟩ :=
        exists_of_position? ((isSome_position?_of_entry fromBytes isEntry).mpr atEnd)
      exact mem_eventOffsets_of_instruction (Array.mem_toList_iff.mp member)
  · obtain ⟨reached, member, rfl⟩ := (decoded_of_ofMethod read).targets instruction
      (Array.mem_toList_iff.mpr listed) offset isTarget
    exact mem_eventOffsets_of_instruction (Array.mem_toList_iff.mp member)

/-- Where control may be sent is a seam, unless it is the start of the code. -/
theorem Destination.isSeam {code : MethodCode} {offset : Nat}
    (destination : code.Destination offset) : offset = 0 ∨ code.isSeam offset := by
  rcases destination with isEntry | ⟨instruction, listed, isTarget⟩
  · rcases List.mem_cons.mp isEntry with isStart | isEntry
    · exact .inl isStart
    · obtain ⟨clause, listed, member⟩ := List.mem_flatMap.mp isEntry
      exact .inr (isSeam_of_boundary listed (clause.entries_subset_boundaries member))
  · exact .inr (isSeam_of_target listed isTarget)

/-! ## Places of regular code -/

namespace Regular

variable {code : MethodCode} (regular : code.Regular) (decoded : code.Decoded)

include regular

theorem exists_next {index : Nat} (inside : index < code.instructions.size)
    (dropped : isDropped code.instructions[index].opcode) :
    ∃ further : index + 1 < code.instructions.size,
      code.isSeam code.instructions[index + 1].offset = false := by
  have follows := regular.followed index inside dropped
  by_cases further : index + 1 < code.instructions.size
  · rw [Array.getElem?_eq_getElem further] at follows
    exact ⟨further, by simpa using follows⟩
  · rw [Array.getElem?_eq_none (by omega)] at follows
    cases follows

/-- Only a mark leaves a mark waiting. -/
theorem waitingAt_succ_of_kept {index : Nat} (inside : index < code.instructions.size)
    (kept : isDropped code.instructions[index].opcode = false) :
    code.waitingAt (index + 1) = none := by
  rw [waitingAt_succ inside]
  unfold waiting
  split
  · rename_i constrained
    rw [constrained] at kept
    cases kept
  · split
    · rename_i stays
      cases waits : code.waitingAt index with
      | none => rfl
      | some mark =>
          rcases regular.marks index inside (by rw [waits]; rfl) with call | dropped
          · rw [call] at stays
            cases stays
          · rw [dropped] at kept
            cases kept
    · rfl

/-- No mark waits at a seam. -/
theorem waitingAt_of_isSeam {index : Nat} (inside : index < code.instructions.size)
    (isSeam : code.isSeam code.instructions[index].offset) : code.waitingAt index = none := by
  cases index with
  | zero => rfl
  | succ index =>
      cases dropped : isDropped code.instructions[index].opcode with
      | false => exact regular.waitingAt_succ_of_kept (by omega) dropped
      | true =>
          obtain ⟨_, none⟩ := regular.exists_next (by omega) dropped
          rw [isSeam] at none
          cases none

include decoded

/-- The places of instructions are in front of those of later seams. -/
theorem place_lt {place : Nat → Nat} (spread : Spread code place) {later : Nat}
    (isEvent : later ∈ code.eventOffsets) (isStop : code.isSeam later ∨ later = code.codeSize)
    {index : Nat} (inside : index < code.instructions.size)
    (lt : code.instructions[index].offset < later) :
    place code.instructions[index].offset < place later := by
  -- A mark has the place of the instruction behind it, which is not the seam.
  induction left : code.instructions.size - index generalizing index with
  | zero => omega
  | succ left ih =>
      cases dropped : isDropped code.instructions[index].opcode with
      | false =>
          have listed : code.instructions[index] ∈ code.instructions.toList := by simp
          have kept := spread.kept _ listed dropped
          have past := spread.le_iff decoded isEvent listed (Nat.le_refl _) kept
          omega
      | true =>
          obtain ⟨further, noSeam⟩ := regular.exists_next inside dropped
          have ascends := (decoded.offset_lt_iff inside further).mpr (Nat.lt_succ_self index)
          have apart : code.instructions[index + 1].offset ≠ later := by
            rintro rfl
            rcases isStop with isSeam | atEnd
            · rw [isSeam] at noSeam
              cases noSeam
            · have := decoded.offset_lt (Array.mem_toList_iff.mpr (Array.getElem_mem further))
              omega
          have before := decoded.next_lt isEvent further lt apart
          have after := ih further before (by omega)
          have := spread.mono _ _ (Nat.le_of_lt ascends)
          omega

theorem place_lt_of_lt {place : Nat → Nat} (spread : Spread code place) {offset later : Nat}
    (isEvent : offset ∈ code.eventOffsets) (isLater : later ∈ code.eventOffsets)
    (isStop : code.isSeam later ∨ later = code.codeSize) (lt : offset < later) :
    place offset < place later := by
  obtain ⟨index, inside, rfl⟩ := decoded.exists_index_of_lt isEvent isLater lt
  exact regular.place_lt decoded spread isLater isStop inside lt

/-- Places keep the order of seams among event offsets. -/
theorem place_le_iff {place : Nat → Nat} (spread : Spread code place) {offset later : Nat}
    (isEvent : offset ∈ code.eventOffsets) (isLater : later ∈ code.eventOffsets)
    (isStop : code.isSeam later ∨ later = code.codeSize) :
    place later ≤ place offset ↔ later ≤ offset := by
  constructor
  · intro le
    refine Nat.not_lt.mp fun lt => ?_
    have := regular.place_lt_of_lt decoded spread isEvent isLater isStop lt
    omega
  · exact spread.mono _ _

end Regular

end MethodCode

/-! ## Tables in place -/

namespace Clause

/-- No handler reaches beyond the offsets that clauses can count. -/
@[simp]
theorem inHandler_positionOf (clause : Clause) (offset : Nat) :
    clause.inHandler (positionOf offset) = clause.inHandler offset := by
  have inside : clause.handlerEnd ≤ lastOffset := Nat.min_le_right ..
  unfold inHandler positionOf
  rcases Nat.le_total offset lastOffset with low | high
  · rw [Nat.min_eq_left low]
  · rw [Nat.min_eq_right high, decide_eq_false (Nat.not_lt.mpr inside),
      decide_eq_false (Nat.not_lt.mpr (Nat.le_trans inside high)), Bool.and_false, Bool.and_false]

theorem overlaps_of_covers {first second : Clause} {offset : Nat}
    (firstCovers : first.covers offset) (secondCovers : second.covers offset) :
    first.Overlaps second := by
  simp only [covers, Bool.and_eq_true, decide_eq_true_eq] at firstCovers secondCovers
  unfold Overlaps
  omega

/-- What guards one offset stands in a moved table in the same order. -/
theorem filter_order {clauses order : List Clause} (distinct : clauses.Nodup)
    (perm : order.Perm clauses)
    (agrees : order.Pairwise fun first second =>
      first.Overlaps second → [first, second].Sublist clauses)
    {guards : Clause → Bool} {offset : Nat}
    (covers : ∀ clause, guards clause → clause.covers offset) :
    order.filter guards = clauses.filter guards := by
  have moved : (order.filter guards).Pairwise fun first second =>
      [first, second].Sublist clauses := by
    refine (agrees.filter guards).imp_of_mem fun isFirst isSecond ordered => ordered ?_
    exact overlaps_of_covers (covers _ (List.mem_filter.mp isFirst).2)
      (covers _ (List.mem_filter.mp isSecond).2)
  have given : (clauses.filter guards).Pairwise fun first second =>
      [first, second].Sublist clauses :=
    List.pairwise_iff_forall_sublist.mpr fun part => part.trans List.filter_sublist
  refine List.Perm.eq_of_pairwise (fun first second _ _ inOrder reversed => ?_) moved given
    (perm.filter guards)
  exact absurd reversed (Regions.not_sublist_of_nodup distinct inOrder)

end Clause

/-- The bounds of a block are boundaries of a clause. -/
theorem MethodCode.HasBlock.boundaries {code : MethodCode} {block : Block}
    (has : code.HasBlock block) :
    ∃ clause ∈ code.clauses, block.start ∈ clause.boundaries ∧ block.stop ∈ clause.boundaries := by
  obtain ⟨clause, listed, rfl | ⟨isFilter, rfl⟩⟩ := has
  · exact ⟨clause, listed, by simp [Clause.handlerBlock, Clause.boundaries],
      by simp [Clause.handlerBlock, Clause.boundaries]⟩
  · exact ⟨clause, listed, by simp [Clause.filterBlock, Clause.boundaries, isFilter],
      by simp [Clause.filterBlock, Clause.boundaries]⟩

/-- A clause that names its class stands for what it was moved from. -/
theorem Clause.Image.standsFor {place : Nat → Nat} {original image : Clause}
    (isImage : original.Image place image)
    (typed : original.kind = .catchClause → original.class?.isSome) :
    original.StandsFor place image where
  kind := isImage.kind
  class? isCatch := by
    obtain ⟨type, names⟩ := Option.isSome_iff_exists.mp (typed isCatch)
    rw [isImage.class?, Clause.caught?, if_pos isCatch, names]
    rfl
  handlerOffset := isImage.handlerOffset
  handlerEnd := isImage.handlerEnd
  filterOffset := isImage.filterOffset

/-- Offset and position lie in the same parts of clauses and of moved ones. -/
def MethodCode.SameRegions (code : MethodCode) (place : Nat → Nat) (offset position : Nat) : Prop :=
  ∀ clause ∈ code.clauses, clause.SameParts (clause.moved place) offset position

/-- A clause stands at an index, and the moved one at another index. -/
def MethodCode.SameHandler (code image : MethodCode) (place : Nat → Nat) (index other : Nat) :
    Prop :=
  ∃ clause, code.clauses[index]? = some clause ∧ image.clauses[other]? = some (clause.moved place)

namespace RegionsKept

variable {code image : MethodCode} {place : Nat → Nat} (kept : RegionsKept code image place)
  (regular : code.Regular) (decoded : code.Decoded) (spread : Spread code place)

theorem boundary_le_iff {clause other : Clause} (regular : code.Regular) (decoded : code.Decoded)
    (spread : Spread code place) (listed : clause ∈ code.clauses)
    (otherListed : other ∈ code.clauses) {first second : Nat}
    (isFirst : first ∈ clause.boundaries) (isSecond : second ∈ other.boundaries) :
    place first ≤ place second ↔ first ≤ second :=
  regular.place_le_iff decoded spread (decoded.mem_eventOffsets otherListed isSecond)
    (decoded.mem_eventOffsets listed isFirst) (.inl (MethodCode.isSeam_of_boundary listed isFirst))

include kept

theorem standsFor (regular : code.Regular) {clause : Clause} (listed : clause ∈ code.clauses) :
    clause.StandsFor place (clause.moved place) :=
  (kept.images clause listed).standsFor (regular.typed clause listed)

include regular decoded spread

theorem isVisible_moved {block? : Option Block} (within : ∀ block ∈ block?, code.HasBlock block)
    {clause : Clause} (listed : clause ∈ code.clauses) :
    (clause.moved place).isVisible (block?.map (Block.moved place)) = clause.isVisible block? := by
  cases block? with
  | none => rfl
  | some block =>
      obtain ⟨other, otherListed, isStart, isStop⟩ := (within block rfl).boundaries
      have isImage := kept.images clause listed
      have starts := boundary_le_iff regular decoded spread otherListed listed isStart
        (show clause.tryOffset ∈ clause.boundaries by simp [Clause.boundaries])
      have stops := boundary_le_iff regular decoded spread listed otherListed
        (show clause.tryEnd ∈ clause.boundaries by simp [Clause.boundaries]) isStop
      simp only [Option.map_some, Clause.isVisible, Block.holds, Block.moved, isImage.tryOffset,
        isImage.tryEnd, starts, stops]

theorem sameRegions_of_event {offset : Nat} (isEvent : offset ∈ code.eventOffsets) :
    code.SameRegions place offset (place offset) := by
  intro clause listed
  refine sameParts_of_image (kept.images clause listed) fun boundary member => ?_
  exact regular.place_le_iff decoded spread isEvent (decoded.mem_eventOffsets listed member)
    (.inl (MethodCode.isSeam_of_boundary listed member))

omit decoded spread in
/-- What guards a position of the instrumented code, in the order of its table. -/
theorem filter_clauses {guards otherGuards : Clause → Bool} {offset : Nat}
    (covers : ∀ clause, guards clause → clause.covers offset)
    (same : ∀ clause ∈ code.clauses, otherGuards (clause.moved place) = guards clause) :
    image.clauses.filter otherGuards = (code.clauses.filter guards).map (Clause.moved place) := by
  obtain ⟨order, perm, agrees, moved⟩ := kept.moves
  rw [moved, List.filter_map, ← Clause.filter_order regular.nested.nodup perm agrees covers]
  refine congrArg (List.map _) (List.filter_congr fun clause member => ?_)
  exact same clause (perm.mem_iff.mp member)

variable {block? : Option Block} (within : ∀ block ∈ block?, code.HasBlock block)
  {offset position : Nat} (located : code.SameRegions place offset position)

include within located

theorem guards_moved {clause : Clause} (listed : clause ∈ code.clauses) :
    (clause.moved place).guards (block?.map (Block.moved place)) position =
      clause.guards block? offset := by
  unfold Clause.guards
  rw [(located clause listed).covers, kept.isVisible_moved regular decoded spread within listed]

/-- The finally handlers on the way to a target stand for those of the code. -/
theorem left {target : Nat} (isEvent : target ∈ code.eventOffsets) :
    List.Forall₂ (Clause.StandsFor place)
      (Clause.left code.clauses block? (Clause.positionOf offset) (Clause.positionOf target))
      (Clause.left image.clauses (block?.map (Block.moved place)) (Clause.positionOf position)
        (Clause.positionOf (place target))) := by
  have targets := kept.sameRegions_of_event regular decoded spread isEvent
  have moved : image.clauses.filter
      (Clause.leaves (block?.map (Block.moved place)) position (place target)) =
        (code.clauses.filter (Clause.leaves block? offset target)).map (Clause.moved place) := by
    refine kept.filter_clauses regular (fun clause leaves =>
      Clause.covers_of_guards (Clause.guards_of_leaves leaves)) fun clause listed => ?_
    unfold Clause.leaves
    rw [kept.guards_moved regular decoded spread within located listed,
      (targets clause listed).covers, (kept.images clause listed).kind]
  rw [Exec.left_eq, Exec.left_eq, moved, List.forall₂_map_right_iff, List.forall₂_same]
  exact fun clause member => kept.standsFor regular (List.mem_filter.mp member).1

/-- The clauses that guard a position stand for those that guard the offset. -/
theorem guarding :
    List.Forall₂ (fun one other : Clause × Nat =>
        code.SameHandler image place one.2 other.2 ∧ one.1.StandsFor place other.1)
      (Clause.guarding code.clauses block? (Clause.positionOf offset))
      (Clause.guarding image.clauses (block?.map (Block.moved place))
        (Clause.positionOf position)) := by
  have moved : image.clauses.filter (Clause.guards (block?.map (Block.moved place)) position) =
      (code.clauses.filter (Clause.guards block? offset)).map (Clause.moved place) :=
    kept.filter_clauses regular (fun clause => Clause.covers_of_guards) fun clause listed =>
      kept.guards_moved regular decoded spread within located listed
  rw [Exec.guarding_eq, Exec.guarding_eq]
  rw [← Exec.map_fst_candidates 0, ← Exec.map_fst_candidates 0, List.map_map] at moved
  have listed {clauses : List Clause} {guards : Clause → Bool} (candidate : Clause × Nat)
      (member : candidate ∈ Exec.candidates guards clauses 0) :
      clauses[candidate.2]? = some candidate.1 :=
    List.mk_mem_zipIdx_iff_getElem?.mp (List.mem_filter.mp member).1
  have paired : List.Forall₂ (fun one other : Clause × Nat => one.1.moved place = other.1)
      (Exec.candidates (Clause.guards block? offset) code.clauses 0)
      (Exec.candidates (Clause.guards (block?.map (Block.moved place)) position)
        image.clauses 0) := by
    rw [← List.forall₂_map_right_iff
      (R := fun (one : Clause × Nat) (other : Clause) => one.1.moved place = other), moved,
      List.forall₂_map_right_iff]
    exact List.forall₂_same.mpr fun _ _ => rfl
  have found := (List.forall₂_and_left _ _).mpr ⟨listed, paired⟩
  have both := (List.forall₂_and_left _ _).mpr ⟨listed, found.flip⟩
  refine both.flip.imp fun one other ⟨otherListed, oneListed, same⟩ => ?_
  have member := List.mem_of_getElem? oneListed
  rw [← same] at otherListed ⊢
  exact ⟨⟨one.1, oneListed, otherListed⟩, kept.standsFor regular member⟩

end RegionsKept

end Cil
