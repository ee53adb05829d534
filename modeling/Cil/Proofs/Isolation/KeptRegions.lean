import Cil.Proofs.Isolation.NestedTables
import Cil.Proofs.Isolation.Places
import Cil.Proofs.Isolation.Reemission

/-!
# Exception regions of instrumented methods

The clauses of a table that nests move with the code: each boundary to the place of its offset.
What a region covers of the original code it covers of the instrumented code.
-/

namespace Cil

open Instrumentation

/-! ## Moved clauses -/

def MarkedClause.placed (place : Nat → Nat) (clause : MarkedClause) : Clause :=
  { flags := clause.flags
    tryOffset := place clause.tryStart
    tryLength := place clause.tryEnd - place clause.tryStart
    handlerOffset := place clause.handlerStart
    handlerLength := place clause.handlerEnd - place clause.handlerStart
    class? := clause.class?
    filterOffset := (clause.filterStart?.map place).getD 0 }

theorem clauseOf_map (items : List Item) (mark : Nat → Mark) (clause : MarkedClause) :
    Layout.clauseOf items (clause.map mark) =
      clause.placed fun offset => offsetOf items (mark offset) := by
  unfold Layout.clauseOf MarkedClause.placed MarkedClause.map
  cases clause.filterStart? <;> rfl

namespace Clause

/-- A clause with each boundary moved to its place. -/
def moved (place : Nat → Nat) (clause : Clause) : Clause :=
  clause.marked.placed place

/-- A clause is another one with its boundaries moved. -/
structure Image (place : Nat → Nat) (original image : Clause) : Prop where
  kind : image.kind = original.kind
  /-- A missing class of a catch clause is the null token. -/
  class? : image.class? = original.caught?
  tryOffset : image.tryOffset = place original.tryOffset
  tryEnd : image.tryEnd = place original.tryEnd
  handlerOffset : image.handlerOffset = place original.handlerOffset
  handlerEnd : image.handlerEnd = place original.handlerEnd
  filterOffset : original.kind = .filterClause →
    image.filterOffset = place original.filterOffset

/-- A table is another one with its boundaries moved.  Clauses with overlapping guarded ranges
stand in the same order. -/
def Moves (place : Nat → Nat) (original image : List Clause) : Prop :=
  ∃ order : List Clause, order.Perm original ∧
    (order.Pairwise fun first second =>
      first.Overlaps second → [first, second].Sublist original) ∧
    image = order.map (moved place)

theorem kind_of_flags (clause : Clause) (kind : ClauseKind) (flags : clause.flags = kind.flags) :
    clause.kind = kind := by
  unfold Clause.kind
  rw [flags]
  cases kind <;> decide

/-- Places that keep the order of boundaries move a clause to its image. -/
theorem image_moved {place : Nat → Nat} {clause : Clause}
    (mono : ∀ first second, first ≤ second → place first ≤ place second)
    (fits : ∀ offset, place offset ≤ lastOffset) (guarded : clause.tryOffset ≤ clause.tryEnd)
    (handled : clause.handlerOffset ≤ clause.handlerEnd) :
    Image place clause (clause.moved place) := by
  refine ⟨kind_of_flags _ _ rfl, rfl, rfl, ?_, rfl, ?_, fun isFilter => ?_⟩
  · have le := mono _ _ guarded
    have fit := fits clause.tryEnd
    simp only [tryEnd, moved, MarkedClause.placed, marked] at le fit ⊢
    omega
  · have le := mono _ _ handled
    have fit := fits clause.handlerEnd
    simp only [handlerEnd, moved, MarkedClause.placed, marked] at le fit ⊢
    omega
  · simp [moved, MarkedClause.placed, marked, filter?, isFilter]

end Clause

/-! ## Replaying at marks -/

namespace Instrumentation

/-- Replaying at marks is replaying at offsets, with every offset replaced by its mark. -/
theorem replay_map (clauses : List Clause) (mark : Nat → Mark) {pieces : Pieces} {start : Mark}
    (ordered : Ordered (pieces.map (·.1)))
    (marks : ∀ instruction ∈ pieces.map (·.1),
      mark instruction.offset = positionOf List.length start pieces instruction.offset)
    (blocks : Blocks) :
    replay clauses start pieces (blocks.map mark) =
      (blocks.replayAll clauses (pieces.map (·.1.offset))).map (Blocks.map mark) := by
  induction pieces generalizing start blocks with
  | nil => rfl
  | cons piece pieces ih =>
      obtain ⟨instruction, emitted⟩ := piece
      rw [List.map_cons] at ordered marks
      obtain ⟨later, ordered⟩ := List.pairwise_cons.mp ordered
      have here : mark instruction.offset = start := by
        rw [marks instruction (List.mem_cons_self ..)]
        simp [positionOf]
      have marksRest : ∀ other ∈ pieces.map (·.1), mark other.offset =
          positionOf List.length (start + emitted.length) pieces other.offset := by
        intro other member
        have behind : ¬ other.offset ≤ instruction.offset := Nat.not_le.mpr (later other member)
        rw [marks other (List.mem_cons_of_mem _ member), positionOf, if_neg behind]
      have acts := Blocks.replayAt_map mark blocks clauses instruction.offset instruction.offset
      rw [here] at acts
      rw [replay, acts, List.map_cons, Blocks.replayAll, List.foldlM_cons]
      cases blocks.replayAt clauses instruction.offset instruction.offset with
      | none => rfl
      | some next => exact ih ordered marksRest next

/-- Behind all pieces stands the code that they make. -/
theorem positionOf_end {pieces : Pieces} {offset : Nat}
    (behind : ∀ instruction ∈ pieces.map (·.1), instruction.offset < offset) (start : Nat) :
    positionOf List.length start pieces offset = start + (codeOf pieces).length := by
  induction pieces generalizing start with
  | nil => rfl
  | cons piece pieces ih =>
      obtain ⟨instruction, emitted⟩ := piece
      rw [List.map_cons] at behind
      obtain ⟨firstBehind, behind⟩ := List.forall_mem_cons.mp behind
      rw [positionOf, if_neg (Nat.not_le.mpr firstBehind), ih behind]
      simp [codeOf, Nat.add_assoc]

end Instrumentation

namespace MethodCode

def eventOffsets (code : MethodCode) : List Nat :=
  code.instructions.toList.map (·.offset) ++ [code.codeSize]

variable {code : MethodCode} (decoded : code.Decoded)
include decoded

theorem Decoded.sorted_eventOffsets : code.eventOffsets.Pairwise (· < ·) := by
  refine List.pairwise_append.mpr
    ⟨List.pairwise_map.mpr (ordered_of_stands decoded.stands), List.pairwise_singleton .., ?_⟩
  intro offset member stop isStop
  obtain ⟨instruction, listed, rfl⟩ := List.mem_map.mp member
  rw [List.mem_singleton.mp isStop]
  exact decoded.offset_lt listed

theorem Decoded.mem_eventOffsets {clause : Clause} (member : clause ∈ code.clauses)
    {boundary : Nat} (isBoundary : boundary ∈ clause.boundaries) :
    boundary ∈ code.eventOffsets := by
  rcases decoded.boundaries clause member boundary isBoundary with atEnd | ⟨reached, listed, at_⟩
  · exact List.mem_append_right _ (List.mem_singleton.mpr atEnd)
  · exact List.mem_append_left _ (List.mem_map.mpr ⟨reached, listed, at_⟩)

end MethodCode

namespace Instrumentation

variable {subject : Subject} {isolation : IsolationRun} {code : MethodCode} {scope : Scope}
  {emitted : EmittedCode} {pieces : Pieces} {ending : List Emitted}

/-- The emitted clauses are those of the replayed table, with every offset moved to its
place. -/
theorem Emission.clauses_placed
    (emission : Emission subject isolation code scope emitted pieces ending)
    (decoded : code.Decoded) :
    ∃ finished, Blocks.replayAll code.clauses ⟨[], []⟩ code.eventOffsets = some ⟨[], finished⟩ ∧
      emitted.clauses = finished.map (·.placed (placeOf pieces)) := by
  obtain ⟨marked, replayed, clauses⟩ := emission.clauses
  have ordered := ordered_of_stands decoded.stands
  have offsets : pieces.map (·.1.offset) = code.instructions.toList.map (·.offset) := by
    rw [← emission.instructions, List.map_map]
    rfl
  have stop : markOf pieces code.codeSize = (codeOf pieces).length := by
    refine (positionOf_end (fun instruction member => ?_) 0).trans (Nat.zero_add _)
    rw [emission.instructions] at member
    exact decoded.offset_lt member
  rw [← emission.instructions] at ordered
  have atMarks := replay_map code.clauses (markOf pieces) ordered (fun _ _ => rfl) ⟨[], []⟩
  -- Offsets are replaced by marks once for all instructions, and once more for the end of the
  -- code.
  have whole : ((replay code.clauses 0 pieces ⟨[], []⟩).bind fun blocks =>
        blocks.replayAt code.clauses code.codeSize (codeOf pieces).length) =
      (Blocks.replayAll code.clauses ⟨[], []⟩ code.eventOffsets).map
        (Blocks.map (markOf pieces)) := by
    refine (congrArg (Option.bind · _) atMarks).trans ?_
    rw [offsets, MethodCode.eventOffsets, Blocks.replayAll, Blocks.replayAll, List.foldlM_append]
    cases List.foldlM (m := Option) (fun blocks offset =>
        Blocks.replayAt blocks code.clauses offset offset) ⟨[], []⟩
        (code.instructions.toList.map (·.offset)) with
    | none => rfl
    | some blocks =>
        rw [← stop]
        refine (Blocks.replayAt_map (markOf pieces) blocks code.clauses _ _).trans ?_
        simp
  obtain ⟨⟨opened, finished⟩, replays, same⟩ :=
    Option.map_eq_some_iff.mp (whole.symm.trans replayed)
  obtain ⟨noneOpen, finishedSame⟩ := Blocks.mk.inj same
  obtain rfl : opened = [] := List.map_eq_nil_iff.mp noneOpen
  refine ⟨finished, replays, ?_⟩
  rw [clauses, ← finishedSame, List.map_map]
  refine List.map_congr_left fun clause _ => ?_
  rw [Function.comp_apply, clauseOf_map]
  exact congrArg clause.placed (funext fun offset => offsetOf_markOf pieces ending offset)

/-! ## What regions cover -/

/-- The instructions of a method take up the instrumented code one behind the other.  Only those
that are dropped take up nothing. -/
structure Spread (code : MethodCode) (place : Nat → Nat) : Prop where
  mono : ∀ first second, first ≤ second → place first ≤ place second
  kept : ∀ instruction ∈ code.instructions.toList, isDropped instruction.opcode = false →
    place instruction.offset < place instruction.nextOffset
  taken : ∀ position < place code.codeSize, ∃ instruction ∈ code.instructions.toList,
    place instruction.offset ≤ position ∧ position < place instruction.nextOffset

/-- What is emitted in front of an offset behind the first piece. -/
theorem positionOf_behind {weight : List Emitted → Nat} {start : Nat} {first : Instruction}
    {row : List Emitted} {offset : Nat} (behind : first.offset < offset) :
    positionOf weight start ((first, row) :: pieces) offset =
      positionOf weight (start + weight row) pieces offset := by
  rw [positionOf, if_neg (Nat.not_le.mpr behind)]

theorem positionOf_front {weight : List Emitted → Nat} {start offset : Nat}
    (ahead : ∀ instruction ∈ pieces.map (·.1), offset ≤ instruction.offset) :
    positionOf weight start pieces offset = start := by
  cases pieces with
  | nil => rfl
  | cons piece pieces =>
      obtain ⟨instruction, emitted⟩ := piece
      rw [positionOf, if_pos (ahead instruction (List.mem_cons_self ..))]

theorem exists_of_position_lt {weight : List Emitted → Nat} {start stop position : Nat}
    (ordered : (pieces.map (·.1)).Pairwise fun first second => first.nextOffset ≤ second.offset)
    (sized : ∀ instruction ∈ pieces.map (·.1), instruction.offset < instruction.nextOffset)
    (within : ∀ instruction ∈ pieces.map (·.1), instruction.nextOffset ≤ stop)
    (after : start ≤ position) (before : position < positionOf weight start pieces stop) :
    ∃ instruction ∈ pieces.map (·.1),
      positionOf weight start pieces instruction.offset ≤ position ∧
        position < positionOf weight start pieces instruction.nextOffset := by
  -- Either the position lies in what the first instruction becomes, or behind it.
  induction pieces generalizing start with
  | nil =>
      unfold positionOf at before
      omega
  | cons piece pieces ih =>
      obtain ⟨first, row⟩ := piece
      rw [List.map_cons] at ordered sized within ⊢
      obtain ⟨firstBefore, ordered⟩ := List.pairwise_cons.mp ordered
      obtain ⟨firstSized, sized⟩ := List.forall_mem_cons.mp sized
      obtain ⟨firstWithin, within⟩ := List.forall_mem_cons.mp within
      dsimp only at firstBefore firstSized firstWithin
      rw [positionOf_behind (by omega)] at before
      by_cases inFirst : position < start + weight row
      · refine ⟨first, List.mem_cons_self .., ?_, ?_⟩
        · rw [positionOf, if_pos (Nat.le_refl _)]
          exact after
        · rw [positionOf_behind firstSized, positionOf_front firstBefore]
          exact inFirst
      · obtain ⟨instruction, member, starts, ends⟩ :=
          ih ordered sized within (by omega) before
        have := firstBefore instruction member
        have := sized instruction member
        refine ⟨instruction, List.mem_cons_of_mem _ member, ?_, ?_⟩
        · rw [positionOf_behind (by omega)]
          exact starts
        · rw [positionOf_behind (by omega)]
          exact ends

theorem Emission.spread (emission : Emission subject isolation code scope emitted pieces ending)
    (decoded : code.Decoded) : Spread code (placeOf pieces) := by
  have stands := decoded.stands
  have ordered := ordered_of_stands stands
  have nextBefore := stands.ordered
  refine ⟨fun _ _ le => positionOf_mono _ _ _ le, fun instruction listed kept => ?_,
    fun position before => ?_⟩
  · have forward : instruction.offset < instruction.nextOffset :=
      Nat.lt_add_of_pos_right (stands.wellRead instruction listed).size_pos
    rw [← emission.instructions] at ordered listed
    obtain ⟨⟨_, row⟩, member, rfl⟩ := List.mem_map.mp listed
    obtain ⟨_, piece⟩ := emission.trace.piece_of_mem member
    obtain ⟨item, more, rfl⟩ := Reemission.nonempty_of_piece piece kept
    refine positionOf_lt ordered member ?_ forward 0
    have proper := emission.proper item (List.mem_flatMap.mpr ⟨_, member, List.mem_cons_self ..⟩)
    have := size_pos_of_proper proper
    simp only [byteSize, List.map_cons, sizeOfItems]
    omega
  · rw [← emission.instructions] at nextBefore ⊢
    refine exists_of_position_lt nextBefore (fun instruction member => ?_)
      (fun instruction member => ?_) (Nat.zero_le position) before
    · rw [emission.instructions] at member
      exact Nat.lt_add_of_pos_right (stands.wellRead instruction member).size_pos
    · rw [emission.instructions] at member
      exact stands.to_stop instruction member

end Instrumentation

/-- A position lies in the parts of a clause in which an offset lies of another clause. -/
structure Clause.SameParts (original image : Clause) (offset position : Nat) : Prop where
  covers : image.covers position = original.covers offset
  inHandler : image.inHandler position = original.inHandler offset
  inFilter : image.inFilter position = original.inFilter offset

/-- The exception regions of a method are moved to the places of their boundaries. -/
structure RegionsKept (code rewritten : MethodCode) (place : Nat → Nat) : Prop where
  moves : Clause.Moves place code.clauses rewritten.clauses
  images : ∀ clause ∈ code.clauses, clause.Image place (clause.moved place)
  /-- What an instruction becomes lies in the regions in which the instruction lies. -/
  inside : ∀ clause ∈ code.clauses, ∀ instruction ∈ code.instructions.toList, ∀ position,
    place instruction.offset ≤ position → position < place instruction.nextOffset →
      clause.SameParts (clause.moved place) instruction.offset position
  /-- Nothing behind the code lies in a region. -/
  behind : ∀ clause ∈ code.clauses, ∀ position, place code.codeSize ≤ position →
    clause.SameParts (clause.moved place) code.codeSize position

namespace Instrumentation

variable {code : MethodCode} {place : Nat → Nat}

theorem Spread.le_iff (spread : Spread code place) (decoded : code.Decoded) {boundary : Nat}
    (isEvent : boundary ∈ code.eventOffsets) {instruction : Instruction}
    (member : instruction ∈ code.instructions.toList) {position : Nat}
    (after : place instruction.offset ≤ position)
    (before : position < place instruction.nextOffset) :
    place boundary ≤ position ↔ boundary ≤ instruction.offset := by
  constructor
  · intro reached
    refine Nat.not_lt.mp fun later => ?_
    have follows : instruction.nextOffset ≤ boundary := by
      rcases List.mem_append.mp isEvent with listed | atEnd
      · obtain ⟨other, otherMember, rfl⟩ := List.mem_map.mp listed
        have differs : instruction ≠ other := by
          rintro rfl
          omega
        rcases Regions.or_of_pairwise decoded.stands.ordered member otherMember differs with
          inOrder | reversed
        · exact inOrder
        · have forward := (decoded.stands.wellRead other otherMember).size_pos
          unfold Instruction.nextOffset at reversed
          omega
      · rw [List.mem_singleton.mp atEnd]
        exact decoded.stands.to_stop instruction member
    have := spread.mono _ _ follows
    omega
  · intro le
    have := spread.mono _ _ le
    omega

/-- A position lies in the parts of the image of a clause as an offset lies in those of the
clause, if the boundaries of the clause are past for both or for none. -/
theorem sameParts_of_image {clause : Clause} {offset position : Nat}
    (image : clause.Image place (clause.moved place))
    (past : ∀ boundary ∈ clause.boundaries, place boundary ≤ position ↔ boundary ≤ offset) :
    clause.SameParts (clause.moved place) offset position := by
  have tryOffset := past clause.tryOffset (by simp [Clause.boundaries])
  have tryEnd := past clause.tryEnd (by simp [Clause.boundaries])
  have handlerOffset := past clause.handlerOffset (by simp [Clause.boundaries])
  have handlerEnd := past clause.handlerEnd (by simp [Clause.boundaries])
  refine ⟨?_, ?_, ?_⟩
  · rw [Clause.covers, Clause.covers, image.tryOffset, image.tryEnd, Bool.eq_iff_iff]
    simp only [Bool.and_eq_true, decide_eq_true_eq]
    omega
  · rw [Clause.inHandler, Clause.inHandler, image.handlerOffset, image.handlerEnd,
      Bool.eq_iff_iff]
    simp only [Bool.and_eq_true, decide_eq_true_eq]
    omega
  · rw [Clause.inFilter, Clause.inFilter, image.kind, image.handlerOffset]
    cases kind : clause.kind with
    | filterClause =>
        have filterOffset := past clause.filterOffset (by simp [Clause.boundaries, kind])
        rw [image.filterOffset kind, Bool.eq_iff_iff]
        simp only [BEq.rfl, Bool.true_and, Bool.and_eq_true, decide_eq_true_eq]
        omega
    | catchClause => rfl
    | finallyClause => rfl
    | faultClause => rfl

/-- The regions of a table that nests are kept. -/
theorem regionsKept_of_wellNested {rewritten : MethodCode} {finished : List MarkedClause}
    (spread : Spread code place) (decoded : code.Decoded)
    (fits : ∀ offset, place offset ≤ Clause.lastOffset)
    (replays : Blocks.replayAll code.clauses ⟨[], []⟩ code.eventOffsets = some ⟨[], finished⟩)
    (clauses : rewritten.clauses = finished.map (·.placed place))
    (nesting : Regions.WellNested code.clauses) : RegionsKept code rewritten place := by
  have isEvent (clause : Clause) (member : clause ∈ code.clauses) (boundary : Nat)
      (isBoundary : boundary ∈ clause.boundaries) : boundary ∈ code.eventOffsets :=
    decoded.mem_eventOffsets member isBoundary
  have images (clause : Clause) (member : clause ∈ code.clauses) :
      clause.Image place (clause.moved place) := by
    obtain ⟨group, listed, guarded⟩ := (Regions.grouped_groupsOf _).covered clause member
    have inOrder := nesting.inOrder listed (Regions.mem_members.mpr ⟨member, guarded⟩)
    exact Clause.image_moved spread.mono fits (Nat.le_of_lt (nesting.guarded clause member))
      (Nat.le_of_lt inOrder.handler_lt)
  obtain ⟨order, ordered, perm, agrees⟩ :=
    Regions.replayAll_nested nesting decoded.sorted_eventOffsets isEvent
  have same : finished = order.map Clause.marked :=
    (Blocks.mk.inj (Option.some.inj (replays.symm.trans ordered))).2
  refine ⟨⟨order, perm, agrees, ?_⟩, images, fun clause member instruction listed position after
    before => ?_, fun clause member position after => ?_⟩
  · rw [clauses, same, List.map_map]
    rfl
  · exact sameParts_of_image (images clause member) fun boundary isBoundary =>
      spread.le_iff decoded (isEvent clause member boundary isBoundary) listed after before
  · refine sameParts_of_image (images clause member) fun boundary isBoundary => ?_
    have le : boundary ≤ code.codeSize := by
      rcases List.mem_append.mp (isEvent clause member boundary isBoundary) with listed | atEnd
      · obtain ⟨instruction, instructionMember, rfl⟩ := List.mem_map.mp listed
        exact Nat.le_of_lt (decoded.offset_lt instructionMember)
      · exact Nat.le_of_eq (List.mem_singleton.mp atEnd)
    exact ⟨fun _ => le, fun _ => Nat.le_trans (spread.mono _ _ le) after⟩

/-! ## Regions that are not kept -/

/-- Between different boundaries of clauses stand instructions that are not dropped. -/
def Separates (code : MethodCode) : Prop :=
  ∀ first ∈ code.clauses, ∀ second ∈ code.clauses, ∀ start ∈ first.boundaries,
    ∀ stop ∈ second.boundaries, start < stop →
      ∃ instruction ∈ code.instructions.toList, isDropped instruction.opcode = false ∧
        start ≤ instruction.offset ∧ instruction.offset < stop

theorem Spread.lt_of_separates (spread : Spread code place) (decoded : code.Decoded)
    (separates : Separates code) {first second : Clause} (firstMember : first ∈ code.clauses)
    (secondMember : second ∈ code.clauses) {start stop : Nat} (isStart : start ∈ first.boundaries)
    (isStop : stop ∈ second.boundaries) (lt : start < stop) : place start < place stop := by
  obtain ⟨instruction, member, kept, after, before⟩ :=
    separates first firstMember second secondMember start isStart stop isStop lt
  have within := spread.le_iff decoded (decoded.mem_eventOffsets secondMember isStop) member
    (Nat.le_refl _) (spread.kept instruction member kept)
  have := spread.mono _ _ after
  omega

theorem flags_eq_filter {kind : ClauseKind} :
    kind.flags = ClauseFlags.filter ↔ kind = .filterClause := by
  cases kind <;> decide

/-- A clause that is placed where another one is moved to is the other one. -/
theorem eq_marked_of_placed {marked : MarkedClause} {clause : Clause}
    (typed : marked.filterStart?.isSome ↔ marked.flags = ClauseFlags.filter)
    (injective : ∀ boundary ∈ marked.boundaries, ∀ other ∈ clause.boundaries,
      place boundary = place other → boundary = other)
    (guarded : place clause.tryOffset < place clause.tryEnd)
    (handled : place clause.handlerOffset < place clause.handlerEnd)
    (same : marked.placed place = clause.moved place) : marked = clause.marked := by
  obtain ⟨flags, class?, tryStart, tryEnd, handlerStart, handlerEnd, filterStart?⟩ := marked
  simp only [MarkedClause.placed, Clause.moved, Clause.marked, Clause.mk.injEq] at same
  obtain ⟨sameFlags, samePlace, sameLength, sameHandler, sameHandlerLength, sameClass,
    sameFilter⟩ := same
  have sameTry : tryStart = clause.tryOffset :=
    injective _ (by simp [MarkedClause.boundaries]) _ (by simp [Clause.boundaries]) samePlace
  have sameTryEnd : tryEnd = clause.tryEnd :=
    injective _ (by simp [MarkedClause.boundaries]) _ (by simp [Clause.boundaries]) (by omega)
  have sameHandlerStart : handlerStart = clause.handlerOffset :=
    injective _ (by simp [MarkedClause.boundaries]) _ (by simp [Clause.boundaries]) sameHandler
  have sameHandlerEnd : handlerEnd = clause.handlerEnd :=
    injective _ (by simp [MarkedClause.boundaries]) _ (by simp [Clause.boundaries]) (by omega)
  have sameFilterStart : filterStart? = clause.filter? := by
    dsimp only at typed
    rw [sameFlags, flags_eq_filter] at typed
    unfold Clause.filter? at sameFilter ⊢
    by_cases isFilter : clause.kind = .filterClause
    · obtain ⟨filterStart, rfl⟩ := Option.isSome_iff_exists.mp (typed.mpr isFilter)
      rw [if_pos isFilter] at sameFilter ⊢
      exact congrArg some (injective _ (by simp [MarkedClause.boundaries]) _
        (by simp [Clause.boundaries, isFilter]) sameFilter)
    · rw [if_neg isFilter]
      exact Option.not_isSome_iff_eq_none.mp fun begun => isFilter (typed.mp begun)
  rw [sameFlags, sameClass, sameTry, sameTryEnd, sameHandlerStart, sameHandlerEnd,
    sameFilterStart]
  rfl

theorem eq_map_of_map_eq {α β γ : Type} {left : α → γ} {right : β → γ} {through : β → α}
    {items : List α} {others : List β} (same : items.map left = others.map right)
    (determines : ∀ item ∈ items, ∀ other ∈ others, left item = right other →
      item = through other) : items = others.map through := by
  induction items generalizing others with
  | nil =>
      obtain rfl := List.map_eq_nil_iff.mp same.symm
      rfl
  | cons item items ih =>
      cases others with
      | nil => cases same
      | cons other others =>
          obtain ⟨sameFirst, same⟩ := List.cons.inj same
          rw [List.map_cons, ← determines item (List.mem_cons_self ..) other
            (List.mem_cons_self ..) sameFirst]
          refine congrArg (item :: ·) (ih same fun one member another otherMember => ?_)
          exact determines one (List.mem_cons_of_mem _ member) another
            (List.mem_cons_of_mem _ otherMember)

/-- A table without empty parts that is kept nests. -/
theorem wellNested_of_moves {rewritten : MethodCode} {finished : List MarkedClause}
    (spread : Spread code place) (decoded : code.Decoded)
    (replays : Blocks.replayAll code.clauses ⟨[], []⟩ code.eventOffsets = some ⟨[], finished⟩)
    (clauses : rewritten.clauses = finished.map (·.placed place))
    (solid : ∀ clause ∈ code.clauses, clause.Solid) (separates : Separates code)
    (moves : Clause.Moves place code.clauses rewritten.clauses) :
    Regions.WellNested code.clauses := by
  obtain ⟨order, perm, agrees, same⟩ := moves
  obtain ⟨stop, recorded⟩ := Regions.recorded_of_replayAll decoded.sorted_eventOffsets replays
  have ascends {first second : Clause} (firstMember : first ∈ code.clauses)
      (secondMember : second ∈ code.clauses) {start stop : Nat}
      (isStart : start ∈ first.boundaries) (isStop : stop ∈ second.boundaries)
      (lt : start < stop) : place start < place stop :=
    spread.lt_of_separates decoded separates firstMember secondMember isStart isStop lt
  have identity : finished = order.map Clause.marked := by
    refine eq_map_of_map_eq (clauses.symm.trans same) fun marked isMarked clause member placed => ?_
    have listed := perm.mem_iff.mp member
    obtain ⟨typed, events⟩ := recorded.placed marked isMarked
    have parts := solid clause listed
    refine eq_marked_of_placed typed (fun boundary isBoundary other isOther samePlace => ?_)
      (ascends listed listed (by simp [Clause.boundaries]) (by simp [Clause.boundaries])
        parts.guarded)
      (ascends listed listed (by simp [Clause.boundaries]) (by simp [Clause.boundaries])
        parts.handler_lt) placed
    obtain ⟨owner, ownerMember, isOwn⟩ := events boundary isBoundary
    rcases Nat.lt_trichotomy boundary other with lt | same | gt
    · have := ascends ownerMember listed isOwn isOther lt
      omega
    · exact same
    · have := ascends listed ownerMember isOther isOwn gt
      omega
  rw [identity] at replays
  exact Regions.wellNested_of_replayAll solid decoded.sorted_eventOffsets replays perm agrees

/-- Places in code that fits into a method body are offsets that clauses can count. -/
theorem Emission.placeOf_le_lastOffset {subject : Subject} {isolation : IsolationRun}
    {scope : Scope} {emitted : EmittedCode} {pieces : Pieces} {ending : List Emitted}
    (emission : Emission subject isolation code scope emitted pieces ending)
    (fits : emitted.code.length < 0x100000000) (offset : Nat) :
    placeOf pieces offset ≤ Clause.lastOffset := by
  have le := placeOf_le pieces ending offset
  rw [emission.laidOut.size] at fits
  have size : byteSize (codeOf pieces ++ ending) < 0x100000000 := fits
  unfold Clause.lastOffset
  omega

end Instrumentation

/-- The exception regions of an instrumented method are those of the method, if its table nests.
A table without empty parts whose regions are kept nests. -/
theorem IsolationRun.instrument_keeps_regions {module : Module} {id : Nat} {method : MethodDef}
    {forInterface : Bool} {run final : IsolationRun} {code : MethodCode}
    {rewritten : DynamicMethod} (reachable : run.Reachable)
    (read : MethodCode.ofMethod module method = .ok code)
    (ran : instrument module id method forInterface run = .ok rewritten final) :
    ∃ layout emitted pieces ending,
      Emission (.ofMethod module id method forInterface layout) run code rewritten.scope emitted
        pieces ending ∧
      Instruction.decodeAll emitted.code = .ok rewritten.code.instructions.toList ∧
      Spread code (placeOf pieces) ∧
      (Regions.WellNested code.clauses → RegionsKept code rewritten.code (placeOf pieces)) ∧
      ((∀ clause ∈ code.clauses, clause.Solid) → Separates code →
        RegionsKept code rewritten.code (placeOf pieces) → Regions.WellNested code.clauses) := by
  obtain ⟨layout, emitted, pieces, ending, emission, fits, _, decoded, _, clauses⟩ :=
    emission_of_instrument reachable.stubsMade read ran
  have original := MethodCode.decoded_of_ofMethod read
  have spread := emission.spread original
  obtain ⟨finished, replays, placed⟩ := emission.clauses_placed original
  rw [← clauses] at placed
  exact ⟨layout, emitted, pieces, ending, emission, decoded, spread,
    regionsKept_of_wellNested spread original (emission.placeOf_le_lastOffset fits) replays
      placed,
    fun solid separates kept =>
      wellNested_of_moves spread original replays placed solid separates kept.moves⟩

/-! ## Guarded methods -/

namespace Guarded

open Stateful

def user : Token := .ofRow .typeDef 18

def module (body : List UInt8) : Module :=
  finalState (Module.setBody (.ofRow .methodDef 26) body
    (finalState (Module.declareMethod user
      { name := "Use", flags := MethodModifiers.isStatic, returnType := .int32 }
      (finalState (Module.declareType { space := "Demo", name := "User" } Module.initial)))))

def method (body : List UInt8) : MethodDef :=
  (((module body).method (.ofRow .methodDef 26)).toOption).getD default

def code (body : List UInt8) : MethodCode :=
  ((MethodCode.ofMethod (module body) (method body)).toOption).getD default

def run : IsolationRun :=
  { shims := [], config := {} }

def rewritten? (body : List UInt8) : Option DynamicMethod :=
  match IsolationRun.instrument (module body) 0 (method body) false run with
  | .ok rewritten _ => some rewritten
  | .error _ _ => none

theorem read_code (body : List UInt8)
    (readable : (MethodCode.ofMethod (module body) (method body)).toOption.isSome) :
    MethodCode.ofMethod (module body) (method body) = .ok (code body) := by
  unfold code
  cases read : MethodCode.ofMethod (module body) (method body) with
  | error error => rw [read] at readable; cases readable
  | ok code => rfl

theorem rewritten?_eq_some {body : List UInt8} {rewritten : DynamicMethod}
    (found : rewritten? body = some rewritten) :
    ∃ final, IsolationRun.instrument (module body) 0 (method body) false run =
      .ok rewritten final := by
  unfold rewritten? at found
  cases ran : IsolationRun.instrument (module body) 0 (method body) false run with
  | error error final => rw [ran] at found; cases found
  | ok other final => rw [ran] at found; cases found; exact ⟨final, rfl⟩

/-- A filter within a guarded range with a finally handler, within one with two catch
handlers. -/
def nested : List UInt8 :=
  [0x0B, 0x30, 0x08, 0x00, 0x13, 0x00, 0x00, 0x00, 0x00, 0x00, 0x00, 0x00, 0x00, 0xDE, 0x0E,
   0x26, 0x17, 0xFE, 0x11, 0x26, 0xDE, 0x07, 0xDC, 0x26, 0xDE, 0x03, 0x26, 0xDE, 0x00, 0x17,
   0x2A, 0x00, 0x01, 0x34, 0x00, 0x00, 0x01, 0x00, 0x00, 0x00, 0x03, 0x07, 0x00, 0x03, 0x03,
   0x00, 0x00, 0x00, 0x02, 0x00, 0x00, 0x00, 0x0A, 0x0A, 0x00, 0x01, 0x00, 0x00, 0x00, 0x00,
   0x00, 0x00, 0x00, 0x00, 0x0B, 0x0B, 0x00, 0x03, 0x0A, 0x00, 0x00, 0x02, 0x00, 0x00, 0x00,
   0x00, 0x0B, 0x0E, 0x00, 0x03, 0x01, 0x00, 0x00, 0x02]

/-- A guarded range with two instructions between it and its handler. -/
def gap : List UInt8 :=
  [0x0B, 0x30, 0x08, 0x00, 0x0A, 0x00, 0x00, 0x00, 0x00, 0x00, 0x00, 0x00, 0x00, 0xDE, 0x00,
   0x14, 0x7A, 0x26, 0xDE, 0x00, 0x17, 0x2A, 0x00, 0x00, 0x01, 0x10, 0x00, 0x00, 0x00, 0x00,
   0x00, 0x00, 0x03, 0x05, 0x00, 0x03, 0x01, 0x00, 0x00, 0x02]

theorem wellNested_nested : Regions.WellNested (code nested).clauses :=
  { guarded := by decide +kernel
    chained := by decide +kernel
    nested := by decide +kernel
    innerFirst := by decide +kernel }

theorem nested_keeps_regions : ∃ rewritten, rewritten? nested = some rewritten ∧
    ∃ place, Spread (code nested) place ∧
      RegionsKept (code nested) rewritten.code place := by
  have instrumented : (rewritten? nested).isSome := by decide +kernel
  obtain ⟨rewritten, found⟩ := Option.isSome_iff_exists.mp instrumented
  obtain ⟨final, ran⟩ := rewritten?_eq_some found
  obtain ⟨_, _, pieces, _, _, _, spread, kept, _⟩ :=
    IsolationRun.instrument_keeps_regions (.start [] {}) (read_code nested (by decide +kernel)) ran
  exact ⟨rewritten, found, placeOf pieces, spread, kept wellNested_nested⟩

/-- The instructions between a guarded range and its handler become part of the range. -/
theorem gap_not_kept : ∃ rewritten, rewritten? gap = some rewritten ∧
    ¬ ∃ place, Spread (code gap) place ∧
      Clause.Moves place (code gap).clauses rewritten.code.clauses := by
  have instrumented : (rewritten? gap).isSome := by decide +kernel
  have original : (code gap).clauses = [⟨.exception, 0, 3, 5, 3, some Core.object, 0⟩] := by
    decide +kernel
  have grown : ∀ rewritten ∈ rewritten? gap, rewritten.code.clauses =
      [⟨.exception, 0, 8, 8, 6, some Core.object, 0⟩] := by
    decide +kernel
  obtain ⟨rewritten, found⟩ := Option.isSome_iff_exists.mp instrumented
  refine ⟨rewritten, found, fun ⟨place, spread, order, perm, _, moved⟩ => ?_⟩
  rw [original] at perm
  rw [List.perm_singleton.mp perm, grown rewritten found] at moved
  obtain ⟨behind, member, kept, starts, ends⟩ : ∃ behind ∈ (code gap).instructions.toList,
      isDropped behind.opcode = false ∧ behind.offset = 3 ∧ behind.nextOffset = 4 := by
    decide +kernel
  have ascends := spread.kept behind member kept
  have follows := spread.mono 4 5 (by decide)
  rw [starts, ends] at ascends
  obtain ⟨_, tryOffset, tryLength, handlerOffset, _⟩ := Clause.mk.inj (List.cons.inj moved).1
  change 0 = place 0 at tryOffset
  change 8 = place 3 - place 0 at tryLength
  change 8 = place 5 at handlerOffset
  omega

end Guarded

end Cil
