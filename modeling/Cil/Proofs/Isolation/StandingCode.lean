import Cil.Proofs.Code.Encoding
import Cil.Proofs.Isolation.RegularCode

/-!
# Instrumented code in place of regular code

The pieces of a method make up its instrumented code, one behind the other.  Where the code is
regular, nothing stands behind them, and control that is sent to an offset of the code is sent to
the first instruction of its piece, or to that of the next piece that is not empty.
-/

namespace Cil

open Instrumentation Stateful

namespace Instrumentation

/-! ## Pieces up to an index -/

/-- How many instructions are emitted in front of the piece at an index. -/
def startAt (pieces : Pieces) (index : Nat) : Nat :=
  (codeOf (pieces.take index)).length

theorem codeOf_append (first second : Pieces) :
    codeOf (first ++ second) = codeOf first ++ codeOf second :=
  List.flatMap_append

theorem codeOf_take_append_drop (pieces : Pieces) (index : Nat) :
    codeOf pieces = codeOf (pieces.take index) ++ codeOf (pieces.drop index) := by
  rw [← codeOf_append, List.take_append_drop]

theorem startAt_length (pieces : Pieces) :
    startAt pieces pieces.length = (codeOf pieces).length := by
  rw [startAt, List.take_length]

theorem startAt_succ {front rest : Pieces} {piece : Instruction × List Emitted} :
    startAt (front ++ piece :: rest) (front.length + 1) =
      startAt (front ++ piece :: rest) front.length + piece.2.length := by
  unfold startAt
  rw [List.take_length_add_append, List.take_left, codeOf_append, List.length_append]
  simp [codeOf]

theorem placeOf_zero (pieces : Pieces) : placeOf pieces 0 = 0 := by
  cases pieces with
  | nil => rfl
  | cons piece pieces => simp [placeOf, positionOf]

/-- Behind a piece starts the next one, at the latest. -/
theorem le_positionOf_split {front rest : Pieces} {instruction : Instruction}
    {emitted : List Emitted} (start : Nat)
    (ordered : Ordered ((front ++ (instruction, emitted) :: rest).map (·.1))) {offset : Nat}
    (behind : instruction.offset < offset) :
    start + byteSize (codeOf front) + byteSize emitted ≤
      positionOf byteSize start (front ++ (instruction, emitted) :: rest) offset := by
  induction front generalizing start with
  | nil =>
      rw [List.nil_append, positionOf_behind behind]
      exact le_positionOf _ _ _ _
  | cons first front ih =>
      obtain ⟨later, ordered⟩ := List.pairwise_cons.mp ordered
      have follows : first.1.offset < instruction.offset := later instruction (by simp)
      rw [byteSize_codeOf_cons, ← Nat.add_assoc, List.cons_append,
        positionOf_behind (Nat.lt_trans follows behind)]
      exact ih (start + byteSize first.2) ordered

/-- The pieces of a method make up other code, one behind the other. -/
structure MakesUp (subject : Subject) (isolation : IsolationRun) (scope : Scope)
    (code image : MethodCode) (target : String → Nat) (pieces : Pieces) : Prop where
  instructions : pieces.map (·.1) = code.instructions.toList
  trace : Trace subject isolation scope none pieces
  proper : ∀ item ∈ codeOf pieces, item.Proper
  stands : image.instructions.toList = Emitted.instructionsFrom target 0 (codeOf pieces)
  leads : Emitted.LeadsFrom target 0 (codeOf pieces)
  labels : ∀ instruction ∈ code.instructions.toList, ∀ offset ∈ instruction.targets,
    target (labelAt offset) = placeOf pieces offset
  stop : placeOf pieces code.codeSize = byteSize (codeOf pieces)
  size : image.codeSize = byteSize (codeOf pieces)
  decoded : code.Decoded
  imageDecoded : image.Decoded
  spread : Spread code (placeOf pieces)
  kept : RegionsKept code image (placeOf pieces)

/-! ## Making up the code of a method -/

section Emissions

variable {subject : Subject} {isolation : IsolationRun} {code : MethodCode} {scope : Scope}
  {emitted : EmittedCode} {pieces : Pieces} {ending : List Emitted}
  (emission : Emission subject isolation code scope emitted pieces ending)
  (decoded : code.Decoded)

include emission decoded

theorem Emission.placeOf_codeSize : placeOf pieces code.codeSize = byteSize (codeOf pieces) := by
  have stop : markOf pieces code.codeSize = (codeOf pieces).length := by
    refine (positionOf_end (fun instruction member => ?_) 0).trans (Nat.zero_add _)
    rw [emission.instructions] at member
    exact decoded.offset_lt member
  rw [← offsetOf_markOf pieces [], stop]
  exact offsetOf_front (codeOf pieces) []

/-- Nothing stands behind the pieces of regular code. -/
theorem Emission.ending_eq_nil (regular : code.Regular) : ending = [] := by
  refine Classical.byContradiction fun ends => ?_
  obtain ⟨_, branch, listed, target, isTarget, atEnd⟩ := emission.target_of_end decoded ends
  obtain ⟨reached, member, rfl⟩ := decoded.targets branch listed target isTarget
  have isEvent := MethodCode.mem_eventOffsets_of_instruction (Array.mem_toList_iff.mp member)
  have before := regular.place_lt_of_lt decoded (emission.spread decoded) isEvent
    (List.mem_append_right _ (List.mem_singleton.mpr rfl)) (.inr rfl) (decoded.offset_lt member)
  rw [emission.placeOf_codeSize decoded, atEnd] at before
  exact Nat.lt_irrefl _ before

end Emissions

/-- The pieces of regular code make up its instrumented code. -/
theorem makesUp_of_instrument {module : Module} {id : Nat} {method : MethodDef}
    {forInterface : Bool} {run final : IsolationRun} {code : MethodCode}
    {rewritten : DynamicMethod} (stubs : run.StubsMade)
    (read : MethodCode.ofMethod module method = .ok code) (regular : code.Regular)
    (ran : IsolationRun.instrument module id method forInterface run = .ok rewritten final) :
    ∃ layout target pieces,
      MakesUp (.ofMethod module id method forInterface layout) run rewritten.scope code
        rewritten.code target pieces := by
  obtain ⟨layout, emitted, pieces, ending, emission, fits, imageDecoded, decodes, codeSize,
    clauses⟩ :=
    IsolationRun.emission_of_instrument stubs read ran
  have decoded := MethodCode.decoded_of_ofMethod read
  have spread := emission.spread decoded
  obtain ⟨finished, replays, placed⟩ := emission.clauses_placed decoded
  obtain rfl := emission.ending_eq_nil decoded regular
  have laidOut := emission.laidOut
  rw [List.append_nil] at laidOut
  rw [← clauses] at placed
  exact ⟨layout, (layoutOf code pieces []).target, pieces,
    { instructions := emission.instructions
      trace := emission.trace
      proper := emission.proper
      stands := Except.ok.inj (decodes.symm.trans laidOut.decoded)
      leads := laidOut.leads
      labels := fun _ listed _ isTarget => emission.target_labelAt decoded listed isTarget
      stop := emission.placeOf_codeSize decoded
      size := codeSize.trans
        (laidOut.size.trans (congrArg byteSize (List.append_nil (codeOf pieces))))
      decoded, imageDecoded, spread
      kept := regionsKept_of_wellNested spread decoded (emission.placeOf_le_lastOffset fits)
        replays placed regular.nested }⟩

namespace MakesUp

variable {subject : Subject} {isolation : IsolationRun} {scope : Scope} {code image : MethodCode}
  {target : String → Nat} {pieces : Pieces}
  (makesUp : MakesUp subject isolation scope code image target pieces)

include makesUp

theorem ordered : Ordered (pieces.map (·.1)) := by
  rw [makesUp.instructions]
  exact makesUp.decoded.increasing

theorem length_pieces : pieces.length = code.instructions.size := by
  rw [← Array.length_toList, ← makesUp.instructions, List.length_map]

theorem size_image : image.instructions.size = (codeOf pieces).length := by
  rw [← Array.length_toList, makesUp.stands]
  exact Reemission.length_instructionsFrom target 0 (codeOf pieces)

/-- The piece of an instruction, between those in front of it and those behind it. -/
theorem exists_split {index : Nat} {instruction : Instruction}
    (found : code.instructions[index]? = some instruction) :
    ∃ front emitted rest, pieces = front ++ (instruction, emitted) :: rest ∧
      front.length = index ∧ front.map (·.1) = code.instructions.toList.take index := by
  obtain ⟨inside, same⟩ := Array.getElem?_eq_some_iff.mp found
  have within : index < pieces.length := by rw [makesUp.length_pieces]; exact inside
  have isInstruction : pieces[index].1 = instruction := by
    have listed : (pieces.map (·.1))[index]? = some instruction := by
      rw [makesUp.instructions]
      simpa using found
    rw [List.getElem?_map, List.getElem?_eq_getElem within] at listed
    exact Option.some.inj listed
  refine ⟨pieces.take index, pieces[index].2, pieces.drop (index + 1), ?_, ?_, ?_⟩
  · rw [← isInstruction]
    exact (List.take_append_drop index pieces).symm.trans
      (congrArg _ (List.drop_eq_getElem_cons within))
  · exact List.length_take_of_le (Nat.le_of_lt within)
  · rw [List.map_take, makesUp.instructions]

theorem placeOf_eq {index : Nat} {instruction : Instruction}
    (found : code.instructions[index]? = some instruction) :
    placeOf pieces instruction.offset = byteSize (codeOf (pieces.take index)) := by
  have ordered := makesUp.ordered
  obtain ⟨front, emitted, rest, rfl, rfl, _⟩ := makesUp.exists_split found
  rw [List.take_left]
  exact (positionOf_split 0 ordered).trans (Nat.zero_add _)

/-- What is emitted at a mark stands there. -/
theorem getElem?_image (mark : Nat) : image.instructions[mark]? =
    (codeOf pieces)[mark]?.map
      (Emitted.instruction target (offsetOf ((codeOf pieces).map Emitted.item) mark)) := by
  rw [← Array.getElem?_toList, makesUp.stands, Emitted.getElem?_instructionsFrom, Nat.zero_add]

omit makesUp in
theorem offsetOf_startAt (index : Nat) :
    offsetOf ((codeOf pieces).map Emitted.item) (startAt pieces index) =
      byteSize (codeOf (pieces.take index)) := by
  rw [codeOf_take_append_drop pieces index]
  exact offsetOf_front _ _

/-! ## Pieces in place -/

theorem located {instruction : Instruction} (listed : instruction ∈ code.instructions)
    {position : Nat} (after : placeOf pieces instruction.offset ≤ position)
    (before : position < placeOf pieces instruction.nextOffset) :
    code.SameRegions (placeOf pieces) instruction.offset position :=
  fun clause member => makesUp.kept.inside clause member instruction
    (Array.mem_toList_iff.mpr listed) position after before

end MakesUp

/-- The instructions of a piece stand at its place, between that of its instruction and that of
the next one. -/
structure InPlace (subject : Subject) (isolation : IsolationRun) (scope : Scope)
    (code image : MethodCode) (target : String → Nat) (pieces : Pieces) (index : Nat)
    (instruction : Instruction) (emitted : List Emitted) : Prop where
  piece : Piece subject isolation scope (code.waitingAt index) instruction emitted
  next : startAt pieces index + emitted.length = startAt pieces (index + 1)
  stands : ∀ mark < emitted.length, image.instructions[startAt pieces index + mark]? =
    (Emitted.instructionsFrom target (placeOf pieces instruction.offset) emitted)[mark]?
  leads : Emitted.LeadsFrom target (placeOf pieces instruction.offset) emitted
  sized : ∀ item ∈ emitted, 0 < item.item.size
  located : ∀ position, placeOf pieces instruction.offset ≤ position →
    position < placeOf pieces instruction.offset + byteSize emitted →
      code.SameRegions (placeOf pieces) instruction.offset position

section InPlace

variable {subject : Subject} {isolation : IsolationRun} {scope : Scope} {code image : MethodCode}
  {target : String → Nat} {pieces : Pieces} {index : Nat} {instruction : Instruction}

theorem MakesUp.exists_inPlace
    (makesUp : MakesUp subject isolation scope code image target pieces)
    (found : code.instructions[index]? = some instruction) :
    ∃ emitted, InPlace subject isolation scope code image target pieces index instruction
      emitted := by
  have placed := makesUp.placeOf_eq found
  have ordered := makesUp.ordered
  have leads := makesUp.leads
  have trace := makesUp.trace
  have stands := makesUp.stands
  have proper := makesUp.proper
  have located (position : Nat) (after : placeOf pieces instruction.offset ≤ position)
      (before : position < placeOf pieces instruction.nextOffset) :=
    makesUp.located (Array.mem_of_getElem? found) after before
  have listed : instruction ∈ code.instructions.toList :=
    Array.mem_toList_iff.mpr (Array.mem_of_getElem? found)
  have forward : instruction.offset < instruction.nextOffset :=
    Nat.lt_add_of_pos_right (makesUp.decoded.stands.wellRead instruction listed).size_pos
  obtain ⟨front, emitted, rest, rfl, rfl, waits⟩ := makesUp.exists_split found
  rw [List.take_left] at placed
  rw [codeOf_split] at leads stands proper
  have piece := trace.piece_behind
  rw [waits] at piece
  have within := (Emitted.leadsFrom_append.mp (Emitted.leadsFrom_append.mp leads).2).1
  rw [Nat.zero_add] at within
  refine ⟨emitted, piece, startAt_succ.symm, fun mark inside => ?_, ?_, fun item member => ?_,
    fun position after before => located position after (Nat.lt_of_lt_of_le before ?_)⟩
  · have front_eq : startAt (front ++ (instruction, emitted) :: rest) front.length =
        (codeOf front).length := by
      rw [startAt, List.take_left]
    have size := Reemission.length_instructionsFrom target 0 (codeOf front)
    rw [front_eq, placed, ← Array.getElem?_toList, stands, Emitted.instructionsFrom_append,
      Emitted.instructionsFrom_append, Nat.zero_add, List.getElem?_append_right (by omega), size,
      Nat.add_sub_cancel_left, List.getElem?_append_left]
    · rfl
    · rwa [Reemission.length_instructionsFrom]
  · rw [placed]
    exact within
  · exact size_pos_of_proper (proper item (by simp [member]))
  · have le := le_positionOf_split 0 ordered forward
    rw [Nat.zero_add] at le
    rw [placed]
    exact le

namespace InPlace

theorem single {item : Emitted}
    (inPlace : InPlace subject isolation scope code image target pieces index instruction [item]) :
    image.instructions[startAt pieces index]? =
        some (item.instruction target (placeOf pieces instruction.offset)) ∧
      code.SameRegions (placeOf pieces) instruction.offset
        (item.instruction target (placeOf pieces instruction.offset)).offset := by
  refine ⟨inPlace.stands 0 (by simp), inPlace.located _ (Nat.le_refl _) ?_⟩
  have sized := inPlace.sized item (by simp)
  have size : byteSize [item] = item.item.size + 0 := rfl
  rw [size, Nat.add_zero]
  exact Nat.lt_add_of_pos_right sized

theorem double {item last : Emitted}
    (inPlace : InPlace subject isolation scope code image target pieces index instruction
      [item, last]) :
    image.instructions[startAt pieces index]? =
        some (item.instruction target (placeOf pieces instruction.offset)) ∧
      image.instructions[startAt pieces index + 1]? = some (last.instruction target
        (placeOf pieces instruction.offset + item.item.size)) ∧
      code.SameRegions (placeOf pieces) instruction.offset (last.instruction target
        (placeOf pieces instruction.offset + item.item.size)).offset := by
  refine ⟨inPlace.stands 0 (by simp), inPlace.stands 1 (by simp),
    inPlace.located _ (Nat.le_add_right _ _) ?_⟩
  have sized := inPlace.sized last (by simp)
  have size : byteSize [item, last] = item.item.size + (last.item.size + 0) := rfl
  rw [size, Nat.add_zero, ← Nat.add_assoc]
  exact Nat.lt_add_of_pos_right sized

end InPlace

end InPlace

namespace MakesUp

variable {subject : Subject} {isolation : IsolationRun} {scope : Scope} {code image : MethodCode}
  {target : String → Nat} {pieces : Pieces}
  (makesUp : MakesUp subject isolation scope code image target pieces)

include makesUp

/-! ## Standing for the code -/

section Sound

variable (regular : code.Regular)

include regular

/-- The instrumented code goes on behind what is emitted in front of an instruction. -/
theorem startAt_lt {index : Nat} {instruction : Instruction}
    (found : code.instructions[index]? = some instruction) :
    startAt pieces index < (codeOf pieces).length := by
  have listed := Array.mem_of_getElem? found
  have before := regular.place_lt_of_lt makesUp.decoded makesUp.spread
    (MethodCode.mem_eventOffsets_of_instruction listed)
    (List.mem_append_right _ (List.mem_singleton.mpr rfl)) (.inr rfl)
    (makesUp.decoded.offset_lt (Array.mem_toList_iff.mpr listed))
  rw [makesUp.stop, makesUp.placeOf_eq found, codeOf_take_append_drop pieces index,
    byteSize_append] at before
  rw [codeOf_take_append_drop pieces index, List.length_append, startAt]
  refine Nat.lt_add_of_pos_right (List.length_pos_iff.mpr fun none => ?_)
  rw [none] at before
  exact Nat.lt_irrefl _ before

/-- At the place of an instruction stands what is emitted for it, or for the next one. -/
theorem position?_placeOf {index : Nat} {instruction : Instruction}
    (found : code.instructions[index]? = some instruction) :
    image.position? (placeOf pieces instruction.offset) = some (startAt pieces index) := by
  have inside := makesUp.startAt_lt regular found
  have stands := makesUp.getElem?_image (startAt pieces index)
  rw [List.getElem?_eq_getElem inside, offsetOf_startAt, ← makesUp.placeOf_eq found] at stands
  exact (MethodCode.position?_eq_some_iff makesUp.imageDecoded.increasing).mpr ⟨_, stands, rfl⟩

omit regular in
theorem position?_stop :
    code.position? code.codeSize = none ∧
      image.position? (placeOf pieces code.codeSize) = none := by
  have past {code : MethodCode} (decoded : code.Decoded) : code.position? code.codeSize = none := by
    refine Option.not_isSome_iff_eq_none.mp fun found => ?_
    obtain ⟨reached, listed, atEnd⟩ := MethodCode.exists_of_position? found
    exact Nat.ne_of_lt (decoded.offset_lt listed) atEnd
  rw [makesUp.stop, ← makesUp.size]
  exact ⟨past makesUp.decoded, past makesUp.imageDecoded⟩

theorem lands {module : Module} {method : MethodDef}
    (read : MethodCode.ofMethod module method = .ok code) {offset : Nat}
    (destination : code.Destination offset) :
    (code.position? offset = none ∧ image.position? (placeOf pieces offset) = none) ∨
      ∃ index, code.position? offset = some index ∧
        image.position? (placeOf pieces offset) = some (startAt pieces index) ∧
        code.waitingAt index = none := by
  have increasing := makesUp.decoded.increasing
  rcases List.mem_append.mp (destination.mem_eventOffsets read) with listed | atEnd
  · obtain ⟨instruction, member, rfl⟩ := List.mem_map.mp listed
    obtain ⟨index, found⟩ := Array.getElem?_of_mem (Array.mem_toList_iff.mp member)
    refine .inr ⟨index, (MethodCode.position?_eq_some_iff increasing).mpr ⟨_, found, rfl⟩,
      makesUp.position?_placeOf regular found, ?_⟩
    obtain ⟨inside, same⟩ := Array.getElem?_eq_some_iff.mp found
    rcases destination.isSeam with isStart | isSeam
    · -- Only the first instruction stands at the start.
      cases index with
      | zero => rfl
      | succ index =>
          have := (makesUp.decoded.offset_lt_iff (Nat.lt_of_succ_lt inside) inside).mpr
            (Nat.lt_succ_self index)
          rw [same, isStart] at this
          exact absurd this (Nat.not_lt_zero _)
    · exact regular.waitingAt_of_isSeam inside (by rw [same]; exact isSeam)
  · rw [List.mem_singleton.mp atEnd]
    exact .inl makesUp.position?_stop

end Sound

end MakesUp

/-- How pieces stand for the code that they were made from.  The marks of the code are made part
of its calls. -/
def translationOf (code image : MethodCode) (pieces : Pieces) : Translation where
  place := placeOf pieces
  start := startAt pieces
  Marks index mark? otherMark? := code.waitingAt index = mark? ∧ otherMark? = none
  Handlers := code.SameHandler image (placeOf pieces)
  Located := code.SameRegions (placeOf pieces)

/-- The pieces of regular code stand for it. -/
theorem MakesUp.sound {subject : Subject} {isolation : IsolationRun} {scope : Scope}
    {code image : MethodCode} {target : String → Nat} {pieces : Pieces} {module : Module}
    {method : MethodDef} (makesUp : MakesUp subject isolation scope code image target pieces)
    (regular : code.Regular) (read : MethodCode.ofMethod module method = .ok code) :
    (translationOf code image pieces).Sound code image where
  size := by
    rw [makesUp.size_image, ← makesUp.length_pieces]
    exact startAt_length pieces
  origin := placeOf_zero pieces
  lands destination := by
    rcases makesUp.lands regular read destination with past | ⟨index, found, otherFound, waits⟩
    · exact .inl past
    · exact .inr ⟨index, found, otherFound, waits, rfl⟩
  target destination := makesUp.kept.sameRegions_of_event regular makesUp.decoded makesUp.spread
    (destination.mem_eventOffsets read)
  guarding within located := makesUp.kept.guarding regular makesUp.decoded makesUp.spread within
    located
  left within located destination := makesUp.kept.left regular makesUp.decoded makesUp.spread
    within located (destination.mem_eventOffsets read)
  handlers := by
    rintro index other ⟨clause, found, otherFound⟩
    refine ⟨clause, _, found, otherFound, fun offset position located => ?_⟩
    rw [Clause.inHandler_positionOf, Clause.inHandler_positionOf]
    exact (located clause (List.mem_of_getElem? found)).inHandler

end Instrumentation

end Cil
