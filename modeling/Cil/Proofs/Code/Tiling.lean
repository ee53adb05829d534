import Cil.Proofs.Code.Failures
import Cil.Proofs.Code.RoundTrip

/-!
# Decoded code without gaps

Decoding walks over the bytes from their start: every instruction begins where the one before
it ends.  So the instructions of a stream fill it, each of them stands for the bytes that it
covers, and searching their offsets by halves finds the instruction that begins at an offset.
Where the walk stops before the end, it stops in front of one instruction, and the bytes up to
there decode as what was read of them.
-/

namespace Cil

open Stateful

namespace Instruction

/-! ## Tilings -/

/-- The instructions fill the bytes between two offsets without gaps. -/
inductive Tiles : (start stop : Nat) → List Instruction → Prop
  | nil (offset : Nat) : Tiles offset offset []
  | cons {stop : Nat} {instruction : Instruction} {rest : List Instruction}
      (filled : 0 < instruction.size) (tiles : Tiles instruction.nextOffset stop rest) :
      Tiles instruction.offset stop (instruction :: rest)

namespace Tiles

variable {start stop : Nat} {instructions : List Instruction}

theorem add_length_le (tiles : Tiles start stop instructions) :
    start + instructions.length ≤ stop := by
  induction tiles with
  | nil offset => exact Nat.le_refl _
  | cons filled tiles ih =>
      simp only [nextOffset, List.length_cons] at ih ⊢
      omega

theorem start_le (tiles : Tiles start stop instructions) {instruction : Instruction}
    (member : instruction ∈ instructions) : start ≤ instruction.offset := by
  induction tiles with
  | nil offset => cases member
  | cons filled tiles ih =>
      rcases List.mem_cons.mp member with rfl | member
      · exact Nat.le_refl _
      · exact Nat.le_trans (Nat.le_add_right _ _) (ih member)

theorem increasing (tiles : Tiles start stop instructions) :
    instructions.Pairwise (·.offset < ·.offset) := by
  induction tiles with
  | nil offset => exact List.Pairwise.nil
  | @cons stop instruction rest filled tiles ih =>
      refine List.pairwise_cons.mpr ⟨fun later member => ?_, ih⟩
      exact Nat.lt_of_lt_of_le (Nat.lt_add_of_pos_right filled) (tiles.start_le member)

end Tiles

/-! ## Displacements -/

/-- The operand of a branch by a table is a table. -/
theorem operand_of_switch {opcode : Opcode} (isSwitch : opcode.flow = .switch) :
    opcode.operand = .switch := by
  cases opcode <;> first | rfl | cases isSwitch

/-- How far the branches of an instruction lead from its end. -/
def displacements (instruction : Instruction) : List Int :=
  if instruction.opcode.flow.isBranch then
    match instruction.operand with
    | .immediate (.int8 displacement) => [displacement.toInt]
    | .immediate (.int32 displacement) => [displacement.toInt]
    | .switch displacements => displacements.map Int32.toInt
    | _ => []
  else []

/-- The target that a displacement leads to is counted from the end of its instruction. -/
theorem target_eq (next : Nat) (displacement : Int64) :
    (((next + displacement.toUInt64.toNat) % 0x10000000000000000 : Nat) : Int) =
      (next + displacement.toInt) % 0x10000000000000000 := by
  have wide := toUInt64_emod displacement
  omega

theorem WellRead.targets_eq {instruction : Instruction} (wellRead : instruction.WellRead) :
    instruction.targets.map Int.ofNat = instruction.displacements.map fun displacement : Int =>
      (instruction.nextOffset + displacement) % 0x10000000000000000 := by
  rw [wellRead.targets]
  have fits := wellRead.fits
  generalize instruction.nextOffset = next
  obtain ⟨offset, size, opcode, operand, targets⟩ := instruction
  simp only at fits
  simp only [displacements, Flow.isBranch]
  by_cases single : opcode.flow.isSingleBranch
  · rcases Emitted.operand_of_branch single with kind | kind <;> rw [kind] at fits <;> cases fits
    · rename_i displacement
      have target := target_eq next displacement.toInt64
      rw [Int8.toInt_toInt64] at target
      simp only [targetsOf, single, if_true, Bool.true_or, Immediate.toWord, List.map_cons,
        List.map_nil, List.cons.injEq, and_true]
      exact target
    · rename_i displacement
      have target := target_eq next displacement.toInt64
      rw [Int32.toInt_toInt64] at target
      simp only [targetsOf, single, if_true, Bool.true_or, Immediate.toWord, List.map_cons,
        List.map_nil, List.cons.injEq, and_true]
      exact target
  · by_cases switches : opcode.flow = .switch
    · rw [operand_of_switch switches] at fits
      cases fits
      rename_i displacements count
      simp only [targetsOf, switches, if_true, BEq.rfl, Bool.or_true, List.map_map]
      refine List.map_congr_left fun displacement member => ?_
      have target := target_eq next displacement.toInt64
      rw [Int32.toInt_toInt64] at target
      exact target
    · simp only [single, Bool.false_or, beq_iff_eq, switches, if_false, List.map_nil,
        List.map_eq_nil_iff]
      cases operand <;> simp [targetsOf, single, switches]

/-! ## Single reads -/

/-- A read takes exactly the bytes that its instruction is written as. -/
theorem placed_of_read {cursor next : Cursor} {instruction : Instruction}
    (ran : read cursor = .ok instruction next) :
    instruction = placed cursor.position instruction.opcode instruction.operand ∧
      cursor.rest = encode instruction.opcode instruction.operand ++ next.rest ∧
      next.position =
        cursor.position + (encode instruction.opcode instruction.operand).length := by
  have taken := Consumes.read cursor instruction next ran
  obtain ⟨wellRead, -⟩ := wellRead_of_read ran
  obtain ⟨final, again, finalRest, finalPosition⟩ := read_encode wellRead.fits taken
  obtain ⟨same, rfl⟩ := EStateM.Result.ok.inj (ran.symm.trans again)
  exact ⟨same, taken, finalPosition⟩

/-- What can be wrong with an instruction: the bytes end within it, or it is not supported. -/
def FailsAt (start : Nat) (error : Error) : Prop :=
  error = .outOfBounds ∨ ∃ obstacle, error = .unsupportedInstruction start obstacle

theorem failsAt_of_read {cursor stopped : Cursor} {error : Error}
    (failed : read cursor = .error error stopped) : FailsAt cursor.position error := by
  have bounds : FailsAt cursor.position .outOfBounds := .inl rfl
  rcases bind_eq_error.mp failed with failed | ⟨_, _, started, failed⟩
  · cases failed
  obtain ⟨rfl, rfl⟩ := get_eq_ok.mp started
  rcases bind_eq_error.mp failed with failed | ⟨opcode, middle, _, failed⟩
  · exact failsOnly_readOpcode bounds (fun obstacle => .inr ⟨obstacle, rfl⟩) _ _ _ failed
  rcases bind_eq_error.mp failed with failed | ⟨operand, final, _, failed⟩
  · exact failsOnly_readOperand bounds _ _ _ _ failed
  · cases failed

/-! ## Walks -/

/-- The instructions that are read one behind the other, and the cursor behind the last. -/
inductive Walk : Cursor → List Instruction → Cursor → Prop
  | done (cursor : Cursor) : Walk cursor [] cursor
  | read {cursor next final : Cursor} {instruction : Instruction} {rest : List Instruction}
      (ran : Instruction.read cursor = .ok instruction next) (walk : Walk next rest final) :
      Walk cursor (instruction :: rest) final

namespace Walk

variable {cursor final : Cursor} {instructions : List Instruction}

theorem data_eq (walk : Walk cursor instructions final) : final.data = cursor.data := by
  induction walk with
  | done cursor => rfl
  | read ran walk ih =>
      obtain ⟨_, _, _, data⟩ := wellRead_of_read ran
      exact ih.trans data

theorem rest_eq (walk : Walk cursor instructions final) :
    cursor.rest = encodeAll (parts instructions) ++ final.rest := by
  induction walk with
  | done cursor => rfl
  | read ran walk ih =>
      obtain ⟨_, taken, _⟩ := placed_of_read ran
      rw [taken, ih, ← List.append_assoc]
      rfl

theorem position_eq (walk : Walk cursor instructions final) :
    final.position = cursor.position + (encodeAll (parts instructions)).length := by
  induction walk with
  | done cursor => rfl
  | read ran walk ih =>
      obtain ⟨_, _, position⟩ := placed_of_read ran
      simp only [parts, encodeAll, List.map_cons, List.flatMap_cons, List.length_append] at ih ⊢
      omega

theorem wellRead (walk : Walk cursor instructions final) :
    ∀ instruction ∈ instructions, instruction.WellRead := by
  induction walk with
  | done cursor => exact List.forall_mem_nil _
  | read ran walk ih => exact List.forall_mem_cons.mpr ⟨(wellRead_of_read ran).1, ih⟩

theorem instructions_eq (walk : Walk cursor instructions final) :
    instructions = placedFrom cursor.position (parts instructions) := by
  induction walk with
  | done cursor => rfl
  | read ran walk ih =>
      obtain ⟨same, _, position⟩ := placed_of_read ran
      rw [position] at ih
      simp only [parts, List.map_cons, placedFrom, ← same] at ih ⊢
      rw [← ih]

theorem tiles (walk : Walk cursor instructions final) :
    Tiles cursor.position final.position instructions := by
  induction walk with
  | done cursor => exact .nil _
  | read ran walk ih =>
      obtain ⟨wellRead, offset, nextOffset, _⟩ := wellRead_of_read ran
      rw [← nextOffset] at ih
      rw [← offset]
      exact .cons wellRead.size_pos ih

/-- Every instruction stands for the bytes that it covers. -/
theorem written (walk : Walk cursor instructions final) :
    ∀ instruction ∈ instructions, (cursor.data.drop instruction.offset).take instruction.size =
      encode instruction.opcode instruction.operand := by
  induction walk with
  | done cursor => exact List.forall_mem_nil _
  | @read cursor next final instruction rest ran walk ih =>
      obtain ⟨_, offset, _, data⟩ := wellRead_of_read ran
      obtain ⟨same, taken, _⟩ := placed_of_read ran
      have size : instruction.size =
          (encode instruction.opcode instruction.operand).length := congrArg size same
      rw [data] at ih
      refine List.forall_mem_cons.mpr ⟨?_, ih⟩
      rw [offset, size, ← cursor.rest_eq, taken, List.take_left]

/-- The bytes that a walk from the start has passed decode as what it read. -/
theorem decodeAll_take {code : List UInt8} (walk : Walk (Cursor.ofBytes code) instructions final) :
    decodeAll (code.take final.position) = .ok instructions := by
  have bytes : code.take final.position = encodeAll (parts instructions) := by
    have rest : code = encodeAll (parts instructions) ++ final.rest := walk.rest_eq
    rw [walk.position_eq, show (Cursor.ofBytes code).position = 0 from rfl, Nat.zero_add]
    exact (congrArg (List.take _) rest).trans List.take_left
  have fits : ∀ entry ∈ parts instructions, entry.2.Fits entry.1.operand := by
    intro entry member
    obtain ⟨instruction, listed, rfl⟩ := List.mem_map.mp member
    exact (walk.wellRead instruction listed).fits
  rw [bytes, decodeAll_encodeAll fits]
  exact congrArg Except.ok walk.instructions_eq.symm

end Walk

/-! ## Streams -/

theorem remaining_lt_of_read {cursor next : Cursor} {instruction : Instruction}
    (ran : read cursor = .ok instruction next) : next.remaining < cursor.remaining := by
  obtain ⟨_, taken, _⟩ := placed_of_read ran
  have size := encode_length_pos instruction.opcode instruction.operand
  have lengths := congrArg List.length taken
  rw [List.length_append] at lengths
  simp only [Cursor.remaining]
  omega

/-- How the reading of a stream ends: with the bytes, or in front of an instruction that cannot
be read. -/
inductive Stops : Option Error → Cursor → Prop
  | atEnd {final : Cursor} (ended : final.rest = []) : Stops none final
  | failed {final stopped : Cursor} {error : Error} (more : final.rest ≠ [])
      (failed : read final = .error error stopped) : Stops (some error) final

theorem walk_readMany {rounds : Nat} {cursor : Cursor} (enough : cursor.remaining ≤ rounds) :
    ∃ final, Walk cursor (readMany rounds cursor).instructions final ∧
      Stops (readMany rounds cursor).failure? final := by
  induction rounds generalizing cursor with
  | zero => exact ⟨cursor, .done _, .atEnd (List.eq_nil_of_length_eq_zero (Nat.le_zero.mp enough))⟩
  | succ rounds ih =>
      cases rest : cursor.rest with
      | nil =>
          have noMore : cursor.hasMore = false := by rw [Cursor.hasMore, rest]; rfl
          simp only [readMany, noMore, Bool.false_eq_true, if_false]
          exact ⟨cursor, .done _, .atEnd rest⟩
      | cons byte bytes =>
          have more : cursor.hasMore = true := by rw [Cursor.hasMore, rest]; rfl
          simp only [readMany, more, if_true]
          cases ran : read cursor with
          | error error stopped => exact ⟨cursor, .done _, .failed (by simp [rest]) ran⟩
          | ok instruction next =>
              have fewer := remaining_lt_of_read ran
              have enoughLeft : next.remaining ≤ rounds := by omega
              obtain ⟨final, walk, stops⟩ := ih enoughLeft
              exact ⟨final, .read ran walk, stops⟩

/-- One more round than there are bytes left changes nothing. -/
theorem readMany_succ {rounds : Nat} {cursor : Cursor} (enough : cursor.remaining ≤ rounds) :
    readMany (rounds + 1) cursor = readMany rounds cursor := by
  induction rounds generalizing cursor with
  | zero =>
      have ended : cursor.hasMore = false := by
        rw [Cursor.hasMore, List.eq_nil_of_length_eq_zero (Nat.le_zero.mp enough)]
        rfl
      simp only [readMany, ended, Bool.false_eq_true, if_false]
  | succ rounds ih =>
      rw [readMany, readMany]
      cases ran : read cursor with
      | error error stopped => rfl
      | ok instruction next =>
          have fewer := remaining_lt_of_read ran
          have enoughLeft : next.remaining ≤ rounds := by omega
          simp only [ih enoughLeft]

theorem readMany_of_remaining_le {rounds : Nat} {cursor : Cursor}
    (enough : cursor.remaining ≤ rounds) :
    readMany rounds cursor = readMany cursor.remaining cursor := by
  induction enough with
  | refl => rfl
  | step enough ih => rw [readMany_succ enough, ih]

/-! ## Tables -/

theorem exists_readInt {width : Nat} {cursor : Cursor} (enough : width ≤ cursor.remaining) :
    ∃ number next, Cursor.readInt width cursor = .ok number next ∧
      next.remaining = cursor.remaining - width := by
  have taken : Cursor.readBytes width cursor =
      .ok (cursor.rest.take width) (cursor.skip width enough) := dif_pos enough
  have number : Cursor.readNat width cursor =
      .ok (Number.ofBytes (cursor.rest.take width)) (cursor.skip width enough) :=
    bind_eq_ok.mpr ⟨_, _, taken, rfl⟩
  exact ⟨_, _, bind_eq_ok.mpr ⟨_, _, number, rfl⟩, List.length_drop⟩

theorem exists_readDisplacements {count : Nat} {cursor : Cursor}
    (enough : count * 4 ≤ cursor.remaining) :
    ∃ displacements next, readDisplacements count cursor = .ok displacements next ∧
      next.remaining = cursor.remaining - count * 4 := by
  induction count generalizing cursor with
  | zero => exact ⟨[], cursor, rfl, by omega⟩
  | succ count ih =>
      have first : 4 ≤ cursor.remaining := by omega
      obtain ⟨number, middle, read, left⟩ := exists_readInt first
      have others : count * 4 ≤ middle.remaining := by omega
      obtain ⟨rest, final, restRead, restLeft⟩ := ih others
      refine ⟨Int32.ofInt number :: rest, final, ?_, by omega⟩
      refine bind_eq_ok.mpr ⟨number, middle, read, ?_⟩
      exact bind_eq_ok.mpr ⟨rest, final, restRead, rfl⟩

/-- What reading a table does behind its count: it takes a number of rounds that the bytes left
allow, or none. -/
def TableBounded (cursor : Cursor) (count : Nat) (middle : Cursor) : Prop :=
  if middle.remaining < count * 4 then readOperand .switch cursor = .error .outOfBounds middle
  else ∃ displacements next, displacements.length = count ∧
    readDisplacements count middle = .ok displacements next ∧
    next.remaining = middle.remaining - count * 4 ∧
    readOperand .switch cursor = .ok (.switch displacements) next

theorem tableBounded_of_count {cursor middle : Cursor} {count : Nat}
    (counted : Cursor.readNat 4 cursor = .ok count middle) : TableBounded cursor count middle := by
  unfold TableBounded
  split
  · rename_i short
    refine bind_eq_error.mpr (.inr ⟨count, middle, counted, ?_⟩)
    refine bind_eq_error.mpr (.inr ⟨middle, middle, rfl, ?_⟩)
    rw [if_pos short]
    exact bind_eq_error.mpr (.inl rfl)
  · rename_i enough
    obtain ⟨displacements, next, read, left⟩ := exists_readDisplacements (Nat.le_of_not_lt enough)
    refine ⟨displacements, next, length_of_readDisplacements read, read, left, ?_⟩
    refine bind_eq_ok.mpr ⟨count, middle, counted, ?_⟩
    refine bind_eq_ok.mpr ⟨middle, middle, rfl, ?_⟩
    rw [if_neg enough]
    exact bind_eq_ok.mpr ⟨displacements, next, read, rfl⟩

end Instruction

/-! ## Searching by halves -/

namespace MethodCode

/-- The place where a search by halves ends.  Of the places that are left it keeps those from the
middle on, unless what starts in the middle lies behind the offset. -/
def halved (starts : Nat → Nat) (offset base size : Nat) : Nat :=
  if 1 < size then
    let middle := base + size / 2
    halved starts offset (if offset < starts middle then base else middle) (size - size / 2)
  else base
termination_by size

theorem halved_eq {starts : Nat → Nat} {count offset index base size : Nat}
    (increasing : ∀ first second, first < second → second < count → starts first < starts second)
    (within : base + size ≤ count) (base_le : base ≤ index) (lt_end : index < base + size)
    (found : starts index = offset) : halved starts offset base size = index := by
  fun_induction halved starts offset base size with
  | case1 base size several middle ih =>
      have parts : middle = base + size / 2 := rfl
      rcases Nat.lt_or_ge index middle with before | behind
      · have above : offset < starts middle := found ▸ increasing index middle before (by omega)
        rw [dif_pos above] at ih
        rw [if_pos above]
        exact ih (by omega) base_le (by omega)
      · have reached : ¬ offset < starts middle := by
          rcases Nat.eq_or_lt_of_le behind with same | beyond
          · rw [same, found]
            exact Nat.lt_irrefl _
          · have lower := increasing middle index beyond (by omega)
            omega
        rw [dif_neg reached] at ih
        rw [if_neg reached]
        exact ih (by omega) behind (by omega)
  | case2 base size single => omega

/-- The instruction that starts at an offset, searched by halves. -/
def search? (code : MethodCode) (offset : Nat) : Option Nat :=
  let starts (index : Nat) := code.instructions[index]!.offset
  let place := halved starts offset 0 code.instructions.size
  if place < code.instructions.size ∧ starts place = offset then some place else none

section Lookup

variable {code : MethodCode}
  (increasing : code.instructions.toList.Pairwise fun first second => first.offset < second.offset)

include increasing

theorem offset_lt_of_lt {first second : Nat} (before : first < second)
    (inside : second < code.instructions.size) :
    code.instructions[first]!.offset < code.instructions[second]!.offset := by
  rw [getElem!_pos code.instructions first (by omega), getElem!_pos code.instructions second inside]
  have pairs := List.pairwise_iff_getElem.mp increasing first second
  simp only [Array.length_toList, Array.getElem_toList] at pairs
  exact pairs (by omega) inside before

/-- Exactly the instruction that starts at an offset is found there. -/
theorem position?_eq_some_iff {offset index : Nat} :
    code.position? offset = some index ↔
      ∃ instruction, code.instructions[index]? = some instruction ∧
        instruction.offset = offset := by
  unfold position?
  rw [Array.findIdx?_eq_some_iff_getElem]
  constructor
  · rintro ⟨inside, holds, _⟩
    exact ⟨_, Array.getElem?_eq_getElem inside, by simpa using holds⟩
  · rintro ⟨instruction, found, offset_eq⟩
    obtain ⟨inside, rfl⟩ := Array.getElem?_eq_some_iff.mp found
    refine ⟨inside, by simpa using offset_eq, fun earlier before => ?_⟩
    have lower := offset_lt_of_lt increasing before inside
    rw [getElem!_pos code.instructions earlier (by omega),
      getElem!_pos code.instructions index inside] at lower
    simp only [beq_iff_eq]
    omega

/-- Searching by halves finds what searching from the front does. -/
theorem search?_eq_position? (offset : Nat) : code.search? offset = code.position? offset := by
  refine Option.ext fun index => ?_
  rw [position?_eq_some_iff increasing]
  unfold search?
  dsimp only
  constructor
  · intro found
    split at found
    · rename_i place
      cases found
      refine ⟨_, Array.getElem?_eq_getElem place.1, ?_⟩
      rw [← getElem!_pos code.instructions _ place.1]
      exact place.2
    · cases found
  · rintro ⟨instruction, found, rfl⟩
    obtain ⟨inside, rfl⟩ := Array.getElem?_eq_some_iff.mp found
    have starts : code.instructions[index]!.offset = code.instructions[index].offset := by
      rw [getElem!_pos code.instructions index inside]
    have place := halved_eq (fun first second => offset_lt_of_lt increasing)
      (Nat.le_of_eq (Nat.zero_add _)) (Nat.zero_le index) (by omega) starts
    rw [place, if_pos ⟨inside, starts⟩]

end Lookup

end MethodCode

namespace Instruction

/-! ## Decoded code -/

/-- The instructions cover the code up to an offset, and each of them says what stands there. -/
structure Covers (code : List UInt8) (stop : Nat) (instructions : List Instruction) : Prop where
  tiles : Tiles 0 stop instructions
  increasing : instructions.Pairwise fun first second => first.offset < second.offset
  written : ∀ instruction ∈ instructions, (code.drop instruction.offset).take instruction.size =
    encode instruction.opcode instruction.operand
  targets : ∀ instruction ∈ instructions,
    instruction.targets.map Int.ofNat = instruction.displacements.map fun displacement : Int =>
      (instruction.nextOffset + displacement) % 0x10000000000000000

theorem Walk.covers {code : List UInt8} {instructions : List Instruction} {final : Cursor}
    (walk : Walk (Cursor.ofBytes code) instructions final) :
    Covers code final.position instructions where
  tiles := walk.tiles
  increasing := walk.tiles.increasing
  written := walk.written
  targets := fun instruction member => (walk.wellRead instruction member).targets_eq

/-- The code of a method finds its instructions by their offsets, also by halves. -/
def FindsAll (method : MethodCode) : Prop :=
  ∀ offset, method.search? offset = method.position? offset ∧
    ∀ index, method.position? offset = some index ↔
      ∃ instruction, method.instructions[index]? = some instruction ∧ instruction.offset = offset

/-- Decoding stops at an offset because the instruction there cannot be read.  What is in front of
it decodes as what was read. -/
structure StopsAt (code : List UInt8) (start : Nat) (error : Error) : Prop where
  inside : start < code.length
  leading : decodeAll (code.take start) = .ok (readStream code).instructions
  covers : Covers code start (readStream code).instructions
  failsAt : FailsAt start error
  failed : ∃ cursor stopped : Cursor, cursor.data = code ∧ cursor.position = start ∧
    read cursor = .error error stopped

/-- Reading a stream walks over its bytes until it stops. -/
theorem walk_readStream (code : List UInt8) :
    ∃ final, Walk (Cursor.ofBytes code) (readStream code).instructions final ∧
      Stops (readStream code).failure? final ∧ final.data = code ∧
      final.remaining = code.length - final.position := by
  obtain ⟨final, walk, stops⟩ := walk_readMany (Nat.le_refl (Cursor.ofBytes code).remaining)
  have data : final.data = code := walk.data_eq
  have left := final.remaining_eq
  rw [data] at left
  exact ⟨final, walk, stops, data, left⟩

theorem covers_of_decodeAll {code : List UInt8} {instructions : List Instruction}
    (decoded : decodeAll code = .ok instructions) : Covers code code.length instructions := by
  obtain ⟨final, walk, stops, data, left⟩ := walk_readStream code
  unfold decodeAll at decoded
  dsimp only at decoded
  cases failure : (readStream code).failure? with
  | some error => rw [failure] at decoded; cases decoded
  | none =>
      rw [failure] at decoded stops
      cases decoded
      cases stops with
      | atEnd ended =>
          have stop : final.position = code.length := by
            have inside := final.position_le
            rw [data] at inside
            rw [Cursor.remaining, ended, List.length_nil] at left
            omega
          exact stop ▸ walk.covers

/-- Where the offsets increase, the search by halves finds what starts there. -/
theorem Covers.findsAll {code : List UInt8} {stop : Nat} {instructions : List Instruction}
    (covers : Covers code stop instructions) {method : MethodCode}
    (listed : method.instructions.toList = instructions) : FindsAll method := by
  have increasing := covers.increasing
  rw [← listed] at increasing
  exact fun offset => ⟨MethodCode.search?_eq_position? increasing offset,
    fun index => MethodCode.position?_eq_some_iff increasing⟩

theorem stopsAt_of_decodeAll {code : List UInt8} {error : Error}
    (failed : decodeAll code = .error error) : ∃ start, StopsAt code start error := by
  obtain ⟨final, walk, stops, data, left⟩ := walk_readStream code
  unfold decodeAll at failed
  dsimp only at failed
  cases failure : (readStream code).failure? with
  | none => rw [failure] at failed; cases failed
  | some error =>
      rw [failure] at failed stops
      cases failed
      cases stops with
      | failed more readFailed =>
          have some := List.length_pos_iff.mpr more
          rw [Cursor.remaining] at left
          exact ⟨final.position, by omega, walk.decodeAll_take, walk.covers,
            failsAt_of_read readFailed, final, _, data, rfl, readFailed⟩

/-- Every instruction takes a byte. -/
theorem length_readMany_le {rounds : Nat} {cursor : Cursor} (enough : cursor.remaining ≤ rounds) :
    (readMany rounds cursor).instructions.length ≤ cursor.remaining := by
  obtain ⟨last, walk, _⟩ := walk_readMany enough
  have fits := walk.tiles.add_length_le
  have inside := last.position_le
  have left := cursor.remaining_eq
  rw [walk.data_eq] at inside
  omega

/-- Decoded instructions fill the code without gaps, so that their offsets identify them, and
each of them gives the targets of its displacements.  Where decoding fails it fails at one
instruction, behind leading instructions that decode alone.  No loop takes more rounds than
the bytes left allow. -/
theorem decoding_tiles (code : List UInt8) :
    (∀ instructions, decodeAll code = .ok instructions →
      Covers code code.length instructions ∧
      ∀ method : MethodCode, method.instructions.toList = instructions → FindsAll method) ∧
    (∀ error, decodeAll code = .error error → ∃ start, StopsAt code start error) ∧
    (∀ cursor rounds, cursor.remaining ≤ rounds →
      readMany rounds cursor = readMany cursor.remaining cursor ∧
      (readMany rounds cursor).instructions.length ≤ cursor.remaining) ∧
    ∀ cursor count middle, Cursor.readNat 4 cursor = .ok count middle →
      TableBounded cursor count middle := by
  refine ⟨fun instructions decoded => ?_, fun error => stopsAt_of_decodeAll,
    fun cursor rounds enough => ?_, fun cursor count middle => tableBounded_of_count⟩
  · have covers := covers_of_decodeAll decoded
    exact ⟨covers, fun method listed => covers.findsAll listed⟩
  · exact ⟨readMany_of_remaining_le enough, length_readMany_le enough⟩

namespace BranchToItself

/-- An instruction that does nothing, and a branch to the start of the code. -/
def code : List UInt8 := [0x00, 0x2B, 0xFD]

def instructions : List Instruction :=
  [{ offset := 0, size := 1, opcode := .nop, operand := .none, targets := [] },
    { offset := 1, size := 2, opcode := .brS, operand := .immediate (.int8 (-3)), targets := [0] }]

def method : MethodCode :=
  { instructions := instructions.toArray, locals := [], clauses := [], maxStack := 0
    initLocals := false, codeSize := 3 }

/-- The count of a table without its displacement. -/
def count : Cursor := Cursor.ofBytes [0x01, 0x00, 0x00, 0x00]

/-- The whole code decodes, and its method finds both instructions.  Without its last byte it stops
at the branch, and a table without its displacements is refused as a whole. -/
theorem covered_and_stopped :
    (decodeAll code = .ok instructions ∧ Covers code 3 instructions ∧ FindsAll method) ∧
      (decodeAll (code.take 2) = .error .outOfBounds ∧
        ∃ start, StopsAt (code.take 2) start .outOfBounds) ∧
      (readMany 5 (Cursor.ofBytes code)).instructions.length ≤ 3 ∧
      TableBounded count 1 (count.skip 4 (by decide)) := by
  have decoded : decodeAll code = .ok instructions := by decide +kernel
  have cut : decodeAll (code.take 2) = .error .outOfBounds := by decide +kernel
  obtain ⟨covers, finds⟩ := (decoding_tiles code).1 instructions decoded
  obtain ⟨-, stops, -⟩ := decoding_tiles (code.take 2)
  obtain ⟨-, -, rounds, tables⟩ := decoding_tiles code
  exact ⟨⟨decoded, covers, finds method rfl⟩, ⟨cut, stops _ cut⟩,
    (rounds (Cursor.ofBytes code) 5 (by decide)).2, tables count 1 _ rfl⟩

end BranchToItself

end Instruction

end Cil
