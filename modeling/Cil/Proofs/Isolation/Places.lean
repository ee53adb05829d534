import Cil.Proofs.Isolation.Emission

/-!
# Where instructions are placed

Every offset of a method has a place in the emitted code: where the piece of the instruction
there starts, or of the next one.  Labels stand at the places of the offsets that they are
named for.
-/

namespace Cil

open Stateful

namespace Instrumentation

/-! ## Positions of offsets -/

/-- Instructions in the order of their offsets. -/
def Ordered (instructions : List Instruction) : Prop :=
  instructions.Pairwise fun first second => first.offset < second.offset

/-- Where the piece of an offset starts, pieces being weighed in some way. -/
def positionOf (weight : List Emitted → Nat) : (start : Nat) → Pieces → (offset : Nat) → Nat
  | start, [], _ => start
  | start, (instruction, emitted) :: rest, offset =>
      if offset ≤ instruction.offset then start
      else positionOf weight (start + weight emitted) rest offset

def byteSize (emitted : List Emitted) : Nat :=
  sizeOfItems (emitted.map Emitted.item)

def placeOf (pieces : Pieces) (offset : Nat) : Nat :=
  positionOf byteSize 0 pieces offset

/-- How many instructions are emitted in front of an offset. -/
def markOf (pieces : Pieces) (offset : Nat) : Mark :=
  positionOf List.length 0 pieces offset

theorem le_positionOf (weight : List Emitted → Nat) (start : Nat) (pieces : Pieces)
    (offset : Nat) : start ≤ positionOf weight start pieces offset := by
  induction pieces generalizing start with
  | nil => exact Nat.le_refl start
  | cons piece pieces ih =>
      unfold positionOf
      split
      · exact Nat.le_refl start
      · exact Nat.le_trans (Nat.le_add_right _ _) (ih _)

theorem positionOf_mono (weight : List Emitted → Nat) (start : Nat) (pieces : Pieces)
    {first second : Nat} (le : first ≤ second) :
    positionOf weight start pieces first ≤ positionOf weight start pieces second := by
  induction pieces generalizing start with
  | nil => exact Nat.le_refl start
  | cons piece pieces ih =>
      obtain ⟨instruction, emitted⟩ := piece
      simp only [positionOf]
      split
      · split
        · exact Nat.le_refl start
        · exact Nat.le_trans (Nat.le_add_right _ _) (le_positionOf ..)
      · rw [if_neg (by omega)]
        exact ih _

theorem positionOf_lt {weight : List Emitted → Nat} {pieces : Pieces}
    (ordered : Ordered (pieces.map (·.1))) {instruction : Instruction} {emitted : List Emitted}
    (member : (instruction, emitted) ∈ pieces) (heavy : 0 < weight emitted) {offset : Nat}
    (behind : instruction.offset < offset) (start : Nat) :
    positionOf weight start pieces instruction.offset < positionOf weight start pieces offset := by
  induction pieces generalizing start with
  | nil => cases member
  | cons piece pieces ih =>
      obtain ⟨first, firstEmitted⟩ := piece
      rw [List.map_cons] at ordered
      obtain ⟨later, ordered⟩ := List.pairwise_cons.mp ordered
      unfold positionOf
      rcases List.mem_cons.mp member with same | member
      · cases same
        rw [if_pos (Nat.le_refl _), if_neg (Nat.not_le.mpr behind)]
        have := le_positionOf weight (start + weight emitted) pieces offset
        omega
      · have follows : first.offset < instruction.offset :=
          later instruction (List.mem_map.mpr ⟨_, member, rfl⟩)
        rw [if_neg (by omega), if_neg (by omega)]
        exact ih ordered member _

theorem byteSize_append (first second : List Emitted) :
    byteSize (first ++ second) = byteSize first + byteSize second := by
  rw [byteSize, List.map_append, sizeOfItems_append]
  rfl

theorem size_pos_of_proper {emitted : Emitted} (proper : emitted.Proper) :
    0 < emitted.item.size := by
  have size := Emitted.length_encode_resolve proper (fun _ => 0) 0
  rw [← size]
  exact Instruction.encode_length_pos _ _

theorem offsetOf_front (front rest : List Emitted) :
    offsetOf ((front ++ rest).map Emitted.item) front.length = byteSize front := by
  rw [offsetOf, List.map_append, List.take_left' (by simp)]
  rfl

theorem offsetOf_positionOf (front behind : List Emitted) (pieces : Pieces) (offset : Nat) :
    offsetOf ((front ++ codeOf pieces ++ behind).map Emitted.item)
        (positionOf List.length front.length pieces offset) =
      positionOf byteSize (byteSize front) pieces offset := by
  induction pieces generalizing front with
  | nil =>
      rw [List.append_assoc]
      exact offsetOf_front front _
  | cons piece pieces ih =>
      obtain ⟨instruction, emitted⟩ := piece
      simp only [positionOf]
      split
      · rw [List.append_assoc]
        exact offsetOf_front front _
      · have code : front ++ codeOf ((instruction, emitted) :: pieces) ++ behind =
            (front ++ emitted) ++ codeOf pieces ++ behind := by
          simp [codeOf]
        rw [code, ← List.length_append, ← byteSize_append]
        exact ih (front ++ emitted)

/-- The mark of an offset stands at its place. -/
theorem offsetOf_markOf (pieces : Pieces) (behind : List Emitted) (offset : Nat) :
    offsetOf ((codeOf pieces ++ behind).map Emitted.item) (markOf pieces offset) =
      placeOf pieces offset :=
  offsetOf_positionOf [] behind pieces offset

/-! ## Labels -/

theorem ordered_of_stands {start stop : Nat} {instructions : List Instruction}
    (stands : Instruction.Stands start stop instructions) : Ordered instructions := by
  refine stands.ordered.imp_of_mem fun {first second} member _ follows => ?_
  have := (stands.wellRead first member).size_pos
  unfold Instruction.nextOffset at follows
  omega

theorem mem_labelsOf {targets : List Nat} {pieces : Pieces}
    (ordered : Ordered (pieces.map (·.1))) {instruction : Instruction}
    (member : instruction ∈ pieces.map (·.1)) (isTarget : instruction.offset ∈ targets)
    (start : Mark) :
    (labelAt instruction.offset, positionOf List.length start pieces instruction.offset) ∈
      labelsOf targets start pieces := by
  induction pieces generalizing start with
  | nil => cases member
  | cons piece pieces ih =>
      obtain ⟨first, emitted⟩ := piece
      rw [List.map_cons] at member ordered
      obtain ⟨later, ordered⟩ := List.pairwise_cons.mp ordered
      unfold labelsOf positionOf
      rcases List.mem_cons.mp member with rfl | member
      · rw [if_pos (Nat.le_refl _), if_pos (List.contains_iff_mem.mpr isTarget)]
        exact List.mem_append_left _ (List.mem_singleton.mpr rfl)
      · have behind : ¬ instruction.offset ≤ first.offset :=
          Nat.not_le.mpr (later instruction member)
        rw [if_neg behind]
        exact List.mem_append_right _ (ih ordered member _)

theorem lookup_of_nodup {α : Type} {entries : List (String × α)} {label : String} {value : α}
    (distinct : (entries.map (·.1)).Nodup) (member : (label, value) ∈ entries) :
    entries.lookup label = some value := by
  induction entries with
  | nil => cases member
  | cons first entries ih =>
      obtain ⟨name, other⟩ := first
      rw [List.map_cons, List.nodup_cons] at distinct
      rcases List.mem_cons.mp member with same | member
      · cases same
        simp
      · have differs : (label == name) = false := by
          refine beq_false_of_ne fun same => distinct.1 ?_
          rw [← same]
          exact List.mem_map.mpr ⟨_, member, rfl⟩
        rw [List.lookup_cons, differs]
        exact ih distinct.2 member

theorem placeOf_le (pieces : Pieces) (behind : List Emitted) (offset : Nat) :
    placeOf pieces offset ≤ byteSize (codeOf pieces ++ behind) := by
  rw [← offsetOf_markOf pieces behind]
  exact offsetOf_le _ _

variable {subject : Subject} {isolation : IsolationRun} {code : MethodCode} {scope : Scope}
  {emitted : EmittedCode} {pieces : Pieces} {ending : List Emitted}

/-- The label of a branch target is defined where the target is placed. -/
theorem Emission.lookup_labelAt
    (emission : Emission subject isolation code scope emitted pieces ending)
    (decoded : code.Decoded) {instruction : Instruction}
    (member : instruction ∈ code.instructions.toList) {target : Nat}
    (isTarget : target ∈ instruction.targets) :
    (labelsOf (targetsOf code) 0 pieces).lookup (labelAt target) =
      some (markOf pieces target) := by
  obtain ⟨reached, reachedMember, rfl⟩ := decoded.targets instruction member target isTarget
  have ordered := ordered_of_stands decoded.stands
  rw [← emission.instructions] at ordered reachedMember
  have listed : reached.offset ∈ targetsOf code := List.mem_flatMap.mpr ⟨_, member, isTarget⟩
  exact lookup_of_nodup emission.distinct (mem_labelsOf ordered reachedMember listed 0)

/-- The label of a branch target leads to the place of the target. -/
theorem Emission.target_labelAt
    (emission : Emission subject isolation code scope emitted pieces ending)
    (decoded : code.Decoded) {instruction : Instruction}
    (member : instruction ∈ code.instructions.toList) {target : Nat}
    (isTarget : target ∈ instruction.targets) :
    (layoutOf code pieces ending).target (labelAt target) = placeOf pieces target := by
  have found := emission.lookup_labelAt decoded member isTarget
  unfold Layout.Draft.target
  simp only [layoutOf, found]
  exact offsetOf_markOf pieces ending target

theorem Trace.piece_of_mem {constraint? : Option Token}
    (trace : Trace subject isolation scope constraint? pieces) {instruction : Instruction}
    {row : List Emitted} (member : (instruction, row) ∈ pieces) :
    ∃ waits, Piece subject isolation scope waits instruction row := by
  induction trace with
  | nil => cases member
  | cons piece _ ih =>
      rcases List.mem_cons.mp member with same | member
      · cases same
        exact ⟨_, piece⟩
      · exact ih member

theorem Piece.target_of_branch {constraint? : Option Token} {instruction : Instruction}
    {row : List Emitted} (piece : Piece subject isolation scope constraint? instruction row)
    {opcode : Opcode} {label : String} (branch : .branch opcode label ∈ row) :
    ∃ target ∈ instruction.targets, label = labelAt target := by
  cases piece with
  | branch isBranch targets =>
      cases List.mem_singleton.mp branch
      exact ⟨_, by rw [targets]; exact List.mem_singleton.mpr rfl, rfl⟩
  | argument isAccess isIndex accesses =>
      unfold unboxing at branch
      split at branch <;> simp at branch
  | forwarded isCall operand known forwards constrained =>
      cases constraint? <;> simp [constraintMark] at branch
  | _ => simp at branch

/-- A return behind the code has the place of a branch target. -/
theorem Emission.target_of_end
    (emission : Emission subject isolation code scope emitted pieces ending)
    (decoded : code.Decoded) (ends : ending ≠ []) :
    ending = [.plain .ret .none] ∧
      ∃ branch ∈ code.instructions.toList, ∃ target ∈ branch.targets,
        placeOf pieces target = byteSize (codeOf pieces) := by
  obtain none | ⟨isReturn, opcode, label, branch, atEnd⟩ := emission.ends
  · exact absurd none ends
  · refine ⟨isReturn, ?_⟩
    obtain ⟨⟨instruction, row⟩, member, branch⟩ := List.mem_flatMap.mp branch
    obtain ⟨_, piece⟩ := emission.trace.piece_of_mem member
    obtain ⟨target, isTarget, rfl⟩ := piece.target_of_branch branch
    have listed : instruction ∈ code.instructions.toList := by
      rw [← emission.instructions]
      exact List.mem_map.mpr ⟨_, member, rfl⟩
    refine ⟨instruction, listed, target, isTarget, ?_⟩
    have found := emission.lookup_labelAt decoded listed isTarget
    rw [lookup_of_nodup emission.distinct atEnd] at found
    have mark : (codeOf pieces).length = markOf pieces target := Option.some.inj found
    rw [← offsetOf_markOf pieces [], ← mark]
    exact offsetOf_front (codeOf pieces) []

end Instrumentation

/-! ## Instrumented methods -/

/-- Code that fits into a method body is addressed by 32-bit offsets. -/
theorem Body.length_lt_of_encode {code : List UInt8} {maxStack : Nat} {locals : Token}
    {initLocals : Bool} {clauses : List Clause} {bytes : List UInt8}
    (encoded : encode code maxStack locals initLocals clauses = .ok bytes) :
    code.length < 0x100000000 := by
  unfold encode at encoded
  split at encoded
  · rename_i tiny
    have short : code.length ≤ tinyMaxCode := by
      simp only [Bool.and_eq_true, decide_eq_true_eq] at tiny
      exact tiny.1.1.1
    unfold tinyMaxCode at short
    omega
  · dsimp only at encoded
    split at encoded
    · obtain ⟨_, failed, _⟩ := except_bind_eq_ok.mp encoded
      cases failed
    · omega

open Instrumentation

/-- What stays the same while a method is instrumented. -/
def Instrumentation.Subject.ofMethod (module : Module) (id : Nat) (method : MethodDef)
    (forInterface : Bool) (layout : ArgumentLayout) : Subject :=
  { module, run := id, method, layout
    unboxesReceiver := forInterface && !method.isStatic && module.isValueType method.declaringType }

/-- Instrumenting a method emits its code and assembles a method from that. -/
theorem IsolationRun.emission_of_instrument {module : Module} {id : Nat} {method : MethodDef}
    {forInterface : Bool} {run final : IsolationRun} {code : MethodCode}
    {rewritten : DynamicMethod} (stubs : run.StubsMade)
    (read : MethodCode.ofMethod module method = .ok code)
    (ran : instrument module id method forInterface run = .ok rewritten final) :
    ∃ layout emitted pieces ending,
      Emission (.ofMethod module id method forInterface layout) run code rewritten.scope emitted
        pieces ending ∧
      emitted.code.length < 0x100000000 ∧
      rewritten.code.Decoded ∧
      Instruction.decodeAll emitted.code = .ok rewritten.code.instructions.toList ∧
      rewritten.code.codeSize = emitted.code.length ∧
      rewritten.code.clauses = emitted.clauses := by
  obtain ⟨_, _, codeRan, ran⟩ := bind_eq_ok.mp ran
  obtain ⟨codeRead, rfl⟩ := ofExcept_eq_ok.mp codeRan
  obtain rfl := Except.ok.inj (read.symm.trans codeRead)
  obtain ⟨params, _, paramsRan, ran⟩ := bind_eq_ok.mp ran
  obtain ⟨_, rfl⟩ := ofExcept_eq_ok.mp paramsRan
  obtain ⟨layout, _, layoutRan, ran⟩ := bind_eq_ok.mp ran
  obtain ⟨_, rfl⟩ := ofExcept_eq_ok.mp layoutRan
  obtain ⟨_, _, runRead, ran⟩ := bind_eq_ok.mp ran
  obtain ⟨rfl, rfl⟩ := get_eq_ok.mp runRead
  let start : Draft := { encoder := {}, scope := {}, tokens := [], constraint? := none, run }
  have invariant : Invariant (.ofMethod module id method forInterface layout) run start :=
    ⟨stubs, rfl, rfl, fun _ _ _ found => by cases found⟩
  generalize emittedRan : emitCode code _ _ = result at ran
  cases result with
  | error error draft =>
      obtain ⟨_, _, _, ran⟩ := bind_eq_ok.mp ran
      exact absurd ran throw_ne_ok
  | ok emitted draft =>
      obtain ⟨_, _, _, ran⟩ := bind_eq_ok.mp ran
      obtain ⟨assembled, _⟩ := ofExcept_eq_ok.mp ran
      obtain ⟨body, encoded, assembled⟩ := except_bind_eq_ok.mp assembled
      obtain ⟨decoded, decodedRan, assembled⟩ := except_bind_eq_ok.mp assembled
      cases assembled
      obtain ⟨pieces, ending, emission⟩ := emission_of_emitCode
        (MethodCode.decoded_of_ofMethod read).stands.wellRead invariant rfl rfl emittedRan
      obtain ⟨isDecoded, same, codeSize, clauses⟩ := MethodCode.decoded_of_ofBytes decodedRan
      exact ⟨layout, emitted, pieces, ending, emission, Body.length_lt_of_encode encoded,
        isDecoded, same, codeSize, clauses⟩

end Cil
