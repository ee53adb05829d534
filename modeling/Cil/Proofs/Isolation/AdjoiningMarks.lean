import Cil.Proofs.Isolation.Reemission

/-!
# Marks that adjoin their calls

A `constrained.` mark that waits for a call behind another instruction moves when the code is
emitted again.  So the code of a method is emitted again one for one exactly if no mark of a
forwarded call does.
-/

namespace Cil

open Instrumentation

namespace Reemission

variable {re : Reemission}

/-! ## Marks -/

theorem emits_of_dropped {mark? : Option Token} {instruction : Instruction}
    {original emitted : List Instruction} (isDropped : isDropped instruction.opcode)
    (emits : re.Emits mark? (instruction :: original) emitted) :
    re.Emits (IsolationRun.markBehind mark? instruction) original emitted := by
  cases emits with
  | dropped _ _ rest => exact rest
  | kept kept => rw [isDropped] at kept; cases kept

theorem emits_of_kept {mark? : Option Token} {instruction : Instruction}
    {original emitted : List Instruction} (kept : isDropped instruction.opcode = false)
    (emits : re.Emits mark? (instruction :: original) emitted) :
    ∃ first more rest, emitted = first :: more ++ rest ∧
      re.Renders mark? instruction (first :: more) ∧ re.Emits none original rest := by
  cases emits with
  | dropped isDropped => rw [kept] at isDropped; cases isDropped
  | kept _ _ renders emits => exact ⟨_, _, _, rfl, renders, emits⟩

/-- How many instructions an instruction becomes, when it is kept and names no method that
the run forwards. -/
def rowLength (re : Reemission) (instruction : Instruction) : Nat :=
  if instruction.opcode.argumentAccess? = some .load ∧ instruction.argumentIndex? = some 0 ∧
    re.unboxes then 2 else 1

theorem rowLength_eq_one {instruction : Instruction}
    (noArgument : instruction.opcode.argumentAccess? = none) : re.rowLength instruction = 1 := by
  simp [rowLength, noArgument]

theorem isCallSite_of_isDropped {opcode : Opcode} (isDropped : isDropped opcode) :
    isCallSite opcode = false := by
  cases opcode <;> first | rfl | cases isDropped

theorem argumentAccess?_of_isBranch {opcode : Opcode} (isBranch : opcode.flow.isBranch) :
    opcode.argumentAccess? = none := by
  cases opcode <;> first | rfl | cases isBranch

theorem length_of_renders {mark? : Option Token} {instruction : Instruction}
    {row : List Instruction} (renders : re.Renders mark? instruction row)
    (replaced : re.run.forwardsAt re.module instruction = false) :
    row.length = re.rowLength instruction := by
  cases renders with
  | argument isAccess isIndex sameAccess sameIndex unboxed =>
      have length := congrArg List.length unboxed
      rw [List.length_map] at length
      rw [List.length_cons, length, rowLength, isAccess, isIndex]
      simp only [Option.some.injEq]
      split <;> rfl
  | forwarded forwards => rw [replaced] at forwards; cases forwards
  | stub isCall => exact (rowLength_eq_one (argumentAccess?_of_isCallSite isCall)).symm
  | branch isLong =>
      exact (rowLength_eq_one (argumentAccess?_of_isBranch (isBranch_of_longForm isLong))).symm
  | switch isSwitch =>
      exact (rowLength_eq_one (argumentAccess?_of_isBranch (isBranch_of_switch isSwitch))).symm
  | plain noArgument => exact (rowLength_eq_one noArgument).symm

theorem length_of_piece {id : Nat} {layout : ArgumentLayout} {waits : Option Token}
    {instruction : Instruction} {emitted : List Emitted}
    (piece : Piece (re.subject id layout) re.run re.rewritten.scope waits instruction emitted)
    (kept : isDropped instruction.opcode = false)
    (replaced : re.run.forwardsAt re.module instruction = false) :
    emitted.length = re.rowLength instruction := by
  cases piece with
  | @argument access index opcode operand isAccess isIndex accesses =>
      have sameUnboxes : (re.subject id layout).unboxesReceiver = re.unboxes := rfl
      rw [List.length_cons, unboxing, sameUnboxes, rowLength, isAccess, isIndex]
      simp only [Option.some.injEq]
      by_cases boxed : access = .load ∧ index = 0 ∧ re.unboxes = true
      · rw [if_pos boxed, if_pos boxed]
        rfl
      · rw [if_neg boxed, if_neg boxed]
        rfl
  | dropped isDropped => rw [kept] at isDropped; cases isDropped
  | forwarded isCall operand known forwards =>
      have forwardsAt := (IsolationRun.forwardsAt_eq isCall operand known).trans forwards
      exact absurd (forwardsAt.symm.trans replaced) (by simp)
  | stub operand known replaced isKind =>
      have isCall := isCallSite_of_ofOpcode? isKind
      exact (rowLength_eq_one (argumentAccess?_of_isCallSite isCall)).symm
  | branch isLong =>
      exact (rowLength_eq_one (argumentAccess?_of_isBranch (isBranch_of_longForm isLong))).symm
  | switch isSwitch =>
      exact (rowLength_eq_one (argumentAccess?_of_isBranch (isBranch_of_switch isSwitch))).symm
  | plain noArgument => exact (rowLength_eq_one noArgument).symm

theorem length_instructionsFrom (target : String → Nat) (start : Nat) (emitted : List Emitted) :
    (Emitted.instructionsFrom target start emitted).length = emitted.length := by
  induction emitted generalizing start with
  | nil => rfl
  | cons first rest ih => simp [Emitted.instructionsFrom, ih]

/-- What a mark and the call behind it are. -/
def markedForms (mark? : Option Token) (instruction : Instruction) : List (Opcode × Operand) :=
  mark?.toList.map (fun mark => (.constrained, .token mark)) ++ [form instruction]

theorem forms_of_renders {mark? : Option Token} {instruction : Instruction}
    {row : List Instruction} (renders : re.Renders mark? instruction row)
    (forwards : re.run.forwardsAt re.module instruction) :
    row.map form = markedForms mark? instruction := by
  have isCall : isCallSite instruction.opcode := (Bool.and_eq_true_iff.mp forwards).1
  have direct := isBranch_of_isCallSite isCall
  cases renders with
  | forwarded forwards same => exact same
  | argument isAccess => rw [argumentAccess?_of_isCallSite isCall] at isAccess; cases isAccess
  | stub _ replaced => rw [forwards] at replaced; cases replaced
  | branch isLong => rw [isBranch_of_longForm isLong] at direct; cases direct
  | switch isSwitch => rw [isBranch_of_switch isSwitch] at direct; cases direct
  | plain _ noCall => rw [isCall] at noCall; cases noCall

theorem forms_of_piece {id : Nat} {layout : ArgumentLayout} {waits : Option Token}
    {instruction : Instruction} {emitted : List Emitted}
    (piece : Piece (re.subject id layout) re.run re.rewritten.scope waits instruction emitted)
    (forwards : re.run.forwardsAt re.module instruction) (target : String → Nat) (start : Nat) :
    (Emitted.instructionsFrom target start emitted).map form = markedForms waits instruction := by
  have isCall : isCallSite instruction.opcode := (Bool.and_eq_true_iff.mp forwards).1
  have direct := isBranch_of_isCallSite isCall
  cases piece with
  | forwarded _ operand =>
      rw [markedForms, form, operand]
      cases waits <;> rfl
  | argument isAccess => rw [argumentAccess?_of_isCallSite isCall] at isAccess; cases isAccess
  | dropped isDropped => rw [isCallSite_of_isDropped isDropped] at isCall; cases isCall
  | stub operand known replaced =>
      have replacedAt := (IsolationRun.forwardsAt_eq isCall operand known).trans replaced
      exact absurd (replacedAt.symm.trans forwards) (by simp)
  | branch isLong => rw [isBranch_of_longForm isLong] at direct; cases direct
  | switch isSwitch => rw [isBranch_of_switch isSwitch] at direct; cases direct
  | plain _ _ noCall => rw [isCall] at noCall; cases noCall

/-- A row that starts with a call and its mark tells the mark. -/
theorem mark?_of_forms {first? second? : Option Token} {instruction : Instruction}
    {first second : List (Opcode × Operand)} (isCall : isCallSite instruction.opcode)
    (same : markedForms first? instruction ++ first = markedForms second? instruction ++ second) :
    first? = second? := by
  have unmarked {mark : Token} : form instruction ≠ (.constrained, .token mark) := by
    intro isMark
    have opcode : instruction.opcode = .constrained := congrArg Prod.fst isMark
    rw [opcode] at isCall
    cases isCall
  cases first? with
  | none =>
      cases second? with
      | none => rfl
      | some mark => exact absurd (List.cons.inj same).1 unmarked
  | some mark =>
      cases second? with
      | none => exact absurd (List.cons.inj same).1.symm unmarked
      | some other =>
          have := (List.cons.inj same).1
          simp only [Prod.mk.injEq, Operand.token.injEq, true_and] at this
          rw [this]

/-- Code that is the row emitted again has its marks adjoin their calls. -/
theorem marksAdjoin_of_trace (target : String → Nat) {id : Nat} {layout : ArgumentLayout}
    {waits own : Option Token} {pieces : Pieces} {ending : List Emitted} {start : Nat}
    (emits : re.Emits own (pieces.map (·.1))
      (Emitted.instructionsFrom target start (codeOf pieces ++ ending)))
    (trace : Trace (re.subject id layout) re.run re.rewritten.scope waits pieces) :
    re.run.marksAdjoin re.module waits own (pieces.map (·.1)) := by
  -- By induction on the pieces: each takes its row off the front of the emitted code.
  induction trace generalizing own start with
  | nil constraint? => rfl
  | @cons waits instruction emitted rest piece trace ih =>
      rw [List.map_cons] at emits ⊢
      have code : codeOf ((instruction, emitted) :: rest) ++ ending =
          emitted ++ (codeOf rest ++ ending) := by
        simp [codeOf]
      rw [code] at emits
      refine Bool.and_eq_true_iff.mpr ?_
      cases kept : isDropped instruction.opcode with
      | true =>
          obtain rfl := empty_of_piece piece kept
          have replaced : re.run.forwardsAt re.module instruction = false := by
            rw [IsolationRun.forwardsAt, isCallSite_of_isDropped kept, Bool.false_and]
          rw [replaced]
          exact ⟨rfl, ih (emits_of_dropped kept emits)⟩
      | false =>
          obtain ⟨first, more, behind, split, renders, emits⟩ := emits_of_kept kept emits
          rw [Emitted.instructionsFrom_append] at split
          rw [markBehind_of_kept kept]
          -- Rows of equal length cancel, and only a forwarded call has a row whose length is not
          -- known.
          cases forwards : re.run.forwardsAt re.module instruction with
          | false =>
              have length := (length_of_piece piece kept forwards).trans
                (length_of_renders renders forwards).symm
              rw [← length_instructionsFrom target start] at length
              obtain ⟨_, rfl⟩ := List.append_inj split length
              exact ⟨rfl, ih emits⟩
          | true =>
              have isCall : isCallSite instruction.opcode := (Bool.and_eq_true_iff.mp forwards).1
              have forms := congrArg (List.map form) split
              rw [List.map_append, List.map_append, forms_of_renders renders forwards,
                forms_of_piece piece forwards] at forms
              obtain rfl := mark?_of_forms isCall forms
              have length : (Emitted.instructionsFrom target start emitted).length =
                  (first :: more).length := by
                rw [← List.length_map form, ← List.length_map form,
                  forms_of_renders renders forwards, forms_of_piece piece forwards]
              obtain ⟨_, rfl⟩ := List.append_inj split length
              exact ⟨by simp, ih emits⟩

/-! ## Emitted methods -/

section Emitted

variable {module : Module} {id : Nat} {method : MethodDef} {forInterface : Bool}
  {run final : IsolationRun} {code : MethodCode} {rewritten : DynamicMethod}
  {layout : ArgumentLayout} {emitted : EmittedCode} {pieces : Pieces} {ending : List Emitted}

/-- The places of instructions that are not dropped ascend. -/
theorem placeOf_lt
    (emission : Emission (.ofMethod module id method forInterface layout) run code rewritten.scope
      emitted pieces ending)
    (original : code.Decoded) {instruction : Instruction}
    (member : instruction ∈ code.instructions.toList)
    (kept : isDropped instruction.opcode = false) {offset : Nat}
    (behind : instruction.offset < offset) :
    placeOf pieces instruction.offset < placeOf pieces offset := by
  have ordered := ordered_of_stands original.stands
  rw [← emission.instructions] at ordered member
  obtain ⟨⟨_, row⟩, listed, rfl⟩ := List.mem_map.mp member
  obtain ⟨_, piece⟩ := emission.trace.piece_of_mem listed
  obtain ⟨item, more, rfl⟩ := nonempty_of_piece piece kept
  refine positionOf_lt ordered listed ?_ behind 0
  have proper := emission.proper item (List.mem_flatMap.mpr ⟨_, listed, List.mem_cons_self ..⟩)
  have := size_pos_of_proper proper
  simp only [byteSize, List.map_cons, sizeOfItems]
  omega

/-- All of the emitted code stands in place. -/
theorem laid_of_emission
    (emission : Emission (.ofMethod module id method forInterface layout) run code rewritten.scope
      emitted pieces ending)
    (codeSize : rewritten.code.codeSize = emitted.code.length) (place : Nat → Nat) :
    Laid ⟨module, run, method, forInterface, code, rewritten, place⟩
      (layoutOf code pieces ending).target 0 (codeOf pieces ++ ending) := by
  refine ⟨emission.laidOut.leads, ?_⟩
  rw [codeSize, emission.laidOut.size, Nat.zero_add]
  rfl

/-- What stands behind the emitted instructions is at most a return that a branch leads to. -/
theorem emits_of_ending
    (emission : Emission (.ofMethod module id method forInterface layout) run code rewritten.scope
      emitted pieces ending)
    (original : code.Decoded) (target : String → Nat) (mark? : Option Token) :
    Emits ⟨module, run, method, forInterface, code, rewritten, placeOf pieces⟩ mark? []
      (Emitted.instructionsFrom target (0 + byteSize (codeOf pieces)) ending) := by
  cases behind : ending with
  | nil => exact .nil mark?
  | cons final more =>
      obtain ⟨isReturn, branch, isBranch, target, isTarget, leads⟩ :=
        emission.target_of_end original (by simp [behind])
      rw [← behind, isReturn]
      exact .returns mark? rfl isBranch isTarget (leads.trans (Nat.zero_add _).symm)

/-- Where the marks adjoin their calls, the instrumented code is the code emitted again. -/
theorem emits_of_instrument (reachable : run.Reachable)
    (read : MethodCode.ofMethod module method = .ok code)
    (adjoin : run.marksAdjoin module none none code.instructions.toList)
    (ran : IsolationRun.instrument module id method forInterface run = .ok rewritten final)
    (small : rewritten.scope.size < Token.rowBound) :
    ∃ place : Nat → Nat,
      (∀ first ∈ code.instructions.toList, ∀ second ∈ code.instructions.toList,
        isDropped first.opcode = false → first.offset < second.offset →
          place first.offset < place second.offset) ∧
      Emits ⟨module, run, method, forInterface, code, rewritten, place⟩ none
        code.instructions.toList rewritten.code.instructions.toList := by
  obtain ⟨layout, emitted, pieces, ending, emission, _, _, decoded, codeSize, _⟩ :=
    IsolationRun.emission_of_instrument reachable.stubsMade read ran
  have original := MethodCode.decoded_of_ofMethod read
  have ordered := ordered_of_stands original.stands
  have laid := laid_of_emission emission codeSize (placeOf pieces)
  have ends := emits_of_ending emission original (layoutOf code pieces ending).target
  have labels : ∀ instruction ∈ code.instructions.toList, ∀ offset ∈ instruction.targets,
      (layoutOf code pieces ending).target (labelAt offset) = placeOf pieces offset :=
    fun instruction member offset isTarget => emission.target_labelAt original member isTarget
  refine ⟨placeOf pieces, fun first firstMember second _ kept before =>
    placeOf_lt emission original firstMember kept before, ?_⟩
  rw [Except.ok.inj (decoded.symm.trans emission.laidOut.decoded)]
  rw [← emission.instructions] at adjoin ordered labels ⊢
  exact emits_of_trace (layoutOf code pieces ending).target emission.trace small adjoin ordered
    (fun _ _ => rfl) labels laid ends

/-- Where the instrumented code is the code emitted again, the marks adjoin their calls. -/
theorem marksAdjoin_of_instrument {place : Nat → Nat} (reachable : run.Reachable)
    (read : MethodCode.ofMethod module method = .ok code)
    (ran : IsolationRun.instrument module id method forInterface run = .ok rewritten final)
    (emits : Emits ⟨module, run, method, forInterface, code, rewritten, place⟩ none
      code.instructions.toList rewritten.code.instructions.toList) :
    run.marksAdjoin module none none code.instructions.toList := by
  obtain ⟨layout, emitted, pieces, ending, emission, _, _, decoded, _⟩ :=
    IsolationRun.emission_of_instrument reachable.stubsMade read ran
  rw [Except.ok.inj (decoded.symm.trans emission.laidOut.decoded)] at emits
  rw [← emission.instructions] at emits ⊢
  exact marksAdjoin_of_trace _ emits emission.trace

end Emitted

end Reemission

/-- The instrumented code is the code emitted again, one instruction after the other, with
branches led to the places of their targets, exactly if every forwarded call is marked
directly in front of it.  The places of instructions that are not dropped ascend. -/
theorem IsolationRun.instrument_reemits {module : Module} {id : Nat} {method : MethodDef}
    {forInterface : Bool} {run final : IsolationRun} {code : MethodCode}
    {rewritten : DynamicMethod} (reachable : run.Reachable)
    (read : MethodCode.ofMethod module method = .ok code)
    (ran : instrument module id method forInterface run = .ok rewritten final)
    (small : rewritten.scope.size < Token.rowBound) :
    run.marksAdjoin module none none code.instructions.toList ↔
      ∃ place : Nat → Nat,
        (∀ first ∈ code.instructions.toList, ∀ second ∈ code.instructions.toList,
          isDropped first.opcode = false → first.offset < second.offset →
            place first.offset < place second.offset) ∧
        Reemission.Emits ⟨module, run, method, forInterface, code, rewritten, place⟩ none
          code.instructions.toList rewritten.code.instructions.toList := by
  constructor
  · intro adjoin
    exact Reemission.emits_of_instrument reachable read adjoin ran small
  · rintro ⟨place, _, emits⟩
    exact Reemission.marksAdjoin_of_instrument reachable read ran emits

/-! ## Calls by value types -/

namespace Sizes

open Stateful

def sized : Token := .ofRow .typeDef 18
def small : Token := .ofRow .typeDef 19
def large : Token := .ofRow .typeDef 20
def user : Token := .ofRow .typeDef 21

def size : MethodDeclaration :=
  { name := "Size", flags := MethodModifiers.isVirtual, returnType := .int32 }

def valueType (name : String) : TypeDeclaration :=
  TypeDeclaration.asValueType { space := "Demo", name, interfaces := [sized] }

def types : Module :=
  finalState (Module.declareType { space := "Demo", name := "User" } (finalState
    (Module.declareType (valueType "Large") (finalState
      (Module.declareType (valueType "Small") (finalState
        (Module.declareType (TypeDeclaration.asInterface { space := "Demo", name := "ISized" })
          Module.initial)))))))

def withMethod (module : Module) (row : Nat) (owner : Token) (declaration : MethodDeclaration)
    (body : List UInt8) : Module :=
  finalState (Module.setBody (.ofRow .methodDef row) body
    (finalState (Module.declareMethod owner declaration module)))

def sizes : Module :=
  withMethod (withMethod (finalState (Module.declareMethod sized size types))
    27 small size [0x0A, 0x17, 0x2A]) 28 large size [0x0A, 0x18, 0x2A]

def taking (name : String) : MethodDeclaration :=
  { name, flags := MethodModifiers.isStatic, params := [.valueType small], returnType := .int32 }

/-- The body of the first method marks its call for the large type, with an argument access
between mark and call.  The body of the second one branches over an instruction, calls the
method of the small type, and marks its last call for the small type. -/
def module : Module :=
  withMethod (withMethod sizes 29 user (taking "Stray")
      [0x3A, 0xFE, 0x16, 0x14, 0x00, 0x00, 0x02, 0x0F, 0x00, 0x6F, 0x1A, 0x00, 0x00, 0x06, 0x2A])
    30 user (taking "Adjoining")
    [0x66, 0x2B, 0x01, 0x00, 0x0F, 0x00, 0x28, 0x1B, 0x00, 0x00, 0x06, 0x26, 0x0F, 0x00, 0xFE,
      0x16, 0x13, 0x00, 0x00, 0x02, 0x6F, 0x1A, 0x00, 0x00, 0x06, 0x2A]

def method (row : Nat) : MethodDef :=
  ((module.method (.ofRow .methodDef row)).toOption).getD default

def code (row : Nat) : MethodCode :=
  ((MethodCode.ofMethod module (method row)).toOption).getD default

theorem read_code {row : Nat}
    (readable : (MethodCode.ofMethod module (method row)).toOption.isSome) :
    MethodCode.ofMethod module (method row) = .ok (code row) := by
  unfold code
  cases read : MethodCode.ofMethod module (method row) with
  | error error => rw [read] at readable; cases readable
  | ok code => rfl

/-- A run that forwards calls of the interface method. -/
def run : IsolationRun :=
  { shims := [], config := { policy := { forcedTypes := ["Demo.ISized"] } } }

def rewritten? (row : Nat) : Option DynamicMethod :=
  match IsolationRun.instrument module 0 (method row) false run with
  | .ok rewritten _ => some rewritten
  | .error _ _ => none

theorem rewritten?_eq_some {row : Nat} {rewritten : DynamicMethod}
    (found : rewritten? row = some rewritten) :
    ∃ final, IsolationRun.instrument module 0 (method row) false run = .ok rewritten final := by
  unfold rewritten? at found
  cases ran : IsolationRun.instrument module 0 (method row) false run with
  | error error final => rw [ran] at found; cases found
  | ok other final => rw [ran] at found; cases found; exact ⟨final, rfl⟩

/-- Places of the offsets of a method at which its code is emitted again. -/
def Reemits (row : Nat) (rewritten : DynamicMethod) : Prop :=
  ∃ place : Nat → Nat,
    (∀ first ∈ (code row).instructions.toList, ∀ second ∈ (code row).instructions.toList,
      isDropped first.opcode = false → first.offset < second.offset →
        place first.offset < place second.offset) ∧
    Reemission.Emits ⟨module, run, method row, false, code row, rewritten, place⟩ none
      (code row).instructions.toList rewritten.code.instructions.toList

/-- Where marks adjoin their calls, the code is emitted again. -/
theorem adjoining_reemits : ∃ rewritten, rewritten? 30 = some rewritten ∧ Reemits 30 rewritten := by
  have instrumented : (rewritten? 30).isSome := by decide +kernel
  have small : ∀ rewritten ∈ rewritten? 30, rewritten.scope.size < Token.rowBound := by
    decide +kernel
  obtain ⟨rewritten, found⟩ := Option.isSome_iff_exists.mp instrumented
  obtain ⟨final, ran⟩ := rewritten?_eq_some found
  exact ⟨rewritten, found, (IsolationRun.instrument_reemits (.start [] run.config)
    (read_code (by decide +kernel)) ran (small rewritten found)).mp (by decide +kernel)⟩

/-- A mark that does not adjoin its call is emitted behind the access that it stood in front
of. -/
theorem stray_not_reemits : ∃ rewritten, rewritten? 29 = some rewritten ∧
    ¬ Reemits 29 rewritten := by
  have instrumented : (rewritten? 29).isSome := by decide +kernel
  have apart : ¬ run.marksAdjoin module none none (code 29).instructions.toList := by
    decide +kernel
  obtain ⟨rewritten, found⟩ := Option.isSome_iff_exists.mp instrumented
  obtain ⟨final, ran⟩ := rewritten?_eq_some found
  exact ⟨rewritten, found, fun ⟨_, _, emits⟩ => apart
    (Reemission.marksAdjoin_of_instrument (.start [] run.config) (read_code (by decide +kernel))
      ran emits)⟩

end Sizes

end Cil
