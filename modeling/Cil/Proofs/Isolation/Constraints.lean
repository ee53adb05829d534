import Cil.Proofs.Isolation.AdjoiningMarks
import Cil.Proofs.Machine.Prefixes

/-!
# Constraints of instrumented calls

Instrumenting a method keeps a `constrained.` mark waiting for its call, and so does executing
the method.  They lose the mark at different instructions: where an argument access or an
indirect call stands behind a mark, the mark still waits for the instrumented call although the
original call is made without it.
-/

namespace Cil

open Stateful
open Exec (Straight)

namespace Instrumentation

/-! ## Marks that wait -/

/-- Instructions that leave a mark waiting. -/
def leavesWaiting (opcode : Opcode) : Bool :=
  opcode.argumentAccess?.isSome || opcode == .tail || opcode == .calli

/-- Instructions in front of which a mark may wait. -/
def toleratesMark (opcode : Opcode) : Bool :=
  leavesWaiting opcode || opcode == .constrained || opcode == .callvirt

theorem waiting_iff (row : List Instruction) (type : Token) :
    row.foldl waiting none = some type ↔ MarkedThrough leavesWaiting type row := by
  have noMark : leavesWaiting .constrained = false := rfl
  exact markedThrough_iff (fun _ _ => rfl) noMark row type

theorem eq_tail_of_leavesWaiting {opcode : Opcode} (leaves : leavesWaiting opcode)
    (isModifier : opcode.isModifier) : opcode = .tail := by
  cases opcode <;> first | rfl | exact absurd leaves (by decide) | cases isModifier

theorem eq_tail_of_toleratesMark {opcode : Opcode} (tolerates : toleratesMark opcode)
    (isModifier : opcode.isModifier) : opcode = .tail := by
  cases opcode <;> first | rfl | exact absurd tolerates (by decide) | cases isModifier

/-- A mark of a type waits although an argument access or an indirect call stands behind it. -/
def StrayMark (type : Token) (row : List Instruction) : Prop :=
  ∃ front mark between, row = front ++ mark :: between ∧ mark.opcode = .constrained ∧
    mark.token? = some type ∧ (∀ other ∈ between, leavesWaiting other.opcode) ∧
    ∃ other ∈ between, other.opcode ≠ .tail

namespace StrayMark

variable {type : Token} {row : List Instruction}

theorem waits (stray : StrayMark type row) : MarkedThrough leavesWaiting type row := by
  obtain ⟨front, mark, between, same, isMark, names, leaves, _⟩ := stray
  exact ⟨front, mark, between, same, isMark, names, leaves⟩

theorem last_cases {last : Instruction} (stray : StrayMark type (row ++ [last])) :
    leavesWaiting last.opcode ∧ (last.opcode = .tail → StrayMark type row) := by
  obtain ⟨front, mark, between, same, isMark, names, leaves, stray, member, notTail⟩ := stray
  rcases List.eq_nil_or_concat between with rfl | ⟨others, final, rfl⟩
  · cases member
  · rw [List.concat_eq_append] at same leaves member
    rw [← List.cons_append, ← List.append_assoc] at same
    obtain ⟨rfl, sameLast⟩ := List.append_inj' same rfl
    obtain rfl := List.singleton_inj.mp sameLast
    refine ⟨leaves last (by simp), fun isTail => ?_⟩
    refine ⟨front, mark, others, rfl, isMark, names,
      fun other inside => leaves other (by simp [inside]), stray, ?_, notTail⟩
    rcases List.mem_append.mp member with inside | isLast
    · exact inside
    · obtain rfl := List.mem_singleton.mp isLast
      exact absurd isTail notTail

/-- Execution has lost a mark that strays. -/
theorem not_markedThrough (stray : StrayMark type row) (other : Token) :
    ¬ MarkedThrough Opcode.isModifier other row := by
  induction row using List.reverseRecOn with
  | nil => exact MarkedThrough.not_nil
  | append_singleton row last ih =>
      obtain ⟨leaves, before⟩ := stray.last_cases
      intro marked
      rcases marked.last_cases with ⟨isMark, _⟩ | ⟨isModifier, marked⟩
      · rw [isMark] at leaves
        cases leaves
      · exact ih (before (eq_tail_of_leavesWaiting leaves isModifier)) marked

end StrayMark

/-- A row of instructions in which marks wait only where they may. -/
def Tolerant (row : List Instruction) : Prop :=
  ∀ front instruction rest, row = front ++ instruction :: rest →
    (front.foldl waiting none).isSome → toleratesMark instruction.opcode

theorem Tolerant.of_append {first second : List Instruction}
    (tolerant : Tolerant (first ++ second)) : Tolerant first := by
  rintro front instruction rest rfl
  exact tolerant front instruction (rest ++ second) (by simp)

/-- A mark that execution keeps waits, too. -/
theorem Tolerant.waits {row : List Instruction} {type : Token} (tolerant : Tolerant row)
    (marked : MarkedThrough Opcode.isModifier type row) :
    MarkedThrough leavesWaiting type row := by
  induction row using List.reverseRecOn with
  | nil => exact absurd marked MarkedThrough.not_nil
  | append_singleton row last ih =>
      rcases marked.last_cases with ⟨isMark, names⟩ | ⟨isModifier, marked⟩
      · exact .of_mark isMark names
      · have waits := ih tolerant.of_append marked
        have tolerates := tolerant row last [] rfl
          (Option.isSome_iff_exists.mpr ⟨type, (waiting_iff row type).mpr waits⟩)
        refine waits.append ?_
        rw [eq_tail_of_toleratesMark tolerates isModifier]
        rfl

/-- The mark that waits is the one that execution keeps exactly if no mark strays. -/
theorem Tolerant.waiting_eq_iff {row : List Instruction} {applied : Option Token}
    (tolerant : Tolerant row)
    (applies : ∀ type, applied = some type ↔ MarkedThrough Opcode.isModifier type row) :
    row.foldl waiting none = applied ↔ ∀ type, ¬ StrayMark type row := by
  constructor
  · rintro rfl type stray
    exact stray.not_markedThrough type ((applies type).mp ((waiting_iff row type).mpr stray.waits))
  · intro noStray
    refine Option.ext fun type => ?_
    rw [waiting_iff, applies]
    constructor
    · rintro ⟨front, mark, between, same, isMark, names, leaves⟩
      refine ⟨front, mark, between, same, isMark, names, fun other member => ?_⟩
      by_contra noModifier
      refine noStray type ⟨front, mark, between, same, isMark, names, leaves, other, member, ?_⟩
      intro isTail
      rw [isTail] at noModifier
      exact noModifier rfl
    · exact tolerant.waits

/-! ## Marks that are refused -/

variable {subject : Subject} {draft : Draft} {instruction : Instruction}

theorem emitCallSite_refuses (isMarked : draft.constraint?.isSome)
    (other : instruction.opcode ≠ .callvirt) :
    ∃ obstacle after, emitCallSite instruction subject draft =
      .error (.unsupportedInstruction instruction.offset obstacle) after := by
  obtain ⟨type, waits⟩ := Option.isSome_iff_exists.mp isMarked
  cases draft
  cases waits
  have notVirtual : (instruction.opcode != .callvirt) = true := bne_iff_ne.mpr other
  unfold emitCallSite tokenOf
  cases instruction.token? with
  | none => exact ⟨_, _, rfl⟩
  | some token =>
      refine ⟨.constraintOnOtherCall instruction.mnemonic, ?_⟩
      simp only [notVirtual]
      exact ⟨_, rfl⟩

theorem emitPlain_refuses (isMarked : draft.constraint?.isSome) :
    ∃ obstacle after, emitPlain instruction subject draft =
      .error (.unsupportedInstruction instruction.offset obstacle) after := by
  obtain ⟨type, waits⟩ := Option.isSome_iff_exists.mp isMarked
  cases draft
  cases waits
  exact ⟨_, _, rfl⟩

/-- An instruction in front of which a mark must not wait is refused. -/
theorem emitInstruction_refuses (isMarked : draft.constraint?.isSome)
    (refused : toleratesMark instruction.opcode = false) :
    ∃ obstacle after, emitInstruction instruction subject draft =
      .error (.unsupportedInstruction instruction.offset obstacle) after := by
  have noArgument : instruction.opcode.argumentAccess? = none := by
    unfold toleratesMark leavesWaiting at refused
    cases isAccess : instruction.opcode.argumentAccess? with
    | none => rfl
    | some access => rw [isAccess] at refused; cases refused
  have plain : ∃ obstacle after, emitPlain instruction subject draft =
      .error (.unsupportedInstruction instruction.offset obstacle) after :=
    emitPlain_refuses isMarked
  have callSite (other : instruction.opcode ≠ .callvirt) :
      ∃ obstacle after, emitCallSite instruction subject draft =
        .error (.unsupportedInstruction instruction.offset obstacle) after :=
    emitCallSite_refuses isMarked other
  unfold emitInstruction
  rw [noArgument]
  cases opcode : instruction.opcode <;> rw [opcode] at refused callSite <;>
    first
      | exact absurd refused (by decide)
      | exact plain
      | exact ⟨_, _, rfl⟩
      | exact callSite (by decide)

theorem Piece.toleratesMark {isolation : IsolationRun} {scope : Scope} {waits : Option Token}
    {emitted : List Emitted} (piece : Piece subject isolation scope waits instruction emitted)
    (isMarked : waits.isSome) : toleratesMark instruction.opcode := by
  have unmarked (none : waits = none) : False := by
    rw [none] at isMarked
    cases isMarked
  cases piece with
  | argument isAccess => simp [Instrumentation.toleratesMark, leavesWaiting, isAccess]
  | dropped isDropped =>
      have marks : instruction.opcode = .constrained ∨ instruction.opcode = .tail := by
        simpa [Instrumentation.isDropped] using isDropped
      rcases marks with mark | mark <;> rw [mark] <;> rfl
  | forwarded _ _ _ _ constrained => rw [constrained isMarked]; rfl
  | stub _ _ _ _ _ constrained => rw [constrained isMarked]; rfl
  | branch _ _ none => exact (unmarked none).elim
  | switch _ none => exact (unmarked none).elim
  | plain _ _ _ _ indirect => rw [indirect isMarked]; rfl

/-- The mark that waits for an instruction is what the instructions in front of it left. -/
theorem Trace.piece_behind {isolation : IsolationRun} {scope : Scope} {waits : Option Token}
    {emitted : List Emitted} {front rest : Pieces}
    (trace : Trace subject isolation scope waits (front ++ (instruction, emitted) :: rest)) :
    Piece subject isolation scope ((front.map (·.1)).foldl waiting waits) instruction emitted := by
  induction front generalizing waits with
  | nil =>
      cases trace with
      | cons piece _ => exact piece
  | cons first front ih =>
      cases trace with
      | cons _ trace => exact ih trace

/-! ## Rows of code -/

/-- The instructions of each piece, in their places. -/
def rowsFrom (target : String → Nat) : (start : Nat) → Pieces → List (List Instruction)
  | _, [] => []
  | start, (_, emitted) :: rest =>
      Emitted.instructionsFrom target start emitted ::
        rowsFrom target (start + byteSize emitted) rest

theorem length_rowsFrom (target : String → Nat) (start : Nat) (pieces : Pieces) :
    (rowsFrom target start pieces).length = pieces.length := by
  induction pieces generalizing start with
  | nil => rfl
  | cons piece pieces ih => rw [rowsFrom, List.length_cons, ih, List.length_cons]

theorem flatten_rowsFrom (target : String → Nat) (start : Nat) (pieces : Pieces) :
    (rowsFrom target start pieces).flatten =
      Emitted.instructionsFrom target start (codeOf pieces) := by
  induction pieces generalizing start with
  | nil => rfl
  | cons piece pieces ih =>
      obtain ⟨instruction, emitted⟩ := piece
      have code : codeOf ((instruction, emitted) :: pieces) = emitted ++ codeOf pieces := rfl
      rw [rowsFrom, List.flatten_cons, ih, code, Emitted.instructionsFrom_append]
      rfl

section Split

variable {emitted : List Emitted} {front rest : Pieces}

theorem byteSize_codeOf_cons (first : Instruction × List Emitted) :
    byteSize (codeOf (first :: front)) = byteSize first.2 + byteSize (codeOf front) :=
  byteSize_append first.2 (codeOf front)

theorem codeOf_split : codeOf (front ++ (instruction, emitted) :: rest) =
    codeOf front ++ (emitted ++ codeOf rest) := by
  simp [codeOf]

theorem getElem?_rowsFrom (target : String → Nat) (start : Nat) :
    (rowsFrom target start (front ++ (instruction, emitted) :: rest))[front.length]? =
      some (Emitted.instructionsFrom target (start + byteSize (codeOf front)) emitted) := by
  induction front generalizing start with
  | nil => rfl
  | cons first front ih =>
      rw [byteSize_codeOf_cons, ← Nat.add_assoc]
      exact ih (start + byteSize first.2)

theorem positionOf_split (start : Nat)
    (ordered : Ordered ((front ++ (instruction, emitted) :: rest).map (·.1))) :
    positionOf byteSize start (front ++ (instruction, emitted) :: rest) instruction.offset =
      start + byteSize (codeOf front) := by
  induction front generalizing start with
  | nil => exact if_pos (Nat.le_refl _)
  | cons first front ih =>
      obtain ⟨later, ordered⟩ := List.pairwise_cons.mp ordered
      have behind : ¬ instruction.offset ≤ first.1.offset :=
        Nat.not_le.mpr (later instruction (by simp))
      rw [byteSize_codeOf_cons, ← Nat.add_assoc, List.cons_append, positionOf, if_neg behind]
      exact ih (start + byteSize first.2) ordered

end Split

end Instrumentation

namespace Reemission

open Instrumentation

/-! ## What carries a constraint -/

/-- A row of instructions makes a virtual call on behalf of a type, if there is one: with a mark
directly in front of the call, or by a stub that was made for the type. -/
inductive Carries (re : Reemission) (type? : Option Token) (call : Instruction) :
    List Instruction → Prop
  | forwarded {row : List Instruction} (forwards : re.run.forwardsAt re.module call)
      (same : row.map form = markedForms type? call) : Carries re type? call row
  | stub {stubCall : Instruction} {token dynamic : Token} {method : MethodDef} {native : Native}
      {site : Stub} (replaced : re.run.forwardsAt re.module call = false)
      (operand : call.operand = .token token) (known : re.module.method token = .ok method)
      (calls : form stubCall = (.call, .token dynamic)) (isDynamic : dynamic.isDynamic)
      (inScope : re.rewritten.scope.find? dynamic = some (.native native))
      (body : native.body = .stub site)
      (isKind : StubKind.ofOpcode? call.opcode type? = some site.kind)
      (target : site.target.identity = method.identity) : Carries re type? call [stubCall]

/-- What an instruction becomes, in its place: marks go, virtual calls are made on behalf of a
type, and everything else becomes what it becomes without a mark. -/
inductive Row (re : Reemission) (type? : Option Token) (instruction : Instruction) :
    List Instruction → Prop
  | dropped (isDropped : isDropped instruction.opcode) : Row re type? instruction []
  | virtual {first : Instruction} {more : List Instruction}
      (isVirtual : instruction.opcode = .callvirt)
      (placed : re.place instruction.offset = first.offset)
      (carries : re.Carries type? instruction (first :: more)) :
      Row re type? instruction (first :: more)
  | unmarked {first : Instruction} {more : List Instruction}
      (kept : Instrumentation.isDropped instruction.opcode = false)
      (other : instruction.opcode ≠ .callvirt)
      (placed : re.place instruction.offset = first.offset)
      (renders : re.Renders none instruction (first :: more)) :
      Row re type? instruction (first :: more)

variable {re : Reemission}

/-- A virtual call is made on behalf of one type at most. -/
theorem Carries.unique {first? second? : Option Token} {call : Instruction}
    {row : List Instruction} (isVirtual : call.opcode = .callvirt)
    (first : re.Carries first? call row) (second : re.Carries second? call row) :
    first? = second? := by
  cases first with
  | forwarded forwards same =>
      cases second with
      | forwarded _ other =>
          have isCall : isCallSite call.opcode := by rw [isVirtual]; rfl
          exact mark?_of_forms isCall (congrArg (· ++ []) (same.symm.trans other))
      | stub replaced => rw [forwards] at replaced; cases replaced
  | stub replaced _ _ calls _ inScope body isKind =>
      cases second with
      | forwarded forwards => rw [forwards] at replaced; cases replaced
      | stub _ _ _ otherCalls _ otherScope otherBody otherKind =>
          obtain ⟨_, sameToken⟩ := Prod.mk.inj (calls.symm.trans otherCalls)
          cases sameToken
          cases inScope.symm.trans otherScope
          cases body.symm.trans otherBody
          have same := isKind.trans otherKind.symm
          rw [isVirtual] at same
          cases first? <;> cases second? <;> cases same <;> rfl

theorem Row.carries {type? : Option Token} {call : Instruction} {row : List Instruction}
    (isRow : re.Row type? call row) (isVirtual : call.opcode = .callvirt) :
    re.Carries type? call row := by
  cases isRow with
  | dropped isDropped => rw [isVirtual] at isDropped; cases isDropped
  | virtual _ _ carries => exact carries
  | unmarked _ other => exact absurd isVirtual other

theorem carries_of_piece {id : Nat} {layout : ArgumentLayout} {waits : Option Token}
    {call : Instruction} {emitted : List Emitted} (target : String → Nat) (start : Nat)
    (piece : Piece (re.subject id layout) re.run re.rewritten.scope waits call emitted)
    (small : re.rewritten.scope.size < Token.rowBound) (isVirtual : call.opcode = .callvirt) :
    re.Carries waits call (Emitted.instructionsFrom target start emitted) := by
  have isCall : isCallSite call.opcode := by rw [isVirtual]; rfl
  cases forwards : re.run.forwardsAt re.module call with
  | true => exact .forwarded forwards (forms_of_piece piece forwards target start)
  | false =>
      cases piece with
      | stub operand known replaced isKind standsFor =>
          obtain ⟨index, native, other, rfl, found, otherKnown, made⟩ := standsFor
          obtain rfl : _ = other := Except.ok.inj (known.symm.trans otherKnown)
          obtain ⟨site, body, rfl, sameTarget⟩ := made.body
          obtain ⟨isDynamic, inScope⟩ := find?_tokenAt small found
          exact .stub forwards operand known rfl isDynamic inScope body isKind sameTarget
      | forwarded _ operand known forwarded =>
          have forwardsAt := (IsolationRun.forwardsAt_eq isCall operand known).trans forwarded
          exact absurd (forwardsAt.symm.trans forwards) (by simp)
      | argument isAccess => rw [isVirtual] at isAccess; cases isAccess
      | dropped isDropped => rw [isVirtual] at isDropped; cases isDropped
      | branch isBranch => rw [isVirtual] at isBranch; cases isBranch
      | switch isSwitch => rw [isVirtual] at isSwitch; cases isSwitch
      | plain _ _ noCall => rw [isCall] at noCall; cases noCall

/-- A piece that is laid out is the row that its instruction becomes. -/
theorem row_of_piece {id : Nat} {layout : ArgumentLayout} {waits : Option Token}
    {instruction : Instruction} {emitted : List Emitted} {target : String → Nat} {start : Nat}
    (piece : Piece (re.subject id layout) re.run re.rewritten.scope waits instruction emitted)
    (small : re.rewritten.scope.size < Token.rowBound)
    (placed : re.place instruction.offset = start)
    (labels : ∀ offset ∈ instruction.targets, target (labelAt offset) = re.place offset)
    (leads : Emitted.LeadsFrom target start emitted) :
    re.Row waits instruction (Emitted.instructionsFrom target start emitted) := by
  cases kept : isDropped instruction.opcode with
  | true =>
      obtain rfl := empty_of_piece piece kept
      exact .dropped kept
  | false =>
      by_cases isVirtual : instruction.opcode = .callvirt
      · have carries := carries_of_piece target start piece small isVirtual
        obtain ⟨first, more, rfl⟩ := nonempty_of_piece piece kept
        exact .virtual isVirtual placed carries
      · -- Marks wait for no call of another kind.
        have unmarked (forwards : re.run.forwardsAt re.module instruction) : waits = none := by
          cases waits with
          | none => rfl
          | some type =>
              have isCall := (Bool.and_eq_true_iff.mp forwards).1
              have tolerates := piece.toleratesMark rfl
              rcases opcode_of_isCallSite isCall with opcode | opcode | opcode | opcode | opcode
              · rw [opcode] at tolerates; cases tolerates
              · exact absurd opcode isVirtual
              all_goals rw [opcode] at tolerates; cases tolerates
        have renders := renders_of_piece piece kept small unmarked labels leads
        obtain ⟨first, more, rfl⟩ := nonempty_of_piece piece kept
        exact .unmarked kept isVirtual placed renders

section Emitted

variable {module : Module} {id : Nat} {method : MethodDef} {forInterface : Bool}
  {run final : IsolationRun} {code : MethodCode} {rewritten : DynamicMethod}

/-- The instrumented code is a row for each instruction, made for the mark that waits there. -/
theorem rows_of_instrument (reachable : run.Reachable)
    (read : MethodCode.ofMethod module method = .ok code)
    (ran : IsolationRun.instrument module id method forInterface run = .ok rewritten final)
    (small : rewritten.scope.size < Token.rowBound) :
    ∃ (place : Nat → Nat) (rows : List (List Instruction)) (ending : List Instruction),
      rewritten.code.instructions.toList = rows.flatten ++ ending ∧
      rows.length = code.instructions.size ∧
      (ending = [] ∨ ending.map form = [(.ret, .none)]) ∧
      ∀ before instruction behind,
        code.instructions.toList = before ++ instruction :: behind →
        ∃ row, rows[before.length]? = some row ∧
          Row ⟨module, run, method, forInterface, code, rewritten, place⟩
            (before.foldl waiting none) instruction row ∧
          ((before.foldl waiting none).isSome → toleratesMark instruction.opcode) := by
  obtain ⟨layout, emitted, pieces, ending, emission, _, _, decoded, codeSize, _⟩ :=
    IsolationRun.emission_of_instrument reachable.stubsMade read ran
  have original := MethodCode.decoded_of_ofMethod read
  have laid := laid_of_emission emission codeSize (placeOf pieces)
  generalize targetEq : (layoutOf code pieces ending).target = target at laid
  refine ⟨placeOf pieces, rowsFrom target 0 pieces,
    Emitted.instructionsFrom target (byteSize (codeOf pieces)) ending, ?_, ?_, ?_, ?_⟩
  · rw [Except.ok.inj (decoded.symm.trans emission.laidOut.decoded), flatten_rowsFrom, targetEq,
      Emitted.instructionsFrom_append, Nat.zero_add]
    rfl
  · rw [length_rowsFrom, ← Array.length_toList, ← emission.instructions, List.length_map]
  · rcases emission.ends with rfl | ⟨rfl, _⟩
    · exact .inl rfl
    · exact .inr rfl
  · intro before instruction behind split
    have ordered := ordered_of_stands original.stands
    have listed : instruction ∈ code.instructions.toList := by rw [split]; simp
    have labels (offset : Nat) (isTarget : offset ∈ instruction.targets) :
        target (labelAt offset) = placeOf pieces offset := by
      rw [← targetEq]
      exact emission.target_labelAt original listed isTarget
    -- The instruction's piece stands behind those of the instructions in front of it.
    rw [← emission.instructions] at split ordered
    obtain ⟨front, _, rfl, rfl, splitRest⟩ := List.map_eq_append_iff.mp split
    obtain ⟨⟨_, row⟩, rest, rfl, rfl, rfl⟩ := List.map_eq_cons_iff.mp splitRest
    have piece := emission.trace.piece_behind
    have leads := laid.leads
    rw [codeOf_split, List.append_assoc, List.append_assoc] at leads
    obtain ⟨_, leads⟩ := Emitted.leadsFrom_append.mp leads
    have leads := (Emitted.leadsFrom_append.mp leads).1
    refine ⟨_, ?_, row_of_piece piece small (positionOf_split 0 ordered) labels leads,
      piece.toleratesMark⟩
    rw [List.length_map]
    exact getElem?_rowsFrom target 0

end Emitted

end Reemission

open Instrumentation

/-- Every virtual call that straight-line execution comes to is made on behalf of the type of
the mark that is kept in front of it.  What it becomes is made on behalf of the same type
exactly if no mark strays to it over an argument access or an indirect call.  Marks that are kept
in front of anything else than a virtual call or such an instruction are refused, and no
instruction but a virtual call depends on them. -/
theorem IsolationRun.carried_eq_applied_iff {module : Module} {id : Nat} {method : MethodDef}
    {forInterface : Bool} {run final : IsolationRun} {code : MethodCode}
    {rewritten : DynamicMethod} (reachable : run.Reachable)
    (read : MethodCode.ofMethod module method = .ok code)
    (ran : instrument module id method forInterface run = .ok rewritten final)
    (small : rewritten.scope.size < Token.rowBound) :
    (∃ (place : Nat → Nat) (rows : List (List Instruction)) (ending : List Instruction),
      rewritten.code.instructions.toList = rows.flatten ++ ending ∧
      rows.length = code.instructions.size ∧
      (ending = [] ∨ ending.map Reemission.form = [(.ret, .none)]) ∧
      ∀ before instruction behind,
        code.instructions.toList = before ++ instruction :: behind →
        ∃ row carried, rows[before.length]? = some row ∧
          Reemission.Row ⟨module, run, method, forInterface, code, rewritten, place⟩ carried
            instruction row ∧
          (instruction.opcode = .callvirt →
            (∀ other,
              Reemission.Carries ⟨module, run, method, forInterface, code, rewritten, place⟩ other
                instruction row → other = carried) ∧
            ∀ runner scope frame context applied stack machine,
              Straight runner code scope frame context before.length applied stack machine →
              (∀ type, applied = some type ↔ MarkedThrough Opcode.isModifier type before) ∧
              (carried = applied ↔ ∀ type, ¬ StrayMark type before)) ∧
          ∀ type, MarkedThrough Opcode.isModifier type before →
            toleratesMark instruction.opcode) ∧
    ∀ (subject : Subject) (draft : Draft) (instruction : Instruction),
      draft.constraint?.isSome → toleratesMark instruction.opcode = false →
      ∃ obstacle after, emitInstruction instruction subject draft =
        .error (.unsupportedInstruction instruction.offset obstacle) after := by
  obtain ⟨place, rows, ending, same, length, ends, becomes⟩ :=
    Reemission.rows_of_instrument reachable read ran small
  refine ⟨⟨place, rows, ending, same, length, ends, fun before instruction behind split => ?_⟩,
    fun _ _ _ isMarked refused => emitInstruction_refuses isMarked refused⟩
  obtain ⟨row, found, isRow, tolerates⟩ := becomes before instruction behind split
  have tolerant : Tolerant before := by
    rintro front other rest rfl
    obtain ⟨_, _, _, tolerates⟩ := becomes front other (rest ++ instruction :: behind)
      (by rw [split]; simp)
    exact tolerates
  refine ⟨row, before.foldl waiting none, found, isRow, ?_, fun type marked => ?_⟩
  · intro isVirtual
    refine ⟨fun other carries => carries.unique isVirtual (isRow.carries isVirtual), ?_⟩
    intro runner scope frame context applied stack machine straight
    have applies := straight.constraint_iff
    rw [split, List.take_left] at applies
    exact ⟨applies, tolerant.waiting_eq_iff applies⟩
  · have waits := (waiting_iff before type).mpr (tolerant.waits marked)
    exact tolerates (Option.isSome_iff_exists.mpr ⟨type, waits⟩)

namespace Sizes

def sizeCall (offset : Nat) : Instruction :=
  { offset, size := 5, opcode := .callvirt, operand := .token (.ofRow .methodDef 26)
    targets := [] }

def markAt (offset : Nat) (type : Token) : Instruction :=
  { offset, size := 6, opcode := .constrained, operand := .token type, targets := [] }

def addressAt (offset : Nat) : Instruction :=
  { offset, size := 2, opcode := .ldargaS, operand := .immediate (.uint8 0)
    targets := [] }

def context : Context := ⟨module, .unlimited⟩

/-- The call that is marked is made on behalf of the type of its mark. -/
theorem adjoining_carries : ∃ rewritten, rewritten? 30 = some rewritten ∧
    (code 30).instructions[7]? = some (sizeCall 19) ∧
    (∃ place row, List.IsInfix row rewritten.code.instructions.toList ∧
      Reemission.Carries ⟨module, run, method 30, false, code 30, rewritten, place⟩ (some small)
        (sizeCall 19) row) ∧
    (∀ runner, ∃ stack machine,
      Straight runner (code 30) {} 0 context 7 (some small) stack machine) ∧
    ∀ runner scope frame context applied stack machine,
      Straight runner (code 30) scope frame context 7 applied stack machine →
        applied = some small := by
  have instrumented : (rewritten? 30).isSome := by decide +kernel
  have fits : ∀ rewritten ∈ rewritten? 30, rewritten.scope.size < Token.rowBound := by
    decide +kernel
  obtain ⟨rewritten, found⟩ := Option.isSome_iff_exists.mp instrumented
  obtain ⟨final, ran⟩ := rewritten?_eq_some found
  obtain ⟨⟨place, rows, ending, same, _, _, becomes⟩, _⟩ :=
    IsolationRun.carried_eq_applied_iff (.start [] run.config) (read_code (by decide +kernel)) ran
      (fits rewritten found)
  obtain ⟨row, carried, isListed, isRow, applies, _⟩ :=
    becomes ((code 30).instructions.toList.take 7) (sizeCall 19)
      ((code 30).instructions.toList.drop 8) (by decide +kernel)
  have length : ((code 30).instructions.toList.take 7).length = 7 := by decide +kernel
  have applies := (applies rfl).2
  rw [length] at isListed applies
  have mark : (code 30).instructions[6]? = some (markAt 13 small) := by decide +kernel
  have arrival (runner : Runner) : ∃ stack machine,
      Straight runner (code 30) {} 0 context 7 (some small) stack machine :=
    ⟨_, _, .next (.enter_of_fold [] default (by decide +kernel)) mark rfl⟩
  obtain ⟨stack, machine, straight⟩ := arrival default
  obtain ⟨kept, carriedIff⟩ := applies _ _ _ _ _ _ _ straight
  have marked := (kept small).mp rfl
  have carriedEq := carriedIff.mpr fun _ stray => stray.not_markedThrough _ marked
  rw [carriedEq] at isRow
  refine ⟨rewritten, found, by decide +kernel, ⟨place, row, ?_, isRow.carries rfl⟩, arrival, ?_⟩
  · rw [same]
    exact (List.infix_of_mem_flatten (List.mem_of_getElem? isListed)).trans
      (List.prefix_append ..).isInfix
  · intro runner scope frame context applied stack machine straight
    exact ((applies _ _ _ _ _ _ _ straight).1 small).mpr marked

/-- A run that forwards nothing of the module. -/
def isolating : IsolationRun := { shims := [], config := {} }

def isolated? (row : Nat) : Option DynamicMethod :=
  match IsolationRun.instrument module 0 (method row) false isolating with
  | .ok rewritten _ => some rewritten
  | .error _ _ => none

def stubKinds (scope : Scope) : List StubKind :=
  scope.entries.toList.filterMap fun entry =>
    match entry with
    | .native { body := .stub site, .. } => some site.kind
    | _ => none

/-- A call behind an argument access is made on behalf of no type, and its stub on behalf of the
type of the mark in front of the access. -/
theorem stray_carries : ∃ rewritten, isolated? 29 = some rewritten ∧
    (code 29).instructions.toList.map Reemission.form =
      [(.constrained, .token large), Reemission.form (addressAt 6),
        Reemission.form (sizeCall 8), (.ret, .none)] ∧
    rewritten.code.instructions.toList.map Reemission.form =
      [Reemission.form (addressAt 0), (.call, .token (Scope.tokenAt 0)), (.ret, .none)] ∧
    stubKinds rewritten.scope = [.constrained large] ∧
    ∀ runner, ∃ stack machine,
      Straight runner (code 29) {} 0 context 2 none stack machine := by
  have instrumented : (isolated? 29).isSome := by decide +kernel
  have becomes : ∀ rewritten ∈ isolated? 29,
      rewritten.code.instructions.toList.map Reemission.form =
        [Reemission.form (addressAt 0), (.call, .token (Scope.tokenAt 0)), (.ret, .none)] ∧
      stubKinds rewritten.scope = [.constrained large] := by
    decide +kernel
  obtain ⟨rewritten, found⟩ := Option.isSome_iff_exists.mp instrumented
  obtain ⟨forms, kinds⟩ := becomes rewritten found
  refine ⟨rewritten, found, by decide +kernel, forms, kinds, fun runner => ?_⟩
  have first : (code 29).instructions[0]? = some (markAt 0 large) := by decide +kernel
  have second : (code 29).instructions[1]? = some (addressAt 6) := by decide +kernel
  exact ⟨_, _, .next (.next (.enter_of_fold [] default (by decide +kernel)) first rfl) second rfl⟩

end Sizes

end Cil
