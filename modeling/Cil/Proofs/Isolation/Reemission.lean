import Cil.Proofs.Isolation.Places
import Cil.Proofs.Isolation.Runs
import Cil.Proofs.Metadata.Tables

/-!
# Instrumented code is the code emitted again

The instructions of a method are emitted again one for one: accesses to arguments stay
accesses to the same arguments, calls stay as they are or call a stub with the same effect,
branches lead to the places of their targets, and everything else stays.
-/

namespace Cil

open Instrumentation

namespace IsolationRun

def forwardsAt (run : IsolationRun) (module : Module) (instruction : Instruction) : Bool :=
  isCallSite instruction.opcode &&
    match instruction.token?.map module.method with
    | some (.ok method) => run.forwards module method (isVirtualCall instruction.opcode)
    | _ => false

theorem forwardsAt_eq {run : IsolationRun} {module : Module} {instruction : Instruction}
    {token : Token} {method : MethodDef} (isCall : isCallSite instruction.opcode)
    (operand : instruction.operand = .token token) (known : module.method token = .ok method) :
    run.forwardsAt module instruction =
      run.forwards module method (isVirtualCall instruction.opcode) := by
  simp [forwardsAt, isCall, Instruction.token?, operand, known]

/-- The mark that an instruction leaves for the one right behind it. -/
def markBehind (mark? : Option Token) (instruction : Instruction) : Option Token :=
  if instruction.opcode = .constrained then instruction.token?
  else if isDropped instruction.opcode then mark?
  else none

/-- Whether the mark that waits for a forwarded call always stands right in front of it. -/
def marksAdjoin (run : IsolationRun) (module : Module) :
    (waits own : Option Token) → List Instruction → Bool
  | _, _, [] => true
  | waits, own, instruction :: rest =>
      (!run.forwardsAt module instruction || waits == own) &&
        run.marksAdjoin module (waiting waits instruction) (markBehind own instruction) rest

end IsolationRun

/-- A method that is instrumented by a run, and the places of its offsets. -/
structure Reemission where
  module : Module
  run : IsolationRun
  method : MethodDef
  forInterface : Bool
  code : MethodCode
  rewritten : DynamicMethod
  place : Nat → Nat

namespace Reemission

variable (re : Reemission)

/-- Whether the receiver is unboxed: for interface calls of instance methods of value types. -/
def unboxes : Bool :=
  re.forInterface && !re.method.isStatic && re.module.isValueType re.method.declaringType

/-- What an instruction does, wherever it stands. -/
def form (instruction : Instruction) : Opcode × Operand :=
  (instruction.opcode, instruction.operand)

/-- A row of instructions is what an instruction with a `constrained.` mark of its own
becomes. -/
inductive Renders (mark? : Option Token) (instruction : Instruction) : List Instruction → Prop
  | argument {access : ArgumentAccess} {index : Nat} {first : Instruction}
      {more : List Instruction} (isAccess : instruction.opcode.argumentAccess? = some access)
      (isIndex : instruction.argumentIndex? = some index)
      (sameAccess : first.opcode.argumentAccess? = some access)
      (sameIndex : first.argumentIndex? = some index)
      (unboxed : more.map form =
        if access = .load ∧ index = 0 ∧ re.unboxes then
          [(.unbox, .token re.method.declaringType)] else []) :
      Renders mark? instruction (first :: more)
  | forwarded {row : List Instruction} (forwards : re.run.forwardsAt re.module instruction)
      (same : row.map form =
        mark?.toList.map (fun mark => (.constrained, .token mark)) ++ [form instruction]) :
      Renders mark? instruction row
  | stub {call : Instruction} {token dynamic : Token} {method : MethodDef} {stub : Native}
      (isCall : isCallSite instruction.opcode)
      (replaced : re.run.forwardsAt re.module instruction = false)
      (operand : instruction.operand = .token token)
      (known : re.module.method token = .ok method)
      (calls : form call = (.call, .token dynamic)) (isDynamic : dynamic.isDynamic)
      (inScope : re.rewritten.scope.find? dynamic = some (.native stub))
      (sameEffect : (stub.params.length, stub.returnType != .void) =
        forwardedEffect instruction.opcode method) :
      Renders mark? instruction [call]
  | branch {jump : Instruction} {target : Nat}
      (isLong : instruction.opcode.longForm? = some jump.opcode)
      (targets : instruction.targets = [target]) (leads : jump.targets = [re.place target]) :
      Renders mark? instruction [jump]
  | switch {jump : Instruction} (isSwitch : instruction.opcode.flow = .switch)
      (sameOpcode : jump.opcode = .switch)
      (leads : jump.targets = instruction.targets.map re.place) :
      Renders mark? instruction [jump]
  | plain {same : Instruction} (noArgument : instruction.opcode.argumentAccess? = none)
      (noCall : isCallSite instruction.opcode = false)
      (noBranch : instruction.opcode.flow.isBranch = false)
      (sameForm : form same = form instruction) :
      Renders mark? instruction [same]

/-- The offset where a row of instructions at the end of the instrumented code starts. -/
def startOf (row : List Instruction) : Nat :=
  (row.head?.map (·.offset)).getD re.rewritten.code.codeSize

/-- A row of instructions is another row emitted again, one instruction after the other with
nothing in between.  Behind the last one stands at most a return, where a branch to dropped
marks at the end of the code leads. -/
inductive Emits : (mark? : Option Token) → (original emitted : List Instruction) → Prop
  | nil (mark? : Option Token) : Emits mark? [] []
  | returns (mark? : Option Token) {final branch : Instruction} {target : Nat}
      (isReturn : form final = (.ret, .none)) (isBranch : branch ∈ re.code.instructions.toList)
      (isTarget : target ∈ branch.targets) (leads : re.place target = final.offset) :
      Emits mark? [] [final]
  | dropped {mark? : Option Token} {instruction : Instruction}
      {original emitted : List Instruction} (isDropped : isDropped instruction.opcode)
      (placed : re.place instruction.offset = re.startOf emitted)
      (rest : Emits (IsolationRun.markBehind mark? instruction) original emitted) :
      Emits mark? (instruction :: original) emitted
  | kept {mark? : Option Token} {instruction first : Instruction}
      {original more emitted : List Instruction}
      (kept : Instrumentation.isDropped instruction.opcode = false)
      (placed : re.place instruction.offset = first.offset)
      (renders : re.Renders mark? instruction (first :: more))
      (rest : Emits none original emitted) :
      Emits mark? (instruction :: original) (first :: more ++ emitted)

/-! ## Pieces in place -/

variable {re}

def subject (re : Reemission) (id : Nat) (layout : ArgumentLayout) : Subject :=
  .ofMethod re.module id re.method re.forInterface layout

theorem isCallSite_of_ofOpcode? {opcode : Opcode} {constraint? : Option Token} {kind : StubKind}
    (isKind : StubKind.ofOpcode? opcode constraint? = some kind) : isCallSite opcode := by
  cases opcode <;> first | rfl | cases isKind

theorem find?_tokenAt {scope : Scope} {index : Nat} {stub : Native}
    (small : scope.size < Token.rowBound) (found : scope.entries[index]? = some (.native stub)) :
    (Scope.tokenAt index).isDynamic ∧ scope.find? (Scope.tokenAt index) = some (.native stub) := by
  obtain ⟨inside, _⟩ := Array.getElem?_eq_some_iff.mp found
  have fits : index + 1 < Token.rowBound := by
    unfold Scope.size at small
    omega
  constructor
  · rw [Token.isDynamic, Scope.tokenAt, Token.table_ofRow]
    rfl
  · rw [Scope.find?, Scope.tokenAt, Token.indexIn?_ofRow fits]
    exact found

/-- What a kept instruction becomes, in its place. -/
theorem renders_of_piece {id : Nat} {layout : ArgumentLayout} {waits own : Option Token}
    {instruction : Instruction} {emitted : List Emitted} {target : String → Nat} {start : Nat}
    (piece : Piece (re.subject id layout) re.run re.rewritten.scope waits instruction emitted)
    (kept : isDropped instruction.opcode = false)
    (small : re.rewritten.scope.size < Token.rowBound)
    (adjoins : re.run.forwardsAt re.module instruction → waits = own)
    (labels : ∀ offset ∈ instruction.targets, target (labelAt offset) = re.place offset)
    (leads : Emitted.LeadsFrom target start emitted) :
    re.Renders own instruction (Emitted.instructionsFrom target start emitted) := by
  cases piece with
  | argument isAccess isIndex accesses =>
      refine .argument isAccess isIndex accesses.1 (accesses.2 _) ?_
      unfold unboxing
      split
      · rename_i boxed
        exact (if_pos boxed).symm
      · rename_i direct
        exact (if_neg direct).symm
  | dropped isDropped => rw [kept] at isDropped; cases isDropped
  | forwarded isCall operand known forwards constrained =>
      have forwardsAt := (IsolationRun.forwardsAt_eq isCall operand known).trans forwards
      obtain rfl := adjoins forwardsAt
      refine .forwarded forwardsAt ?_
      rw [form, operand]
      cases waits <;> rfl
  | stub operand known replaced isKind standsFor =>
      obtain ⟨index, stub, other, rfl, found, otherKnown, made⟩ := standsFor
      obtain rfl : _ = other := Except.ok.inj (known.symm.trans otherKnown)
      have isCall := isCallSite_of_ofOpcode? isKind
      obtain ⟨isDynamic, inScope⟩ := find?_tokenAt small found
      refine .stub isCall ((IsolationRun.forwardsAt_eq isCall operand known).trans replaced)
        operand known rfl isDynamic inScope ?_
      rw [made.effect, StubKind.forwardedEffect_eq_effect isKind]
  | branch isBranch targets unmarked =>
      rename_i long offset
      have labelled : target (labelAt offset) = re.place offset :=
        labels offset (by rw [targets]; exact List.mem_singleton.mpr rfl)
      refine .branch isBranch targets ?_
      rw [← labelled]
      exact leads.1 (by simp)
  | switch isSwitch =>
      refine .switch isSwitch rfl ?_
      rw [leads.1 (by simp), Emitted.labels, List.map_map]
      exact List.map_congr_left labels
  | plain noArgument kept noCall noBranch =>
      exact .plain noArgument noCall noBranch rfl

/-! ## Methods in place -/

/-- The rest of the instrumented code, from an offset on. -/
structure Laid (re : Reemission) (target : String → Nat) (start : Nat) (rest : List Emitted) :
    Prop where
  leads : Emitted.LeadsFrom target start rest
  stop : start + byteSize rest = re.rewritten.code.codeSize

theorem Laid.append {target : String → Nat} {start : Nat} {first second : List Emitted}
    (laid : re.Laid target start (first ++ second)) :
    Emitted.LeadsFrom target start first ∧ re.Laid target (start + byteSize first) second := by
  obtain ⟨leads, leadsRest⟩ := Emitted.leadsFrom_append.mp laid.leads
  have stop := laid.stop
  rw [byteSize_append] at stop
  exact ⟨leads, leadsRest, by omega⟩

theorem Laid.startOf {target : String → Nat} {start : Nat} {rest : List Emitted}
    (laid : re.Laid target start rest) :
    re.startOf (Emitted.instructionsFrom target start rest) = start := by
  cases rest with
  | nil => exact laid.stop.symm
  | cons first rest => rfl

/-- The mark in front of an instruction that is kept is used up by it. -/
theorem markBehind_of_kept {own : Option Token} {instruction : Instruction}
    (kept : isDropped instruction.opcode = false) :
    IsolationRun.markBehind own instruction = none := by
  have other : instruction.opcode ≠ .constrained := by
    intro isMark
    rw [isMark] at kept
    cases kept
  rw [IsolationRun.markBehind, if_neg other, kept]
  rfl

theorem nonempty_of_piece {subject : Subject} {isolation : IsolationRun} {scope : Scope}
    {constraint? : Option Token} {instruction : Instruction} {emitted : List Emitted}
    (piece : Piece subject isolation scope constraint? instruction emitted)
    (kept : isDropped instruction.opcode = false) : ∃ first more, emitted = first :: more := by
  cases piece with
  | dropped isDropped => rw [kept] at isDropped; cases isDropped
  | forwarded isCall operand known forwards constrained =>
      cases constraint? with
      | none => exact ⟨_, _, rfl⟩
      | some constraint => exact ⟨_, _, rfl⟩
  | _ => exact ⟨_, _, rfl⟩

theorem empty_of_piece {subject : Subject} {isolation : IsolationRun} {scope : Scope}
    {constraint? : Option Token} {instruction : Instruction} {emitted : List Emitted}
    (piece : Piece subject isolation scope constraint? instruction emitted)
    (isDropped : isDropped instruction.opcode) : emitted = [] := by
  have marks : instruction.opcode = .constrained ∨ instruction.opcode = .tail := by
    simpa [Instrumentation.isDropped] using isDropped
  cases piece with
  | dropped => rfl
  | argument isAccess => rcases marks with mark | mark <;> rw [mark] at isAccess <;> cases isAccess
  | forwarded isCall => rcases marks with mark | mark <;> rw [mark] at isCall <;> cases isCall
  | stub _ _ _ isKind => rcases marks with mark | mark <;> rw [mark] at isKind <;> cases isKind
  | branch isBranch => rcases marks with mark | mark <;> rw [mark] at isBranch <;> cases isBranch
  | switch isSwitch => rcases marks with mark | mark <;> rw [mark] at isSwitch <;> cases isSwitch
  | plain _ kept => rw [isDropped] at kept; cases kept

/-- The pieces of a row of instructions are the row emitted again. -/
theorem emits_of_trace (target : String → Nat) {id : Nat} {layout : ArgumentLayout}
    {waits own : Option Token} {pieces : Pieces} {ending : List Emitted} {start : Nat}
    (trace : Trace (re.subject id layout) re.run re.rewritten.scope waits pieces)
    (small : re.rewritten.scope.size < Token.rowBound)
    (adjoin : re.run.marksAdjoin re.module waits own (pieces.map (·.1)))
    (ordered : Ordered (pieces.map (·.1)))
    (placed : ∀ instruction ∈ pieces.map (·.1),
      re.place instruction.offset = positionOf byteSize start pieces instruction.offset)
    (labels : ∀ instruction ∈ pieces.map (·.1), ∀ offset ∈ instruction.targets,
      target (labelAt offset) = re.place offset)
    (laid : re.Laid target start (codeOf pieces ++ ending))
    (ends : ∀ mark?, re.Emits mark? []
      (Emitted.instructionsFrom target (start + byteSize (codeOf pieces)) ending)) :
    re.Emits own (pieces.map (·.1))
      (Emitted.instructionsFrom target start (codeOf pieces ++ ending)) := by
  -- By induction on the pieces, with the place where the rest of the code starts.
  induction trace generalizing own start with
  | nil constraint? => exact ends own
  | @cons waits instruction emitted rest piece trace ih =>
      rw [List.map_cons] at adjoin ordered placed labels ⊢
      obtain ⟨later, ordered⟩ := List.pairwise_cons.mp ordered
      obtain ⟨adjoins, adjoin⟩ := Bool.and_eq_true_iff.mp adjoin
      have code : codeOf ((instruction, emitted) :: rest) ++ ending =
          emitted ++ (codeOf rest ++ ending) := by
        simp [codeOf]
      have size : start + byteSize emitted + byteSize (codeOf rest) =
          start + byteSize (codeOf ((instruction, emitted) :: rest)) := by
        rw [Nat.add_assoc, ← byteSize_append]
        rfl
      rw [code] at laid ⊢
      obtain ⟨leads, laidRest⟩ := laid.append
      have here : re.place instruction.offset = start := by
        rw [placed instruction (List.mem_cons_self ..)]
        simp [positionOf]
      have placedRest : ∀ other ∈ rest.map (·.1), re.place other.offset =
          positionOf byteSize (start + byteSize emitted) rest other.offset := by
        intro other member
        have behind : ¬ other.offset ≤ instruction.offset := Nat.not_le.mpr (later other member)
        rw [placed other (List.mem_cons_of_mem _ member), positionOf, if_neg behind]
      have emitsRest (mark? : Option Token)
          (adjoin : re.run.marksAdjoin re.module (waiting waits instruction) mark?
            (rest.map (·.1))) :=
        ih adjoin ordered placedRest (fun other member =>
          labels other (List.mem_cons_of_mem _ member)) laidRest (by rw [size]; exact ends)
      cases kept : isDropped instruction.opcode with
      | true =>
          obtain rfl := empty_of_piece piece kept
          refine .dropped kept ?_ (emitsRest _ adjoin)
          rw [here]
          exact laidRest.startOf.symm
      | false =>
          obtain ⟨first, more, rfl⟩ := nonempty_of_piece piece kept
          have renders := renders_of_piece piece kept small
            (fun forwards => by simpa [forwards] using adjoins)
            (labels instruction (List.mem_cons_self ..)) leads
          rw [markBehind_of_kept kept] at adjoin
          rw [Emitted.instructionsFrom_append]
          exact .kept kept here renders (emitsRest _ adjoin)

end Reemission

end Cil
