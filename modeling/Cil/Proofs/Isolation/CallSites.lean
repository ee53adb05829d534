import Cil.Proofs.Code.Encoding
import Cil.Proofs.Isolation.Reemission

/-!
# Call sites of instrumented code

Instrumented code names a method of the module only where the original code names it too and
the run forwards it.  Every other call is the call of a dynamic token.
-/

namespace Cil

open Instrumentation

theorem Emitted.exists_of_mem_instructionsFrom {target : String → Nat} {start : Nat}
    {emitted : List Emitted} {instruction : Instruction}
    (member : instruction ∈ instructionsFrom target start emitted) :
    ∃ source ∈ emitted, ∃ offset, instruction = source.instruction target offset := by
  obtain ⟨mark, found⟩ := List.getElem?_of_mem member
  rw [getElem?_instructionsFrom, Option.map_eq_some_iff] at found
  obtain ⟨source, standing, rfl⟩ := found
  exact ⟨source, List.mem_of_getElem? standing, _, rfl⟩

theorem Instrumentation.isCallSite_of_longForm {opcode long : Opcode}
    (isLong : opcode.longForm? = some long) : isCallSite long = false := by
  obtain ⟨forms, found, rfl⟩ := Option.map_eq_some_iff.mp isLong
  have plain : ∀ forms ∈ Opcode.branchForms, isCallSite forms.1 = false := by decide
  exact plain forms (List.mem_of_find?_eq_some found)

namespace IsolationRun

/-- A call site of instrumented code: that of a forwarded method stands in the original code,
and any other one calls a dynamic token. -/
inductive EmittedSite (run : IsolationRun) (module : Module) (original : List Instruction)
    (instruction : Instruction) : Prop
  | forwarded (source : Instruction) (member : source ∈ original)
      (same : Reemission.form instruction = Reemission.form source)
      (forwards : run.forwardsAt module source)
  | stub (index : Nat)
      (calls : Reemission.form instruction = (.call, .token (Scope.tokenAt index)))

/-- A call of a token of the module stands in the original code and is forwarded. -/
theorem EmittedSite.exists_forwarded {run : IsolationRun} {module : Module}
    {original : List Instruction} {instruction : Instruction} {token : Token}
    (site : run.EmittedSite module original instruction)
    (named : instruction.token? = some token) (notDynamic : token.isDynamic = false) :
    ∃ source ∈ original, source.opcode = instruction.opcode ∧ source.token? = some token ∧
      run.forwardsAt module source := by
  cases site with
  | stub index calls =>
      have isTokenAt : instruction.token? = some (Scope.tokenAt index) := by
        rw [Instruction.token?, (Prod.mk.inj calls).2]
      obtain rfl := Option.some.inj (named.symm.trans isTokenAt)
      rw [Token.isDynamic, Scope.tokenAt, Token.table_ofRow] at notDynamic
      simp at notDynamic
  | forwarded source listed same forwards =>
      obtain ⟨sameOpcode, sameOperand⟩ := Prod.mk.inj same
      refine ⟨source, listed, sameOpcode.symm, ?_, forwards⟩
      rw [← named, Instruction.token?, Instruction.token?, sameOperand]

variable {module : Module} {id : Nat} {method : MethodDef} {forInterface : Bool}
  {run final : IsolationRun} {code : MethodCode} {rewritten : DynamicMethod}

theorem emittedSite_of_piece {layout : ArgumentLayout} {scope : Scope} {waits : Option Token}
    {source : Instruction} {row : List Emitted} {item : Emitted} {original : List Instruction}
    {target : String → Nat} {offset : Nat}
    (piece : Piece (.ofMethod module id method forInterface layout) run scope waits source row)
    (listed : source ∈ original) (member : item ∈ row)
    (calls : isCallSite (item.instruction target offset).opcode) :
    run.EmittedSite module original (item.instruction target offset) := by
  cases piece with
  | argument isAccess isIndex accesses =>
      rcases List.mem_cons.mp member with rfl | unboxed
      · have noAccess := argumentAccess?_of_isCallSite calls
        exact absurd (noAccess.symm.trans accesses.1) (by simp)
      · unfold unboxing at unboxed
        split at unboxed
        · obtain rfl := List.mem_singleton.mp unboxed
          cases calls
        · cases unboxed
  | dropped isDropped => cases member
  | forwarded isCall operand known forwards constrained =>
      rcases List.mem_append.mp member with mark | call
      · obtain ⟨constraint, _, rfl⟩ := List.mem_map.mp mark
        cases calls
      · obtain rfl := List.mem_singleton.mp call
        refine .forwarded source listed ?_ ((forwardsAt_eq isCall operand known).trans forwards)
        rw [Reemission.form, Reemission.form, operand]
        rfl
  | stub operand known replaced isKind standsFor =>
      obtain rfl := List.mem_singleton.mp member
      obtain ⟨index, _, _, rfl, _⟩ := standsFor
      exact .stub index rfl
  | branch isBranch targets =>
      obtain rfl := List.mem_singleton.mp member
      exact absurd ((isCallSite_of_longForm isBranch).symm.trans calls) (by simp)
  | switch isSwitch =>
      obtain rfl := List.mem_singleton.mp member
      cases calls
  | plain noArgument kept noCall noBranch =>
      obtain rfl := List.mem_singleton.mp member
      exact absurd (noCall.symm.trans calls) (by simp)

theorem emittedSite_of_instrument (reachable : run.Reachable)
    (read : MethodCode.ofMethod module method = .ok code)
    (ran : instrument module id method forInterface run = .ok rewritten final)
    {instruction : Instruction} (member : instruction ∈ rewritten.code.instructions.toList)
    (isCall : isCallSite instruction.opcode) :
    run.EmittedSite module code.instructions.toList instruction := by
  obtain ⟨layout, emitted, pieces, ending, emission, _, _, decoded, _⟩ :=
    emission_of_instrument reachable.stubsMade read ran
  rw [Except.ok.inj (decoded.symm.trans emission.laidOut.decoded)] at member
  obtain ⟨item, listed, offset, rfl⟩ := Emitted.exists_of_mem_instructionsFrom member
  rcases List.mem_append.mp listed with inPieces | atEnd
  · obtain ⟨⟨source, row⟩, isPiece, inRow⟩ := List.mem_flatMap.mp inPieces
    obtain ⟨_, piece⟩ := emission.trace.piece_of_mem isPiece
    have original : source ∈ code.instructions.toList := by
      rw [← emission.instructions]
      exact List.mem_map.mpr ⟨_, isPiece, rfl⟩
    exact emittedSite_of_piece piece original inRow isCall
  · rcases emission.ends with rfl | ⟨rfl, _⟩
    · cases atEnd
    · obtain rfl := List.mem_singleton.mp atEnd
      cases isCall

end IsolationRun

end Cil
