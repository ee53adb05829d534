import Cil.Proofs.Machine.Agreement
import Cil.Proofs.Machine.StepFailures
import Cil.Proofs.Machine.UnwindingOrder

/-!
# Where control is transferred to

Branches send control to targets of instructions, and decoded code has an instruction at each
of them.  Control enters code at its start, at filters and at handlers, and these stand at
instructions or at the end of the code.  So the only place without an instruction that control
can come to is the end of the code, and it comes there if code is entered there: if the code,
a filter or a handler at its end has no instructions.
-/

namespace Cil

open Stateful

/-- Where control enters the filter or the handler of a clause. -/
def Clause.entries (clause : Clause) : List Nat :=
  clause.handlerOffset :: if clause.kind = .filterClause then [clause.filterOffset] else []

theorem Clause.entries_subset_boundaries (clause : Clause) :
    clause.entries ⊆ clause.boundaries := by
  intro offset member
  rcases List.mem_cons.mp member with rfl | member
  · simp [boundaries]
  · exact List.mem_append_right _ member

namespace Instruction

/-- Code that is not empty starts with an instruction. -/
theorem exists_start_of_decodeAll {bytes : List UInt8} {instructions : List Instruction}
    (decoded : decodeAll bytes = .ok instructions) (filled : bytes ≠ []) :
    ∃ first ∈ instructions, first.offset = 0 := by
  obtain ⟨byte, rest, rfl⟩ := List.exists_cons_of_ne_nil filled
  unfold decodeAll readStream at decoded
  dsimp only [List.length_cons] at decoded
  unfold readMany at decoded
  rw [if_pos (show (Cursor.ofBytes (byte :: rest)).hasMore from rfl)] at decoded
  cases ran : read (Cursor.ofBytes (byte :: rest)) with
  | error failure cursor => rw [ran] at decoded; cases decoded
  | ok instruction cursor =>
      rw [ran] at decoded
      dsimp only at decoded
      split at decoded
      · cases decoded
      · cases decoded
        exact ⟨instruction, List.mem_cons_self, (wellRead_of_read ran).2.1⟩

end Instruction

namespace MethodCode

/-- Where control enters code, other than by a branch. -/
def entries (code : MethodCode) : List Nat :=
  0 :: code.clauses.flatMap Clause.entries

variable {bytes : List UInt8} {locals : List LocalVariable} {clauses : List Clause}
  {maxStack : Nat} {initLocals : Bool} {code : MethodCode}

/-- An entry stands at an instruction unless it stands at the end of the code. -/
theorem isSome_position?_of_entry
    (read : ofBytes bytes locals clauses maxStack initLocals = .ok code) {entry : Nat}
    (member : entry ∈ code.entries) :
    (code.position? entry).isSome ↔ entry ≠ code.codeSize := by
  obtain ⟨decoded, instructions, size, _⟩ := decoded_of_ofBytes read
  constructor
  · rintro found rfl
    obtain ⟨reached, listed, offset⟩ := exists_of_position? found
    exact absurd offset (Nat.ne_of_lt (decoded.offset_lt listed))
  · intro inside
    rcases List.mem_cons.mp member with rfl | member
    · have filled : bytes ≠ [] := fun empty => inside (by rw [size, empty]; rfl)
      exact isSome_position? (Instruction.exists_start_of_decodeAll instructions filled)
    · obtain ⟨clause, listed, member⟩ := List.mem_flatMap.mp member
      have boundary := decoded.boundaries clause listed entry
        (clause.entries_subset_boundaries member)
      exact isSome_position? (boundary.resolve_left inside)

theorem mem_entries_of_clause {clause : Clause} (listed : clause ∈ code.clauses) {offset : Nat}
    (member : offset ∈ clause.entries) : offset ∈ code.entries :=
  List.mem_cons_of_mem _ (List.mem_flatMap.mpr ⟨clause, listed, member⟩)

/-- An error that blames a missing instruction only for an entry at the end of the code. -/
def Blames (code : MethodCode) (error : Error) : Prop :=
  ∀ offset, error = .malformed (.noInstructionAt offset) →
    offset = code.codeSize ∧ offset ∈ code.entries

theorem allowsOthers_blames (code : MethodCode) : AllowsOthers code.Blames := by
  rintro error isOther offset rfl
  cases isOther

end MethodCode

namespace Exec

open MethodCode

variable {code : MethodCode} {context : Context} {start final : Machine}

/-! ## Unwinding -/

section Unwinding

variable {failure : Error → Prop} {runBlock : BlockRunner}

/-- Blocks that begin where control enters the code fail only in certain ways. -/
def BlocksFail (failure : Error → Prop) (code : MethodCode) (runBlock : BlockRunner) : Prop :=
  ∀ block stack, block.start ∈ code.entries → Fails failure (runBlock block stack)

theorem fst_mem_of_guarding {clauses : List Clause} {block? : Option Block} {position : Nat}
    {candidate : Clause × Nat} (member : candidate ∈ Clause.guarding clauses block? position) :
    candidate.1 ∈ clauses :=
  List.fst_mem_of_mem_zipIdx (List.mem_filter.mp member).1

/-- An exception is handed to the handler of a clause. -/
theorem mem_entries_of_dispatch {frame rounds : Nat} {block? : Option Block}
    {raised handled : Raised}
    (ran : dispatch runBlock code.clauses frame block? rounds raised context start =
      .ok handled final) : handled.offset ∈ code.entries := by
  induction rounds generalizing raised start with
  | zero => cases ran
  | succ rounds ih =>
      obtain ⟨type, _, _, ran⟩ := bind_ok_iff.mp ran
      obtain ⟨selected?, _, selected, ran⟩ := bind_ok_iff.mp ran
      obtain ⟨replacement?, _, _, ran⟩ := bind_ok_iff.mp ran
      cases replacement? with
      | some replacement => exact ih ran
      | none =>
          cases selected? with
          | none => cases ran
          | some clause =>
              obtain ⟨_, _, _, ran⟩ := bind_ok_iff.mp ran
              cases ran
              exact mem_entries_of_clause (fst_mem_of_guarding (mem_of_select? selected))
                List.mem_cons_self

variable (others : AllowsOthers failure) (blocks : BlocksFail failure code runBlock)

include others blocks

theorem fails_accepts {clause : Clause} (listed : clause ∈ code.clauses) (type : Token)
    (exception : HeapRef) : Fails failure (accepts runBlock clause type exception) := by
  unfold accepts
  cases kind : clause.kind with
  | catchClause => exact .bind .module fun _ => .pure _
  | filterClause =>
      have entry : clause.filterOffset ∈ clause.entries := by simp [Clause.entries, kind]
      refine .bind (.catchThrown (blocks clause.filterBlock _
        (mem_entries_of_clause listed entry))) fun outcome => ?_
      cases outcome with
      | error exception => exact .pure _
      | ok exit =>
          cases exit with
          | endFilter accepted => exact .pure _
          | _ => exact fails_other others rfl
  | finallyClause | faultClause => exact .pure _

theorem fails_select? {candidates : List (Clause × Nat)}
    (listed : ∀ candidate ∈ candidates, candidate.1 ∈ code.clauses) (type : Token)
    (exception : HeapRef) : Fails failure (select? runBlock type exception candidates) := by
  induction candidates with
  | nil => exact .pure _
  | cons candidate rest ih =>
      obtain ⟨first, rest⟩ := List.forall_mem_cons.mp listed
      refine .bind (fails_accepts others blocks first _ _) fun accepted => ?_
      split
      · exact .pure _
      · exact ih rest

theorem fails_runHandlers {handlers : List Clause}
    (listed : ∀ clause ∈ handlers, clause ∈ code.clauses) :
    Fails failure (runHandlers runBlock handlers) := by
  induction handlers with
  | nil => exact .pure _
  | cons clause rest ih =>
      obtain ⟨first, rest⟩ := List.forall_mem_cons.mp listed
      have handler : Fails failure (runHandler runBlock clause) := by
        refine .bind (blocks clause.handlerBlock _
          (mem_entries_of_clause first List.mem_cons_self)) fun exit => ?_
        cases exit with
        | endFinally => exact .pure _
        | _ => exact fails_other others rfl
      refine .bind (.catchThrown handler) fun outcome => ?_
      cases outcome with
      | ok value => exact ih rest
      | error exception => exact .pure _

theorem fails_dispatch (frame : Nat) (block? : Option Block) (rounds : Nat) (raised : Raised) :
    Fails failure (dispatch runBlock code.clauses frame block? rounds raised) := by
  -- An exception that escapes from a handler is dispatched in the next round.
  induction rounds generalizing raised with
  | zero => exact fails_other others rfl
  | succ rounds ih =>
      have guarding {candidate : Clause × Nat} (member : candidate ∈ Clause.guarding code.clauses
          block? (Clause.positionOf raised.offset)) : candidate.1 ∈ code.clauses :=
        fst_mem_of_guarding member
      refine .bind (.readHeap fun _ => others.errs_typeOf _ _) fun type =>
        .bind (fails_select? others blocks (fun _ => guarding) _ _) fun selected? =>
        .bind (fails_runHandlers others blocks fun clause member => ?_) fun replacement? => ?_
      · obtain ⟨_, member⟩ := mem_of_mem_unwound member
        exact guarding member
      · cases replacement? with
        | some replacement => exact ih replacement
        | none =>
            cases selected? with
            | none => exact fails_other others rfl
            | some selected => exact .bind .modify fun _ => .pure _

theorem fails_leave (frame : Nat) (block? : Option Block) (origin target : Nat) :
    Fails failure (leave runBlock code.clauses frame block? origin target) := by
  refine .bind (fails_runHandlers others blocks fun clause member => ?_) fun raised? => ?_
  · exact (List.mem_filter.mp member).1
  · cases raised? with
    | some raised => exact .pure _
    | none => exact .bind .modify fun _ => .pure _

end Unwinding

/-! ## Executing code -/

/-- An effect sends control to a target of its instruction. -/
theorem mem_targets_of_effect {run : Runner} {scope : Scope} {frame : Nat}
    {instruction : Instruction} {constraint? : Option Token} {stack : List Value}
    {result : Effect} {target : Nat}
    (ran : effect run code scope frame instruction constraint? stack context start =
      .ok result final) (sent : result.target? = some target) :
    target ∈ instruction.targets := by
  obtain ⟨outcome, _, caught, answered⟩ := bind_ok_iff.mp ran
  cases outcome with
  | error exception => cases answered; cases sent
  | ok effect =>
      cases answered
      exact mem_targets_of_step (catchThrown_ok_iff.mp caught) sent

section Executing

variable {bytes : List UInt8} {locals : List LocalVariable} {clauses : List Clause}
  {maxStack : Nat} {initLocals : Bool}
  (read : ofBytes bytes locals clauses maxStack initLocals = .ok code)

include read

/-- Looking for the instruction at an entry finds one, or the entry is to blame. -/
theorem fails_position_of_entry {entry : Nat} (member : entry ∈ code.entries) :
    Fails code.Blames (position code entry) := by
  have lands := isSome_position?_of_entry read member
  unfold position
  split
  · exact .pure _
  · rename_i missing
    rw [missing] at lands
    refine .throw fun offset isOffset => ?_
    cases isOffset
    have atEnd : entry = code.codeSize :=
      Decidable.byContradiction fun inside => Bool.false_ne_true (lands.mpr inside)
    exact ⟨atEnd, member⟩

theorem fails_goTo_entry {entry : Nat} (member : entry ∈ code.entries) (stack : List Value) :
    Fails code.Blames (goTo code entry stack) :=
  .bind (fails_position_of_entry read member) fun _ => .pure _

omit read in
theorem fails_goTo_target {target : Nat} (lands : (code.position? target).isSome)
    (stack : List Value) : Fails code.Blames (goTo code target stack) := by
  obtain ⟨index, found⟩ := Option.isSome_iff_exists.mp lands
  have finds : position code target = pure index := by rw [position, found]
  unfold goTo
  rw [finds]
  exact .bind (.pure _) fun _ => .pure _

theorem fails_handle {runBlock : BlockRunner} (blocks : BlocksFail code.Blames code runBlock)
    (frame : Nat) (block? : Option Block) (rounds : Nat) (raised : Raised) :
    Fails code.Blames (handle runBlock code frame block? rounds raised) :=
  .bind_of (fails_dispatch (allowsOthers_blames code) blocks _ _ _ _)
    fun _ ⟨_, _, _, ran⟩ => fails_goTo_entry read (mem_entries_of_dispatch ran) _

theorem fails_follow {runBlock : BlockRunner} (blocks : BlocksFail code.Blames code runBlock)
    (frame : Nat) (block? : Option Block) (rounds index offset : Nat) {effect : Effect}
    (lands : ∀ target, effect.target? = some target → (code.position? target).isSome) :
    Fails code.Blames (follow runBlock code frame block? rounds index offset effect) := by
  cases effect with
  | next stack constraint? => exact .pure _
  | jump target stack => exact fails_goTo_target (lands target rfl) _
  | leave target =>
      refine .bind (fails_leave (allowsOthers_blames code) blocks _ _ _ _) fun raised? => ?_
      cases raised? with
      | none => exact fails_goTo_target (lands target rfl) _
      | some raised => exact fails_handle read blocks _ _ _ _
  | thrown exception => exact fails_handle read blocks _ _ _ _
  | returned value | endFinally | endFilter accepted => exact .pure _

variable {run : Runner} (calls : ∀ activation, Fails code.Blames (run activation))

include calls

omit read in
theorem fails_effect (scope : Scope) (frame : Nat) (instruction : Instruction)
    (constraint? : Option Token) (stack : List Value) :
    Fails code.Blames (effect run code scope frame instruction constraint? stack) := by
  refine .bind (.catchThrown (fails_step (allowsOthers_blames code) _ calls _ _ _ _ _))
    fun outcome => ?_
  cases outcome with
  | ok effect => exact .pure _
  | error exception => exact .pure _

omit read calls in
theorem fails_tick : Fails code.Blames tick := by
  refine .bind .read fun context => .bind (fun _ => .modifyGet _) fun executed => ?_
  split
  · exact fails_other (allowsOthers_blames code) rfl
  · exact .pure _

/-- A round fails only at entries if what follows it does. -/
theorem fails_round {scope : Scope} {frame rounds : Nat}
    {rest : Option Block → Nat → Option Token → List Value → Exec BlockExit}
    (rests : ∀ block? index constraint? stack,
      Fails code.Blames (rest block? index constraint? stack))
    (block? : Option Block) (index : Nat) (constraint? : Option Token) (stack : List Value) :
    Fails code.Blames (round run code scope frame rounds rest block? index constraint? stack) := by
  obtain ⟨decoded, _⟩ := decoded_of_ofBytes read
  unfold round
  cases fetched : code.instructions[index]? with
  | none => exact fails_other (allowsOthers_blames code) rfl
  | some instruction =>
      have isInstruction : instruction ∈ code.instructions.toList :=
        Array.mem_toList_iff.mpr (Array.mem_of_getElem? fetched)
      have blocks : BlocksFail code.Blames code
          (fun block stack => do rest (some block) (← position code block.start) none stack) :=
        fun block stack entry => .bind (fails_position_of_entry read entry) fun _ => rests _ _ _ _
      refine .bind fails_tick fun _ => .bind_of (fails_effect calls _ _ _ _ _)
        fun effect ⟨_, _, _, ran⟩ => .bind (fails_follow read blocks _ _ _ _ _
          fun target sent => ?_) fun continuation => ?_
      · exact isSome_position? (decoded.targets instruction isInstruction target
          (mem_targets_of_effect ran sent))
      · cases continuation with
        | goOn index constraint? stack => exact rests _ _ _ _
        | exit exit => exact .pure _

theorem fails_execute (scope : Scope) (frame rounds : Nat) (block? : Option Block) (index : Nat)
    (constraint? : Option Token) (stack : List Value) :
    Fails code.Blames (execute run code scope frame rounds block? index constraint? stack) := by
  -- Filters and handlers run as blocks with the rounds that are left.
  induction rounds generalizing block? index constraint? stack with
  | zero => exact fails_other (allowsOthers_blames code) rfl
  | succ rounds ih =>
      rw [execute_succ]
      exact fails_round read calls ih _ _ _ _

theorem fails_runCode (scope : Scope) (arguments : List Value) :
    Fails code.Blames (runCode run code scope arguments) := by
  have others := allowsOthers_blames code
  have enters : Fails code.Blames enter :=
    .bind .read fun _ => .bind .get fun _ => .check (fails_other others rfl) .modify
  have executes (frame : Nat) : Fails code.Blames (executeCode run code scope frame) := by
    refine .bind .read fun _ => .bind (fails_position_of_entry read List.mem_cons_self) fun _ =>
      .bind (fails_execute read calls _ _ _ _ _ _ _) fun exit => ?_
    cases exit with
    | returned value => exact .pure _
    | _ => exact fails_other others rfl
  exact .bind enters fun _ => .andFinally <| .bind .module fun _ =>
    .bind (.ofExcept (.mapM fun _ => others.errs_zero _ _)) fun _ => .bind .get fun _ =>
    .bind .modify fun _ => .andFinally (executes _)

end Executing

/-- Control is sent to instructions, but for entries at the end of the code: every target of an
instruction is the offset of one, and so is every entry unless it stands at the end; and where
an execution of the code fails because no instruction starts at an offset, that offset is an
entry at the end, if the calls that the code makes do not fail in this way. -/
theorem runCode_strays_at_end {bytes : List UInt8} {locals : List LocalVariable}
    {clauses : List Clause} {maxStack : Nat} {initLocals : Bool}
    (read : ofBytes bytes locals clauses maxStack initLocals = .ok code) :
    (∀ instruction ∈ code.instructions.toList, ∀ target ∈ instruction.targets,
        (code.position? target).isSome) ∧
      (∀ entry ∈ code.entries, (code.position? entry).isSome ↔ entry ≠ code.codeSize) ∧
      ∀ run : Runner, (∀ activation context start offset final, run activation context start ≠
          .error (.malformed (.noInstructionAt offset)) final) →
        ∀ scope arguments context start offset final,
          runCode run code scope arguments context start =
              .error (.malformed (.noInstructionAt offset)) final →
            offset = code.codeSize ∧ offset ∈ code.entries := by
  refine ⟨fun instruction listed target member => ?_,
    fun entry member => isSome_position?_of_entry read member, ?_⟩
  · exact isSome_position? ((decoded_of_ofBytes read).1.targets instruction listed target member)
  · intro run calls scope arguments context start offset final failed
    have callsFail (activation : Activation) : Fails code.Blames (run activation) :=
      fun context start error final failed offset isOffset =>
        absurd (isOffset ▸ failed) (calls activation context start offset final)
    exact fails_runCode read callsFail scope arguments context start _ final failed offset rfl

end Exec

/-! ## Handlers with and without instructions -/

/-- All entries of the code with three handlers stand at instructions, and executing it without
calls comes to one every time. -/
theorem Layered.stays_on_instructions :
    (∀ entry ∈ code.entries, (code.position? entry).isSome) ∧
      ∀ start offset final, Exec.runCode (fun _ => throw .outOfFuel) code {} [] context start ≠
        .error (.malformed (.noInstructionAt offset)) final := by
  obtain ⟨_, _, size, clauses⟩ := MethodCode.decoded_of_ofBytes code_read
  obtain ⟨_, entries, runs⟩ := Exec.runCode_strays_at_end code_read
  have inside : ∀ entry ∈ code.entries, entry ≠ code.codeSize := by
    rw [MethodCode.entries, clauses, size]
    decide
  refine ⟨fun entry member => (entries entry member).mpr (inside entry member), ?_⟩
  intro start offset final failed
  obtain ⟨atEnd, member⟩ :=
    runs _ (fun _ _ _ _ _ failed => by cases failed) {} [] context start offset final failed
  exact inside offset member atEnd

namespace EmptyHandler

open Exec

/-- The handler stands at the end of the code and has no instructions. -/
def handler : Clause := ⟨.exception, 0, 2, 2, 0, some Core.object, 0⟩

def read : Except Error MethodCode := MethodCode.ofBytes [0x14, 0x7A] [] [handler] 8 true

def code : MethodCode := read.toOption.get (by decide +kernel)

theorem read_eq : read = .ok code := by
  have found : read.toOption = some code := (Option.some_get _).symm
  cases isRead : read with
  | error error => rw [isRead] at found; cases found
  | ok code => rw [isRead] at found; cases found; rfl

theorem handler_missing : (match runCode (fun _ => throw .outOfFuel) code {} []
      Layered.context Layered.machine with
    | .error (.malformed (.noInstructionAt offset)) _ => offset == 2
    | _ => false) = true := by
  decide +kernel

/-- An exception that a handler without instructions receives leads to the end of the code. -/
theorem strays_to_handler :
    ¬ ∀ (bytes : List UInt8) (locals : List LocalVariable) (clauses : List Clause)
      (maxStack : Nat) (initLocals : Bool) (code : MethodCode),
      MethodCode.ofBytes bytes locals clauses maxStack initLocals = .ok code →
      ∀ run : Runner, (∀ activation context start offset final, run activation context start ≠
        .error (.malformed (.noInstructionAt offset)) final) →
      ∀ scope arguments context start offset final, runCode run code scope arguments context
        start ≠ .error (.malformed (.noInstructionAt offset)) final := by
  intro never
  have missing := handler_missing
  split at missing
  · rename_i offset final failed
    exact never _ _ _ _ _ _ read_eq _ (fun _ _ _ _ _ failed => by cases failed)
      _ _ _ _ _ _ failed
  · cases missing

end EmptyHandler

end Cil
