import Cil.Proofs.Code.Decoding
import Cil.Proofs.Machine.Unwinding

/-!
# The order of unwinding

The way out of guarded ranges, for a table of clauses that nest and whose inner clauses come
first.  As long as every filter answers and every handler ends normally, the finally and fault
handlers on the way run once each and in the order of the table, the innermost first.  Control
arrives at its destination behind all of them: in the handler that accepts the exception,
outside of the execution, or at the target of a leave.
-/

namespace Cil

namespace Clause

/-- The guarded range lies within that of another clause. -/
def Within (inner outer : Clause) : Prop :=
  outer.tryOffset ≤ inner.tryOffset ∧ inner.tryEnd ≤ outer.tryEnd

instance (inner outer : Clause) : Decidable (inner.Within outer) :=
  inferInstanceAs (Decidable (_ ∧ _))

/-- Clauses of inner ranges come before those of outer ones. -/
def InnerFirst (clauses : List Clause) : Prop :=
  clauses.Pairwise fun earlier later => later.Within earlier → earlier.Within later

instance (clauses : List Clause) : Decidable (InnerFirst clauses) :=
  inferInstanceAs (Decidable (clauses.Pairwise _))

/-- Whether a clause guards an offset in an execution that may be restricted to a block. -/
def guards (block? : Option Block) (offset : Nat) (clause : Clause) : Bool :=
  clause.covers offset && clause.isVisible block?

/-- Whether the handler runs when an exception from an offset passes the clause. -/
def unwinds (block? : Option Block) (offset : Nat) (clause : Clause) : Bool :=
  clause.isTermination && clause.guards block? offset

/-- Whether the handler runs when control leaves from an offset to a target. -/
def leaves (block? : Option Block) (offset target : Nat) (clause : Clause) : Bool :=
  clause.kind == .finallyClause && clause.guards block? offset && !clause.covers target

theorem covers_of_guards {block? : Option Block} {offset : Nat} {clause : Clause}
    (guards : clause.guards block? offset) : clause.covers offset :=
  (Bool.and_eq_true_iff.mp guards).1

theorem guards_of_unwinds {block? : Option Block} {offset : Nat} {clause : Clause}
    (unwinds : clause.unwinds block? offset) : clause.guards block? offset :=
  (Bool.and_eq_true_iff.mp unwinds).2

theorem guards_of_leaves {block? : Option Block} {offset target : Nat} {clause : Clause}
    (leaves : clause.leaves block? offset target) : clause.guards block? offset :=
  (Bool.and_eq_true_iff.mp (Bool.and_eq_true_iff.mp leaves).1).2

/-- No guarded range reaches beyond the offsets that clauses can count. -/
@[simp]
theorem covers_positionOf (clause : Clause) (offset : Nat) :
    clause.covers (positionOf offset) = clause.covers offset := by
  have inside : clause.tryEnd ≤ lastOffset := Nat.min_le_right ..
  unfold covers positionOf
  rcases Nat.le_total offset lastOffset with low | high
  · rw [Nat.min_eq_left low]
  · rw [Nat.min_eq_right high, decide_eq_false (Nat.not_lt.mpr inside),
      decide_eq_false (Nat.not_lt.mpr (Nat.le_trans inside high)), Bool.and_false, Bool.and_false]

/-- Of two ranges that guard one offset, one lies within the other. -/
theorem Nest.within {clauses : List Clause} (nest : Nest clauses) {first second : Clause}
    (isFirst : first ∈ clauses) (isSecond : second ∈ clauses) {offset : Nat}
    (firstCovers : first.covers offset) (secondCovers : second.covers offset) :
    first.Within second ∨ second.Within first := by
  have nests := nest _ (List.mem_flatMap.mpr ⟨first, isFirst, List.mem_cons_self ..⟩) _
    (List.mem_flatMap.mpr ⟨second, isSecond, List.mem_cons_self ..⟩)
  simp only [covers, Bool.and_eq_true, decide_eq_true_eq] at firstCovers secondCovers
  unfold Within
  omega

/-- Clauses that guard one offset stand with the innermost first. -/
theorem pairwise_within {clauses handlers : List Clause} (nest : Nest clauses)
    (innerFirst : InnerFirst clauses) (part : handlers.Sublist clauses) {offset : Nat}
    (covers : ∀ clause ∈ handlers, clause.covers offset) : handlers.Pairwise Within := by
  refine (innerFirst.sublist part).imp_of_mem fun {earlier later} isEarlier isLater ordered => ?_
  rcases nest.within (part.subset isEarlier) (part.subset isLater) (covers earlier isEarlier)
    (covers later isLater) with within | within
  · exact within
  · exact ordered within

end Clause

/-- The offset that an instruction sends control to. -/
def Effect.target? : Effect → Option Nat
  | jump target _ | leave target => some target
  | _ => none

namespace Exec

open UnwindingEvent

/-! ## Blocks that end normally -/

/-- The elements of a list take a step each, one after the other. -/
inductive InTurn {α : Type} (step : α → Machine → Machine → Prop) :
    List α → Machine → Machine → Prop
  | nil {machine : Machine} : InTurn step [] machine machine
  | cons {element : α} {rest : List α} {start middle final : Machine}
      (first : step element start middle) (others : InTurn step rest middle final) :
      InTurn step (element :: rest) start final

theorem InTurn.append {α : Type} {step : α → Machine → Machine → Prop} {front back : List α}
    {start middle final : Machine} (early : InTurn step front start middle)
    (late : InTurn step back middle final) : InTurn step (front ++ back) start final := by
  induction early with
  | nil => exact late
  | cons first _ ih => exact .cons first (ih late)

section Blocks

variable (runBlock : BlockRunner) (context : Context)

/-- The handler of a clause ends normally. -/
def Ends (clause : Clause) (start final : Machine) : Prop :=
  runBlock clause.handlerBlock [] context start = .ok .endFinally final

/-- What a clause answers when it is asked to accept an exception of a type. -/
inductive Answers (type : Token) (exception : HeapRef) (accepted : Bool) (clause : Clause) :
    (start final : Machine) → Prop
  | catches {machine : Machine} (kind : clause.kind = .catchClause)
      (answer : clause.class?.any (context.module.isSubtypeOf type) = accepted) :
      Answers type exception accepted clause machine machine
  | filters {start final : Machine} (kind : clause.kind = .filterClause)
      (ended : runBlock clause.filterBlock [.object exception] context start =
        .ok (.endFilter accepted) final) :
      Answers type exception accepted clause start final
  /-- An exception inside of a filter counts as a refusal. -/
  | fails {other : HeapRef} {start final : Machine} (kind : clause.kind = .filterClause)
      (ended : runBlock clause.filterBlock [.object exception] context start =
        .error (.thrown other) final)
      (refused : accepted = false) :
      Answers type exception accepted clause start final
  | passes {machine : Machine} (terminates : clause.isTermination) (refused : accepted = false) :
      Answers type exception accepted clause machine machine

/-- The search for the first of the guarding clauses that accepts an exception passes the clauses
before it, or all of them if none accepts. -/
inductive Search (guards : Clause → Bool) (type : Token) (exception : HeapRef) :
    (clauses passed : List Clause) → (accepting? : Option Clause) →
      (start final : Machine) → Prop
  | accepted {passed rest : List Clause} {clause : Clause} {start middle final : Machine}
      (refused : InTurn (Answers runBlock context type exception false) (passed.filter guards)
        start middle)
      (isGuard : guards clause)
      (accepts : Answers runBlock context type exception true clause middle final) :
      Search guards type exception (passed ++ clause :: rest) passed (some clause) start final
  | exhausted {clauses : List Clause} {start final : Machine}
      (refused : InTurn (Answers runBlock context type exception false) (clauses.filter guards)
        start final) :
      Search guards type exception clauses clauses none start final

end Blocks

section Handlers

variable {runBlock : BlockRunner} {context : Context} {start final : Machine}

theorem ends_iff {clause : Clause} :
    runHandler runBlock clause context start = .ok () final ↔
      Ends runBlock context clause start final := by
  unfold runHandler Ends
  rw [bind_run]
  rcases runBlock clause.handlerBlock [] context start with ⟨exit, middle⟩ | ⟨error, middle⟩
  · cases exit with
    | endFinally => simp
    | returned value => exact ⟨nofun, nofun⟩
    | endFilter accepted => exact ⟨nofun, nofun⟩
  · exact ⟨nofun, nofun⟩

theorem accepts_ok_iff {clause : Clause} {type : Token} {exception : HeapRef} {accepted : Bool} :
    accepts runBlock clause type exception context start = .ok accepted final ↔
      Answers runBlock context type exception accepted clause start final := by
  constructor
  · intro accepts
    unfold Exec.accepts at accepts
    cases kind : clause.kind with
    | catchClause =>
        rw [kind] at accepts
        cases accepts
        exact .catches kind rfl
    | filterClause =>
        rw [kind] at accepts
        obtain ⟨outcome, middle, caught, answered⟩ := bind_ok_iff.mp accepts
        cases outcome with
        | error other =>
            obtain ⟨refused, rfl⟩ := pure_ok_iff.mp answered
            exact .fails kind (catchThrown_error_iff.mp caught) refused.symm
        | ok exit =>
            cases exit with
            | endFilter accepted =>
                obtain ⟨rfl, rfl⟩ := pure_ok_iff.mp answered
                exact .filters kind (catchThrown_ok_iff.mp caught)
            | returned value => cases answered
            | endFinally => cases answered
    | finallyClause | faultClause =>
        rw [kind] at accepts
        cases accepts
        exact .passes (by rw [Clause.isTermination, kind]; rfl) rfl
  · intro answers
    unfold Exec.accepts
    cases answers with
    | catches kind answer =>
        rw [kind]
        exact congrArg (EStateM.Result.ok · start) answer
    | filters kind ended =>
        rw [kind]
        exact bind_ok_iff.mpr ⟨_, _, catchThrown_ok_iff.mpr ended, rfl⟩
    | fails kind ended refused =>
        rw [kind]
        exact bind_ok_iff.mpr ⟨_, _, catchThrown_error_iff.mpr ended,
          pure_ok_iff.mpr ⟨refused.symm, rfl⟩⟩
    | passes terminates refused =>
        cases kind : clause.kind with
        | finallyClause | faultClause => exact pure_ok_iff.mpr ⟨refused.symm, rfl⟩
        | catchClause | filterClause =>
            rw [Clause.isTermination, kind] at terminates
            cases terminates

theorem handlersLog_of_ends {handlers : List Clause}
    (ends : InTurn (Ends runBlock context) handlers start final) :
    handlersLog runBlock context handlers start = (handlers.map runs, .ok none final) := by
  induction ends with
  | nil => rfl
  | cons first others ih =>
      unfold handlersLog
      rw [catchThrown_ok_iff.mpr (ends_iff.mpr first)]
      dsimp only
      rw [ih]
      rfl

/-- Handlers run without an escape exactly if each of them ends normally. -/
theorem runHandlers_ok_iff {handlers : List Clause} :
    runHandlers runBlock handlers context start = .ok none final ↔
      InTurn (Ends runBlock context) handlers start final := by
  constructor
  · intro ran
    induction handlers generalizing start with
    | nil =>
        cases ran
        exact .nil
    | cons clause rest ih =>
        obtain ⟨outcome, middle, caught, ran⟩ := bind_ok_iff.mp ran
        cases outcome with
        | error exception => cases ran
        | ok value => exact .cons (ends_iff.mp (catchThrown_ok_iff.mp caught)) (ih ran)
  · intro ends
    rw [← handlersLog_snd, handlersLog_of_ends ends]

/-! ## The first clause that accepts -/

section Candidates

variable {type : Token} {exception : HeapRef} {guards : Clause → Bool}

/-- The candidates among clauses, with their indices in a table. -/
def candidates (guards : Clause → Bool) (clauses : List Clause) (index : Nat) :
    List (Clause × Nat) :=
  (clauses.zipIdx index).filter fun (clause, _) => guards clause

theorem candidates_cons {clause : Clause} {rest : List Clause} {index : Nat} :
    candidates guards (clause :: rest) index =
      if guards clause then (clause, index) :: candidates guards rest (index + 1)
      else candidates guards rest (index + 1) := by
  unfold candidates
  rw [List.zipIdx_cons, List.filter_cons]

theorem candidates_append {front back : List Clause} {index : Nat} :
    candidates guards (front ++ back) index =
      candidates guards front index ++ candidates guards back (index + front.length) := by
  unfold candidates
  rw [List.zipIdx_append, List.filter_append]

theorem index_of_candidates {clauses : List Clause} {index : Nat} {candidate : Clause × Nat}
    (member : candidate ∈ candidates guards clauses index) :
    index ≤ candidate.2 ∧ candidate.2 < index + clauses.length :=
  have listed := (List.mem_filter.mp member).1
  ⟨List.le_snd_of_mem_zipIdx listed, List.snd_lt_add_of_mem_zipIdx listed⟩

theorem map_fst_candidates (index : Nat) {clauses : List Clause} :
    (candidates guards clauses index).map (·.1) = clauses.filter guards := by
  unfold candidates
  have filtered := @List.filter_map _ _ Prod.fst guards (clauses.zipIdx index)
  rw [List.zipIdx_map_fst] at filtered
  exact filtered.symm

/-- The search goes past candidates that refuse. -/
theorem select?_refused {front back : List (Clause × Nat)}
    (refused : InTurn (Answers runBlock context type exception false) (front.map (·.1))
      start final) :
    select? runBlock type exception (front ++ back) context start =
      select? runBlock type exception back context final := by
  induction front generalizing start with
  | nil =>
      cases refused
      rfl
  | cons candidate front ih =>
      cases refused with
      | cons first others =>
          rw [List.cons_append, select?, bind_of_ok (accepts_ok_iff.mpr first)]
          exact ih others

theorem select?_of_search {clauses passed : List Clause} {accepting? : Option Clause}
    {index : Nat} (search : Search runBlock context guards type exception clauses passed accepting?
      start final) :
    select? runBlock type exception (candidates guards clauses index) context start =
      .ok (accepting?.map (·, index + passed.length)) final := by
  cases search with
  | accepted refused isGuard accepts =>
      rw [← map_fst_candidates index] at refused
      rw [candidates_append, select?_refused refused, candidates_cons, if_pos isGuard, select?,
        bind_of_ok (accepts_ok_iff.mpr accepts)]
      rfl
  | exhausted refused =>
      rw [← map_fst_candidates index] at refused
      rw [← List.append_nil (candidates guards clauses index), select?_refused refused]
      rfl

/-- A clause is passed if it does not guard or refuses. -/
theorem Search.later {clause : Clause} {rest passed : List Clause} {accepting? : Option Clause}
    {middle : Machine}
    (past : InTurn (Answers runBlock context type exception false) ([clause].filter guards)
      start middle)
    (search : Search runBlock context guards type exception rest passed accepting? middle final) :
    Search runBlock context guards type exception (clause :: rest) (clause :: passed) accepting?
      start final := by
  have longer {clauses : List Clause} {reached : Machine}
      (refused : InTurn (Answers runBlock context type exception false) (clauses.filter guards)
        middle reached) :
      InTurn (Answers runBlock context type exception false) ((clause :: clauses).filter guards)
        start reached := by
    rw [← List.singleton_append, List.filter_append]
    exact past.append refused
  cases search with
  | accepted refused isGuard accepts => exact .accepted (longer refused) isGuard accepts
  | exhausted refused => exact .exhausted (longer refused)

/-- Every search that succeeds is one of the first clause that accepts. -/
theorem search_of_select? {clauses : List Clause} {index : Nat}
    {selected? : Option (Clause × Nat)}
    (selected : select? runBlock type exception (candidates guards clauses index) context start =
      .ok selected? final) :
    ∃ passed accepting?, Search runBlock context guards type exception clauses passed accepting?
      start final ∧ selected? = accepting?.map (·, index + passed.length) := by
  -- A clause that is passed moves the index of the next one and may change the machine.
  induction clauses generalizing index start with
  | nil =>
      cases selected
      exact ⟨[], none, .exhausted .nil, rfl⟩
  | cons clause rest ih =>
      rw [candidates_cons] at selected
      split at selected
      · rename_i isGuard
        obtain ⟨accepted, middle, answered, selected⟩ := bind_ok_iff.mp selected
        have answers := accepts_ok_iff.mp answered
        cases accepted with
        | true =>
            cases selected
            have nothing : InTurn (Answers runBlock context type exception false)
                ([].filter guards) start start := .nil
            exact ⟨[], some clause, .accepted nothing isGuard answers, rfl⟩
        | false =>
            obtain ⟨passed, accepting?, search, rfl⟩ := ih selected
            refine ⟨clause :: passed, accepting?, search.later ?_, ?_⟩
            · rw [List.filter_cons_of_pos isGuard]
              exact .cons answers .nil
            · rw [List.length_cons, Nat.add_right_comm, Nat.add_assoc]
      · rename_i noGuard
        obtain ⟨passed, accepting?, search, rfl⟩ := ih selected
        refine ⟨clause :: passed, accepting?, search.later ?_, ?_⟩
        · rw [List.filter_cons_of_neg noGuard]
          exact .nil
        · rw [List.length_cons, Nat.add_right_comm, Nat.add_assoc]

theorem map_fst_terminations (index : Nat) {clauses : List Clause} :
    ((candidates guards clauses index).filter fun (clause, _) => clause.isTermination).map (·.1) =
      clauses.filter fun clause => clause.isTermination && guards clause := by
  have filtered : clauses.filter guards = (candidates guards clauses index).map (·.1) :=
    (map_fst_candidates index).symm
  rw [← List.filter_filter, filtered]
  exact (@List.filter_map _ _ Prod.fst Clause.isTermination _).symm

/-- What unwinds on the way to the selected clause is what was passed. -/
theorem unwound_of_search {clauses passed : List Clause} {accepting? : Option Clause}
    (search : Search runBlock context guards type exception clauses passed accepting?
      start final) :
    Clause.unwound (candidates guards clauses 0) (accepting?.map (·, passed.length)) =
      passed.filter fun clause => clause.isTermination && guards clause := by
  unfold Clause.unwound
  cases search with
  | @accepted _ rest clause _ _ _ _ isGuard _ =>
      have front : ∀ candidate ∈ candidates guards passed 0,
          (candidate.1.isTermination && decide (candidate.2 < passed.length)) =
            candidate.1.isTermination := by
        intro candidate member
        have before := (index_of_candidates member).2
        rw [Nat.zero_add] at before
        rw [decide_eq_true before, Bool.and_true]
      have back : ∀ candidate ∈ (clause, passed.length) :: candidates guards rest
          (passed.length + 1), ¬ (candidate.1.isTermination &&
            decide (candidate.2 < passed.length)) := by
        intro candidate member
        have behind : ¬ candidate.2 < passed.length := by
          rcases List.mem_cons.mp member with rfl | member
          · exact Nat.lt_irrefl _
          · have := (index_of_candidates member).1
            omega
        rw [decide_eq_false behind, Bool.and_false]
        exact Bool.false_ne_true
      rw [← map_fst_terminations 0, candidates_append, candidates_cons, if_pos isGuard,
        List.filter_append, Nat.zero_add]
      refine congrArg (List.map Prod.fst) ?_
      exact (congr (congrArg _ (List.filter_congr front)) (List.filter_eq_nil_iff.mpr back)).trans
        (List.append_nil _)
  | exhausted refused =>
      simp only [Option.map_none, Option.all_none, Bool.and_true]
      exact map_fst_terminations 0

theorem passed_of_search {clauses passed : List Clause} {accepting? : Option Clause}
    (search : Search runBlock context guards type exception clauses passed accepting?
      start final) :
    passed.Sublist clauses ∧ (∀ clause ∈ accepting?, clause ∈ clauses) ∧
      (accepting? = none → passed = clauses) := by
  cases search with
  | accepted refused isGuard accepts => simp
  | exhausted refused => exact ⟨.refl _, nofun, fun _ => rfl⟩

end Candidates

end Handlers

/-! ## Targets of transfers -/

section Transfers

variable {run : Runner} {clauses : List Clause} {scope : Scope} {frame : Nat}
  {instruction : Instruction} {constraint? : Option Token} {stack : List Value}
  {context : Context} {start final : Machine}

theorem operand_ok_iff {α : Type} {operand? : Option α} {result : α} :
    operand instruction operand? context start = .ok result final ↔
      operand? = some result ∧ start = final := by
  cases operand? with
  | none => exact ⟨nofun, nofun⟩
  | some value => simp [operand]

theorem mem_targets_of_branchTarget {target : Nat}
    (found : branchTarget instruction context start = .ok target final) :
    target ∈ instruction.targets :=
  List.mem_of_head? (operand_ok_iff.mp found).1

/-- Control is sent to a target of the instruction. -/
theorem mem_targets_of_step {effect : Effect} {target : Nat}
    (ran : step run clauses scope frame instruction constraint? stack context start =
      .ok effect final) (sent : effect.target? = some target) :
    target ∈ instruction.targets := by
  -- Every other action ends with another effect.
  unfold step at ran
  cases acts : instruction.opcode.action? with
  | none => rw [acts] at ran; cases ran
  | some action =>
      rw [acts] at ran
      cases action with
      | mark | returnValue | endFinally => cases ran; cases sent
      | jump | leave =>
          obtain ⟨_, _, found, ran⟩ := bind_ok_iff.mp ran
          cases ran
          cases sent
          exact mem_targets_of_branchTarget found
      | jumpIf expected =>
          obtain ⟨⟨value, rest⟩, _, _, ran⟩ := bind_ok_iff.mp ran
          dsimp only at ran
          split at ran
          · obtain ⟨_, _, found, ran⟩ := bind_ok_iff.mp ran
            cases ran
            cases sent
            exact mem_targets_of_branchTarget found
          · cases ran
            cases sent
      | jumpWhen condition =>
          obtain ⟨⟨left, right, rest⟩, _, _, ran⟩ := bind_ok_iff.mp ran
          obtain ⟨holds, _, _, ran⟩ := bind_ok_iff.mp ran
          cases holds with
          | false => cases ran; cases sent
          | true =>
              obtain ⟨_, _, found, ran⟩ := bind_ok_iff.mp ran
              cases ran
              cases sent
              exact mem_targets_of_branchTarget found
      | select =>
          obtain ⟨⟨selector, rest⟩, _, _, ran⟩ := bind_ok_iff.mp ran
          obtain ⟨selector, _, _, ran⟩ := bind_ok_iff.mp ran
          by_cases negative : selector < 0
          · rw [if_pos negative] at ran
            cases ran
            cases sent
          · rw [if_neg negative] at ran
            cases reached : instruction.targets[selector.toInt.toNat]? with
            | none => rw [reached] at ran; cases ran; cases sent
            | some target =>
                rw [reached] at ran
                cases ran
                cases sent
                exact List.mem_of_getElem? reached
      | throw =>
          obtain ⟨⟨value, rest⟩, _, _, ran⟩ := bind_ok_iff.mp ran
          cases value with
          | null => exact absurd ran raise_ne_ok
          | object exception => cases ran; cases sent
          | _ => cases ran
      | _ =>
          obtain ⟨_, _, _, ran⟩ := bind_ok_iff.mp ran
          cases ran
          cases sent

end Transfers

/-! ## Departures -/

/-- Where control arrives behind the handlers on its way. -/
inductive Destination
  | handler (clause : Clause) (exception : HeapRef)
  | outside (exception : HeapRef)
  | target (offset : Nat)

namespace Destination

def events : Destination → List UnwindingEvent
  | handler clause exception => [receives clause exception]
  | outside _ | target _ => []

/-- Control arrives in the handler with the exception, at the target with nothing, or not at
all. -/
def reach (code : MethodCode) : Destination → Exec Continuation
  | handler clause exception => goTo code clause.handlerOffset [.object exception]
  | outside exception => throw (.thrown exception)
  | target offset => goTo code offset []

/-- The destination is in the code, unless it is an empty handler. -/
def Lands (code : MethodCode) : Destination → Prop
  | handler clause _ =>
    clause.handlerOffset < clause.handlerEnd → (code.position? clause.handlerOffset).isSome
  | outside _ => True
  | target offset => (code.position? offset).isSome

end Destination

section Departures

variable (runBlock : BlockRunner) (context : Context) (code : MethodCode) (frame : Nat)
  (block? : Option Block) (offset : Nat)

/-- How control departs from an offset, by an exception or a leave, when all blocks on its way
end normally: through which handlers, and to which destination. -/
inductive Departs : Effect → (handlers : List Clause) → Destination → (start final : Machine) → Prop
  /-- Through the finally and fault handlers before the first clause that accepts. -/
  | caught {exception : HeapRef} {type : Token} {passed : List Clause} {clause : Clause}
      {start asked ended final : Machine} (typed : start.heap.typeOf exception = .ok type)
      (search : Search runBlock context (Clause.guards block? offset) type exception code.clauses
        passed (some clause) start asked)
      (ends : InTurn (Ends runBlock context) (passed.filter (Clause.unwinds block? offset))
        asked ended)
      (remembered : remember frame passed.length exception context ended = .ok () final) :
      Departs (.thrown exception) (passed.filter (Clause.unwinds block? offset))
        (.handler clause exception) start final
  /-- Through those of the whole table, if no clause accepts. -/
  | uncaught {exception : HeapRef} {type : Token} {start asked final : Machine}
      (typed : start.heap.typeOf exception = .ok type)
      (search : Search runBlock context (Clause.guards block? offset) type exception code.clauses
        code.clauses none start asked)
      (ends : InTurn (Ends runBlock context) (code.clauses.filter (Clause.unwinds block? offset))
        asked final) :
      Departs (.thrown exception) (code.clauses.filter (Clause.unwinds block? offset))
        (.outside exception) start final
  /-- Through the finally handlers of the ranges that are left. -/
  | left {target : Nat} {start ended final : Machine}
      (ends : InTurn (Ends runBlock context)
        (code.clauses.filter (Clause.leaves block? offset target)) start ended)
      (forgotten : forget code.clauses frame (Clause.positionOf offset)
        (Clause.positionOf target) context ended = .ok () final) :
      Departs (.leave target) (code.clauses.filter (Clause.leaves block? offset target))
        (.target target) start final

/-- An exception or a leave takes its way without a failure and without an escape: every clause
that is asked answers, and every handler on the way ends. -/
def Undisturbed : Effect → Machine → Prop
  | .thrown exception, start => ∃ selection asked ended,
      choose runBlock code.clauses block? ⟨offset, exception⟩ context start =
        .ok selection asked ∧
      runHandlers runBlock (Clause.unwound selection.1 selection.2) context asked =
        .ok none ended
  | .leave target, start => ∃ ended,
      runHandlers runBlock (Clause.left code.clauses block? (Clause.positionOf offset)
        (Clause.positionOf target)) context start = .ok none ended
  | _, _ => False

end Departures

section Following

variable {runBlock : BlockRunner} {context : Context} {code : MethodCode} {frame : Nat}
  {block? : Option Block} {offset : Nat} {start final : Machine}

theorem guarding_eq (clauses : List Clause) :
    Clause.guarding clauses block? (Clause.positionOf offset) =
      candidates (Clause.guards block? offset) clauses 0 := by
  unfold Clause.guarding candidates Clause.guards
  simp only [Clause.covers_positionOf]

theorem left_eq (clauses : List Clause) (target : Nat) :
    Clause.left clauses block? (Clause.positionOf offset) (Clause.positionOf target) =
      clauses.filter (Clause.leaves block? offset target) := by
  unfold Clause.left Clause.leaves Clause.guards
  simp only [Clause.covers_positionOf, Bool.and_assoc, Bool.and_comm (!_)]

theorem choose_of_search {type : Token} {exception : HeapRef} {passed : List Clause}
    {accepting? : Option Clause} (typed : start.heap.typeOf exception = .ok type)
    (search : Search runBlock context (Clause.guards block? offset) type exception code.clauses
      passed accepting? start final) :
    choose runBlock code.clauses block? ⟨offset, exception⟩ context start =
      .ok (candidates (Clause.guards block? offset) code.clauses 0,
        accepting?.map (·, passed.length)) final := by
  unfold choose
  rw [bind_of_ok (readHeap_of_ok typed)]
  dsimp only
  rw [guarding_eq, bind_of_ok (select?_of_search search), Nat.zero_add]
  rfl

theorem handlersLog_of_search {type : Token} {exception : HeapRef} {passed : List Clause}
    {accepting? : Option Clause} {asked : Machine}
    (search : Search runBlock context (Clause.guards block? offset) type exception code.clauses
      passed accepting? start asked)
    (ends : InTurn (Ends runBlock context) (passed.filter (Clause.unwinds block? offset))
      asked final) :
    handlersLog runBlock context (Clause.unwound
        (candidates (Clause.guards block? offset) code.clauses 0)
        (accepting?.map (·, passed.length))) asked =
      ((passed.filter (Clause.unwinds block? offset)).map runs, .ok none final) := by
  rw [unwound_of_search search]
  exact handlersLog_of_ends ends

/-- Unwinding follows a departure. -/
theorem followLog_of_departs {rounds index : Nat} {effect : Effect} {handlers : List Clause}
    {destination : Destination}
    (departs : Departs runBlock context code frame block? offset effect handlers destination
      start final) :
    followLog runBlock context code frame block? (rounds + 1) index offset effect start =
      (handlers.map runs ++ destination.events, destination.reach code context final) := by
  cases departs with
  | caught typed search ends remembered =>
      have ran := handlersLog_of_search search ends
      rw [followLog, dispatchLog, choose_of_search typed search]
      dsimp only
      rw [ran]
      dsimp only [Option.map_some]
      rw [bind_of_ok remembered]
      rfl
  | uncaught typed search ends =>
      have ran := handlersLog_of_search search ends
      rw [followLog, dispatchLog, choose_of_search typed search]
      dsimp only
      rw [ran]
      dsimp only [Option.map_none]
      rw [Destination.events, List.append_nil]
      rfl
  | left ends forgotten =>
      rename_i target ended
      have ran := handlersLog_of_ends ends
      rw [followLog, left_eq]
      dsimp only
      rw [ran]
      dsimp only
      rw [bind_of_ok forgotten, Destination.events, List.append_nil]
      rfl

theorem exists_departs_thrown_iff {exception : HeapRef} :
    (∃ handlers destination final, Departs runBlock context code frame block? offset
        (.thrown exception) handlers destination start final) ↔
      Undisturbed runBlock context code block? offset (.thrown exception) start := by
  constructor
  · rintro ⟨handlers, destination, final, departs⟩
    cases departs with
    | caught typed search ends _ | uncaught typed search ends =>
        have ran := congrArg Prod.snd (handlersLog_of_search search ends)
        exact ⟨_, _, _, choose_of_search typed search, (handlersLog_snd ..).symm.trans ran⟩
  · rintro ⟨⟨guarding, selected?⟩, asked, ended, chosen, ran⟩
    obtain ⟨type, middle, read, chosen⟩ := bind_ok_iff.mp chosen
    obtain ⟨typed, rfl⟩ := readHeap_ok_iff.mp read
    dsimp only at chosen
    rw [guarding_eq] at chosen
    obtain ⟨found?, middle, selected, chosen⟩ := bind_ok_iff.mp chosen
    obtain ⟨same, rfl⟩ := pure_ok_iff.mp chosen
    obtain ⟨rfl, rfl⟩ := Prod.mk.inj same
    obtain ⟨passed, accepting?, search, rfl⟩ := search_of_select? selected
    rw [Nat.zero_add, unwound_of_search search, runHandlers_ok_iff] at ran
    cases accepting? with
    | some clause => exact ⟨_, _, _, .caught typed search ran rfl⟩
    | none =>
        obtain rfl := (passed_of_search search).2.2 rfl
        exact ⟨_, _, _, .uncaught typed search ran⟩

theorem exists_departs_leave_iff {target : Nat} :
    (∃ handlers destination final, Departs runBlock context code frame block? offset
        (.leave target) handlers destination start final) ↔
      Undisturbed runBlock context code block? offset (.leave target) start := by
  unfold Undisturbed
  simp only [left_eq, runHandlers_ok_iff]
  constructor
  · rintro ⟨handlers, destination, final, ⟨⟩⟩
    exact ⟨_, ‹_›⟩
  · rintro ⟨ended, ends⟩
    exact ⟨_, _, _, .left ends rfl⟩

/-- Control departs whenever nothing disturbs it. -/
theorem exists_departs_iff {effect : Effect} :
    (∃ handlers destination final, Departs runBlock context code frame block? offset effect
        handlers destination start final) ↔
      Undisturbed runBlock context code block? offset effect start := by
  cases effect with
  | thrown exception => exact exists_departs_thrown_iff
  | leave target => exact exists_departs_leave_iff
  | _ => exact ⟨nofun, False.elim⟩

/-- The handlers on the way are clauses of the table, each at most once and in its order, and
stand with the innermost first. -/
theorem handlers_of_departs {effect : Effect} {handlers : List Clause} {destination : Destination}
    (nest : Clause.Nest code.clauses) (innerFirst : Clause.InnerFirst code.clauses)
    (departs : Departs runBlock context code frame block? offset effect handlers destination
      start final) :
    handlers.Sublist code.clauses ∧ handlers.Pairwise Clause.Within := by
  have ordered {listed : List Clause} {wanted : Clause → Bool} (part : listed.Sublist code.clauses)
      (guarding : ∀ clause, wanted clause → clause.guards block? offset) :
      (listed.filter wanted).Sublist code.clauses ∧
        (listed.filter wanted).Pairwise Clause.Within := by
    have filtered : (listed.filter wanted).Sublist code.clauses := List.filter_sublist.trans part
    have covers : ∀ clause ∈ listed.filter wanted, clause.covers offset := fun clause member =>
      Clause.covers_of_guards (guarding clause (List.mem_filter.mp member).2)
    exact ⟨filtered, Clause.pairwise_within nest innerFirst filtered covers⟩
  cases departs with
  | caught _ search | uncaught _ search =>
      exact ordered (passed_of_search search).1 fun _ => Clause.guards_of_unwinds
  | left => exact ordered (.refl _) fun _ => Clause.guards_of_leaves

end Following

/-! ## Executions -/

section Executions

variable {run : Runner} {code : MethodCode} {scope : Scope} {frame rounds index : Nat}
  {block? : Option Block} {constraint? : Option Token} {stack : List Value}
  {instruction : Instruction} {context : Context} {machine raised final : Machine}
  {effect : Effect} {handlers : List Clause} {destination : Destination}

/-- Executes an instruction up to its effect on the control flow. -/
def perform (run : Runner) (code : MethodCode) (scope : Scope) (frame : Nat)
    (instruction : Instruction) (constraint? : Option Token) (stack : List Value) :
    Exec Effect := do
  tick
  Exec.effect run code scope frame instruction constraint? stack

/-- Goes on after an effect, or ends. -/
def resume (run : Runner) (code : MethodCode) (scope : Scope) (frame rounds : Nat)
    (block? : Option Block) : Continuation → Exec BlockExit
  | .goOn index constraint? stack =>
    execute run code scope frame rounds block? index constraint? stack
  | .exit exit => return exit

theorem execute_of_perform (fetched : code.instructions[index]? = some instruction)
    (performed : perform run code scope frame instruction constraint? stack context machine =
      .ok effect raised) :
    execute run code scope frame (rounds + 1) block? index constraint? stack context machine =
      (follow (blockRunner run code scope frame rounds) code frame block? rounds index
        instruction.offset effect >>= resume run code scope frame rounds block?) context raised := by
  obtain ⟨_, ticked, counted, happened⟩ := bind_ok_iff.mp performed
  rw [execute, fetched]
  dsimp only
  rw [bind_of_ok counted, bind_of_ok happened]
  refine congrArg (fun piece : Exec BlockExit => piece context raised) ?_
  refine congrArg (_ >>= ·) (funext fun continuation => ?_)
  cases continuation <;> rfl

/-- A leave leads to a target of its instruction, so it lands in decoded code. -/
theorem lands_of_departs {runBlock : BlockRunner} (decoded : code.Decoded)
    (fetched : code.instructions[index]? = some instruction)
    (performed : perform run code scope frame instruction constraint? stack context machine =
      .ok effect raised)
    (departs : Departs runBlock context code frame block? instruction.offset effect handlers
      destination raised final) : destination.Lands code := by
  cases departs with
  | caught _ search =>
      exact decoded.handler_entry ((passed_of_search search).2.1 _ rfl)
  | uncaught => trivial
  | left =>
      obtain ⟨_, _, _, happened⟩ := bind_ok_iff.mp performed
      obtain ⟨outcome, _, caught, answered⟩ := bind_ok_iff.mp happened
      have isInstruction : instruction ∈ code.instructions.toList :=
        Array.mem_toList_iff.mpr (Array.mem_of_getElem? fetched)
      cases outcome with
      | error exception => cases answered
      | ok effect =>
          obtain ⟨rfl, rfl⟩ := pure_ok_iff.mp answered
          exact MethodCode.isSome_position? (decoded.targets instruction isInstruction _
            (mem_targets_of_step (catchThrown_ok_iff.mp caught) rfl))

/-- An instruction that throws or leaves makes the finally and fault handlers on the way run once
each, in the order of the table and the innermost first, if nothing disturbs it.  Only then
execution goes on: in the handler of the first clause that accepts the exception, outside, or at
the target. -/
theorem execute_departs (decoded : code.Decoded) (nest : Clause.Nest code.clauses)
    (innerFirst : Clause.InnerFirst code.clauses)
    (fetched : code.instructions[index]? = some instruction)
    (performed : perform run code scope frame instruction constraint? stack context machine =
      .ok effect raised) :
    ((∃ handlers destination final, Departs (blockRunner run code scope frame (rounds + 1)) context
        code frame block? instruction.offset effect handlers destination raised final) ↔
      Undisturbed (blockRunner run code scope frame (rounds + 1)) context code block?
        instruction.offset effect raised) ∧
    ∀ handlers destination final, Departs (blockRunner run code scope frame (rounds + 1)) context
        code frame block? instruction.offset effect handlers destination raised final →
      (followLog (blockRunner run code scope frame (rounds + 1)) context code frame block?
        (rounds + 1) index instruction.offset effect raised).1 =
          handlers.map runs ++ destination.events ∧
      handlers.Sublist code.clauses ∧ handlers.Pairwise Clause.Within ∧
      destination.Lands code ∧
      execute run code scope frame (rounds + 2) block? index constraint? stack context machine =
        (destination.reach code >>= resume run code scope frame (rounds + 1) block?) context
          final := by
  refine ⟨exists_departs_iff, fun handlers destination final departs => ?_⟩
  have log := @followLog_of_departs _ _ _ _ _ _ _ _ rounds index _ _ _ departs
  obtain ⟨once, innermostFirst⟩ := handlers_of_departs nest innerFirst departs
  refine ⟨congrArg Prod.fst log, once, innermostFirst,
    lands_of_departs decoded fetched performed departs, ?_⟩
  have followed := (followLog_snd ..).symm.trans (congrArg Prod.snd log)
  rw [execute_of_perform fetched performed, bind_run, followed, ← bind_run]

end Executions

end Exec

/-! ## An exception that passes two handlers -/

namespace Layered

open Exec UnwindingEvent

def bytes : List UInt8 :=
  [0x14, 0x7A, 0xDC, 0xDC, 0x26, 0x17, 0xFE, 0x11, 0x26, 0xDE, 0x00, 0x2A]

def cleanUp : Clause := ⟨.finallyBlock, 0, 2, 2, 1, none, 0⟩

def undo : Clause := ⟨.fault, 0, 3, 3, 1, none, 0⟩

def outer : Clause := ⟨.filter, 0, 4, 8, 3, none, 4⟩

def code : MethodCode :=
  ((MethodCode.ofBytes bytes [] [cleanUp, undo, outer] 8 true).toOption).getD default

theorem code_read : MethodCode.ofBytes bytes [] [cleanUp, undo, outer] 8 true = .ok code := by
  have reads : (MethodCode.ofBytes bytes [] [cleanUp, undo, outer] 8 true).toOption.isSome := by
    decide +kernel
  unfold code
  cases read : MethodCode.ofBytes bytes [] [cleanUp, undo, outer] 8 true with
  | error error => rw [read] at reads; cases reads
  | ok code => rfl

def context : Context := ⟨Module.initial, .standard⟩

def machine : Machine :=
  { Machine.ofModule Module.initial .standard with
    frames := #[{ arguments := #[], locals := #[] }] }

def throwing : Instruction := (code.instructions[1]?).getD default

/-- Throws null. -/
def thrown : EStateM.Result Error Machine Effect :=
  perform (activate 1) code {} 0 throwing none [.null] context machine

def raised : Machine :=
  match thrown with
  | .ok _ machine | .error _ machine => machine

theorem throws_first : (match thrown with
    | .ok (.thrown exception) _ => exception == ⟨1⟩
    | _ => false) = true := by
  decide +kernel

theorem throws : thrown = .ok (.thrown ⟨1⟩) raised := by
  have first := throws_first
  unfold raised
  split at first
  · rename_i performed
    rw [performed, eq_of_beq first]
  · cases first

abbrev runBlock : BlockRunner := blockRunner (activate 1) code {} 0 10

def asked : Machine :=
  match runBlock outer.filterBlock [.object ⟨1⟩] context raised with
  | .ok _ machine | .error _ machine => machine

theorem filter_answers : (match runBlock outer.filterBlock [.object ⟨1⟩] context raised with
    | .ok (.endFilter accepted) _ => accepted
    | _ => false) = true := by
  decide +kernel

theorem filter_accepts : runBlock outer.filterBlock [.object ⟨1⟩] context raised =
    .ok (.endFilter true) asked := by
  have accepts := filter_answers
  unfold asked
  split at accepts
  · rename_i ended
    rw [ended, accepts]
  · cases accepts

theorem handlers_run : (match runHandlers runBlock [cleanUp, undo] context asked with
    | .ok none _ => true
    | _ => false) = true := by
  decide +kernel

theorem handlers_end :
    ∃ ended, InTurn (Ends runBlock context) [cleanUp, undo] asked ended := by
  have ends := handlers_run
  split at ends
  · rename_i ended ran
    exact ⟨ended, runHandlers_ok_iff.mp ran⟩
  · cases ends

theorem exception_typed : ∃ type, raised.heap.typeOf ⟨1⟩ = .ok type := by
  have typed : (raised.heap.typeOf ⟨1⟩).toOption.isSome := by decide +kernel
  cases found : raised.heap.typeOf ⟨1⟩ with
  | error error => rw [found] at typed; cases typed
  | ok type => exact ⟨type, rfl⟩

/-- The filter is asked first; then the finally and the fault handler run before its handler. -/
theorem filter_receives : ∃ final,
    (followLog runBlock context code 0 none 10 1 throwing.offset (.thrown ⟨1⟩) raised).1 =
        [runs cleanUp, runs undo, receives outer ⟨1⟩] ∧
      [cleanUp, undo].Pairwise Clause.Within ∧
      execute (activate 1) code {} 0 11 none 1 none [.null] context machine =
        (goTo code 8 [.object ⟨1⟩] >>= resume (activate 1) code {} 0 10 none) context final := by
  obtain ⟨decoded, _, _, clauses⟩ := MethodCode.decoded_of_ofBytes code_read
  obtain ⟨type, typed⟩ := exception_typed
  obtain ⟨ended, ends⟩ := handlers_end
  have offset : throwing.offset = 1 := by decide +kernel
  have search : Search runBlock context (Clause.guards none throwing.offset) type ⟨1⟩
      code.clauses [cleanUp, undo] (some outer) raised asked := by
    have refused : InTurn (Answers runBlock context type ⟨1⟩ false)
        ([cleanUp, undo].filter (Clause.guards none 1)) raised raised :=
      .cons (.passes rfl rfl) (.cons (.passes rfl rfl) .nil)
    rw [clauses, offset]
    exact .accepted refused rfl (.filters rfl filter_accepts)
  have departs : ∃ final, Departs runBlock context code 0 none throwing.offset (.thrown ⟨1⟩)
      [cleanUp, undo] (.handler outer ⟨1⟩) raised final := by
    have onWay : [cleanUp, undo] =
        [cleanUp, undo].filter (Clause.unwinds none throwing.offset) := by
      rw [offset]
      rfl
    rw [onWay] at ends ⊢
    exact ⟨_, .caught typed search ends rfl⟩
  obtain ⟨final, departs⟩ := departs
  have nest : Clause.Nest code.clauses := by rw [clauses]; decide +kernel
  have innerFirst : Clause.InnerFirst code.clauses := by rw [clauses]; decide +kernel
  have fetched : code.instructions[1]? = some throwing := by decide +kernel
  obtain ⟨log, _, innermostFirst, _, executed⟩ :=
    (execute_departs decoded nest innerFirst fetched throws).2 _ _ _ departs
  exact ⟨final, log, innermostFirst, executed⟩

end Layered

end Cil
