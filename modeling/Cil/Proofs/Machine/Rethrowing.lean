import Cil.Proofs.Machine.HandlerRuns

/-!
# What is rethrown

An instruction that rethrows inside of a handler looks for the exception that was delivered to
the innermost handler around it most recently.  In code whose clauses nest and whose handlers are
entered by dispatch only, it finds that exception, unless control has left the handler in the
meantime without coming out of it: in the execution of a finally, fault or filter block that does
not see the clause.  Then the exception is forgotten.
-/

namespace Cil

open Stateful

namespace HandlerEvent

open Clause

variable {clauses : List Clause} {position : Nat}

/-- The clause receives exceptions in the innermost handler around a position. -/
structure Innermost (clauses : List Clause) (position : Nat) (handler : Clause) : Prop where
  mem : handler ∈ clauses
  receiver : handler.isReceiver
  inside : handler.inHandler position
  within : ∀ other ∈ clauses, other.isReceiver → other.inHandler position →
    handler.handlerBlock.Within other.handlerBlock

/-- An exception was delivered to a handler around a position, through the clause at an index, and
nothing was delivered to any handler around the position after that. -/
structure LatestDelivery (clauses : List Clause) (position : Nat) (handler : Clause)
    (events after : List HandlerEvent) (index : Nat) (exception : HeapRef)
    (before : List HandlerEvent) : Prop where
  events : events = after ++ delivers index exception :: before
  same : ∃ clause, clauses[index]? = some clause ∧ clause.handlerBlock = handler.handlerBlock
  latest : ∀ other thrown, delivers other thrown ∈ after →
    ∀ clause, clauses[other]? = some clause → clause.inHandler position = false

/-- Control leaves the handler of a clause. -/
def abandons (clause : Clause) : HandlerEvent → Bool
  | leaves _ origin target => clause.exits origin target
  | _ => false

/-- Control leaves in the execution of a block that does not see a clause. -/
def overlooks (clause : Clause) : HandlerEvent → Bool
  | leaves block? _ _ => !clause.isVisible block?
  | _ => false

/-- What an instruction finds to rethrow in a handler that receives exceptions: what was delivered
to the innermost one most recently, unless control has left that handler since.  It has done so
only in the execution of blocks that do not see its clause. -/
def FindsLatest (clauses : List Clause) (position : Nat) (caught? : Option (Nat × HeapRef))
    (earlier : List HandlerEvent) : Prop :=
  ∀ handler, Innermost clauses position handler →
    ∃ after index exception before,
      LatestDelivery clauses position handler earlier after index exception before ∧
        (caught? = some (index, exception) ↔
          ∀ event ∈ after, event.abandons handler = false) ∧
        ∀ event ∈ after, event.abandons handler → ∀ clause, clauses[index]? = some clause →
          event.overlooks clause

/-- Where control is in a handler that receives exceptions, it is in an innermost one. -/
theorem exists_innermost (nested : WellNested clauses) {clause : Clause}
    (member : clause ∈ clauses) (receiver : clause.isReceiver)
    (inside : clause.inHandler position) : ∃ handler, Innermost clauses position handler := by
  by_cases smallest : ∀ other ∈ clauses, other.isReceiver → other.inHandler position →
      clause.handlerBlock.Within other.handlerBlock
  · exact ⟨clause, member, receiver, inside, smallest⟩
  · obtain ⟨other, isOther, receives, insideOther, larger⟩ :
        ∃ other ∈ clauses, other.isReceiver ∧ other.inHandler position ∧
          ¬ clause.handlerBlock.Within other.handlerBlock := by
      simpa using smallest
    have within : other.handlerBlock.Within clause.handlerBlock :=
      (nested.handlers_within member isOther inside insideOther).resolve_left larger
    exact exists_innermost nested isOther receives insideOther
termination_by clause.handlerEnd - clause.handlerOffset
decreasing_by
  simp only [Clause.inHandler, Bool.and_eq_true, decide_eq_true_eq] at inside
  unfold Block.Within handlerBlock at within larger
  dsimp only at within larger
  omega

/-- An exception is forgotten when control leaves the handler that has received it. -/
theorem keeps_eq {index : Nat} {clause : Clause} (found : clauses[index]? = some clause)
    (exception : HeapRef) (event : HandlerEvent) :
    event.keeps clauses (index, exception) = !event.abandons clause := by
  cases event with
  | leaves block? origin target => simp [keeps, abandons, exits, found]
  | delivers other thrown => rfl
  | rethrows place caught? => rfl

/-- A delivery to a handler around a position is the entry that is found there unless it is
forgotten, if nothing was delivered to a handler around the position after it. -/
theorem entryAround?_eq_iff {after before : List HandlerEvent} {index : Nat}
    {exception : HeapRef} {clause : Clause} (found : clauses[index]? = some clause)
    (inside : clause.inHandler position)
    (latest : ∀ other thrown, delivers other thrown ∈ after →
      ∀ clause, clauses[other]? = some clause → clause.inHandler position = false) :
    Traced.entryAround? clauses position
        (received clauses (after ++ delivers index exception :: before)) =
        some (index, exception) ↔
      ∀ event ∈ after, event.abandons clause = false := by
  have later : (received clauses after).find? (fun entry =>
      clauses[entry.1]?.any (·.inHandler position)) = none := by
    refine List.find?_eq_none.mpr fun entry member => ?_
    have outside := latest entry.1 entry.2 (delivers_mem_of_mem_received member)
    cases isClause : clauses[entry.1]? with
    | none => simp
    | some other => simp [outside other isClause]
  have kept : (after.all fun event => event.keeps clauses (index, exception)) = true ↔
      ∀ event ∈ after, event.abandons clause = false := by
    simp [List.all_eq_true, keeps_eq found]
  rw [Traced.entryAround?, received_append, List.find?_append, later, Option.none_or,
    ← kept, received]
  constructor
  · intro finds
    exact (List.mem_filter.mp (List.mem_of_find?_eq_some finds)).2
  · intro isKept
    rw [List.filter_cons, if_pos isKept]
    exact List.find?_cons_of_pos (by simp [found, inside])

theorem findsLatest {earlier : List HandlerEvent} {caught? : Option (Nat × HeapRef)}
    (permitted : ∀ event ∈ earlier, event.Permitted clauses none)
    (current : Current clauses earlier position)
    (faithful : caught? = Traced.entryAround? clauses position (received clauses earlier)) :
    FindsLatest clauses position caught? earlier := by
  intro handler innermost
  obtain ⟨after, index, exception, before, clause, delivered⟩ :=
    current handler innermost.mem innermost.receiver innermost.inside
  obtain rfl := delivered.events
  have inside : clause.inHandler position :=
    inHandler_congr delivered.same position ▸ innermost.inside
  have latest (other : Nat) (thrown : HeapRef) (isAfter : delivers other thrown ∈ after)
      (receiving : Clause) (isClause : clauses[other]? = some receiving) :
      receiving.inHandler position = false := by
    obtain ⟨same, receives, -⟩ := permitted _ (List.mem_append_left _ isAfter)
    obtain rfl : same = receiving := Option.some.inj (receives.found.symm.trans isClause)
    refine Bool.eq_false_iff.mpr fun around => ?_
    obtain ⟨inner, different⟩ := delivered.spared _ isAfter same receives around
    have outer := innermost.within same receives.mem receives.receiver around
    rw [← delivered.same] at outer
    exact different (inner.antisymm outer)
  have abandons_eq (event : HandlerEvent) : event.abandons clause = event.abandons handler := by
    cases event with
    | leaves block? origin target => simp [abandons, exits, inHandler_congr delivered.same]
    | delivers other thrown => rfl
    | rethrows place caught? => rfl
  refine ⟨after, index, exception, before,
    ⟨rfl, ⟨clause, delivered.receives.found, delivered.same⟩, latest⟩, ?_, ?_⟩
  · rw [faithful, entryAround?_eq_iff delivered.receives.found inside latest]
    simp only [abandons_eq]
  · intro event isAfter abandons same isClause
    obtain rfl : clause = same :=
      Option.some.inj (delivered.receives.found.symm.trans isClause)
    have spares := delivered.spared event isAfter
    rw [← abandons_eq] at abandons
    cases event with
    | leaves block? origin target =>
        cases visible : clause.isVisible block? with
        | false => simp [overlooks, visible]
        | true => exact absurd abandons (Bool.eq_false_iff.mp (spares visible))
    | delivers other thrown => cases abandons
    | rethrows place caught? => cases abandons

end HandlerEvent

namespace Traced

open Clause HandlerEvent

/-- In code whose clauses nest and whose handlers are entered by dispatch only, an instruction
that rethrows finds what was delivered most recently to the innermost handler around it, unless
control has left that handler in the execution of a block that does not see it. -/
theorem rethrows_latest {code : MethodCode} (nested : WellNested code.clauses)
    (entered : code.EnteredByDispatch) (calls : Nat) (scope : Scope) (frame : Nat)
    (context : Context) (machine : Machine) (fresh : machine.caught[frame]? = some []) :
    let outcome := executeCode (Exec.activate calls) code scope frame context (machine, [])
    erase outcome = Exec.executeCode (Exec.activate calls) code scope frame context machine ∧
      EachRethrow (FindsLatest code.clauses) (finalState outcome).2 := by
  refine ⟨records_executeCode _ _ _ _ _ _ _, ?_⟩
  have executes : Leads (Extends code.clauses none []) (· = [])
      (executeCode (Exec.activate calls) code scope frame) _ := leads_executeCode nested entered
  have since : Extends code.clauses none [] (finalState (executeCode (Exec.activate calls)
      code scope frame context (machine, []))).2 := by
    have led := executes context (machine, []) rfl
    cases ran : executeCode (Exec.activate calls) code scope frame context (machine, []) <;>
      rw [ran] at led <;> exact led
  have faithful := faithful_executeCode calls code scope context fresh
  obtain ⟨recent, isRecent, permitted⟩ := since.recent
  rw [List.append_nil] at isRecent
  intro later position caught? earlier split
  refine findsLatest (fun event isEarlier => permitted event ?_)
    (since.sound later position caught? earlier split)
    (faithful later position caught? earlier split)
  rw [← isRecent, split]
  exact List.mem_append_right _ (List.mem_cons_of_mem _ isEarlier)

end Traced

/-! ## A finally handler on the way to the instruction -/

namespace CleanedUp

open Clause HandlerEvent

/-- A handler that passes a finally handler before it rethrows what it has received. -/
def bytes (cleanUp : List UInt8) : List UInt8 :=
  [0x14, 0x7A, 0x26, 0xDE, 0x05] ++ cleanUp ++
    [0x26, 0xDE, 0x00, 0xFE, 0x1A, 0x17, 0x16, 0x5B, 0x26, 0x2A]

/-- The finally handler ends. -/
def ends : List UInt8 := [0x00, 0xDC]

/-- The finally handler leaves, for a target outside of the handler around it. -/
def leaves : List UInt8 := [0xDE, 0x05]

def clauses : List Clause :=
  [⟨.finallyBlock, 3, 2, 5, 2, none, 0⟩, ⟨.exception, 3, 4, 7, 3, some Core.object, 0⟩,
    ⟨.exception, 0, 2, 2, 10, some Core.object, 0⟩]

def code (cleanUp : List UInt8) : MethodCode :=
  ((MethodCode.ofBytes (bytes cleanUp) [] clauses 8 true).toOption).getD default

def context : Context := ⟨Module.initial, .standard⟩

def machine : Machine :=
  { Machine.ofModule Module.initial .standard with
    frames := #[{ arguments := #[], locals := #[] }] }

def record (cleanUp : List UInt8) : List HandlerEvent :=
  (finalState (Traced.executeCode (Exec.activate 1) (code cleanUp) {} 0 context
    (machine, []))).2

theorem code_decoded {cleanUp : List UInt8}
    (decodes : (MethodCode.ofBytes (bytes cleanUp) [] clauses 8 true).toOption.isSome) :
    MethodCode.ofBytes (bytes cleanUp) [] clauses 8 true = .ok (code cleanUp) := by
  unfold code
  cases read : MethodCode.ofBytes (bytes cleanUp) [] clauses 8 true with
  | error error => rw [read] at decodes; cases decodes
  | ok code => rfl

/-- Behind a finally handler that ends, the exception is still there. -/
theorem rethrown_behind_end :
    record ends = [.rethrows 10 (some (2, ⟨1⟩)), .leaves none 3 10, .delivers 2 ⟨1⟩] ∧
      EachRethrow (FindsLatest (code ends).clauses) (record ends) := by
  have nested : WellNested (code ends).clauses := by decide +kernel
  have entered : (code ends).EnteredByDispatch := by decide +kernel
  exact ⟨by decide +kernel,
    (Traced.rethrows_latest nested entered 1 {} 0 context machine rfl).2⟩

/-- A finally handler that leaves makes the handler around it forget what it has received, although
the exception that escapes from the finally handler brings control back into that handler. -/
theorem forgotten_behind_leave :
    ¬ ∀ (bytes : List UInt8) (locals : List LocalVariable) (clauses : List Clause)
      (maxStack : Nat) (initLocals : Bool) (code : MethodCode),
      MethodCode.ofBytes bytes locals clauses maxStack initLocals = .ok code →
      WellNested code.clauses → code.EnteredByDispatch →
      ∀ (calls : Nat) (scope : Scope) (frame : Nat) (context : Context) (machine : Machine),
        machine.caught[frame]? = some [] →
        EachRethrow (fun position caught? earlier =>
          ∀ handler, Innermost code.clauses position handler →
            ∃ after index exception before,
              LatestDelivery code.clauses position handler earlier after index exception before ∧
                caught?.map (·.2) = some exception)
          (finalState (Traced.executeCode (Exec.activate calls) code scope frame context
            (machine, []))).2 := by
  intro finds
  have nested : WellNested (code leaves).clauses := by decide +kernel
  have entered : (code leaves).EnteredByDispatch := by decide +kernel
  have found := finds _ _ _ _ _ _ (code_decoded (by decide +kernel)) nested entered 1 {} 0 context
    machine rfl
  have happened : record leaves = .rethrows 10 none :: (record leaves).tail := by decide +kernel
  have innermost : Innermost (code leaves).clauses 10
      ⟨.exception, 0, 2, 2, 10, some Core.object, 0⟩ :=
    ⟨by decide +kernel, by decide +kernel, by decide +kernel, by decide +kernel⟩
  obtain ⟨_, _, _, _, -, nothing⟩ := found [] 10 none _ happened _ innermost
  cases nothing

end CleanedUp

end Cil
