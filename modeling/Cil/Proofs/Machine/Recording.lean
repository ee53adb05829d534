import Cil.Proofs.Machine.Agreement

/-!
# Recorded execution

The exceptions that handlers of a frame have received are forgotten when control leaves the
handlers, so they do not tell what has happened.  Execution is carried out here once more with a
record of what happens to handlers, in the blocks that it runs on the way, too: an exception is
delivered to one, control leaves one, and an instruction rethrows what one has received.  The
record changes nothing about the execution.
-/

namespace Cil

/-- What happens to the handlers that receive exceptions. -/
inductive HandlerEvent
  /-- The handler of a clause, given by its index, receives an exception. -/
  | delivers (index : Nat) (exception : HeapRef)
  /-- Control leaves from a position to another one, in the execution of a block or outside. -/
  | leaves (block? : Option Block) (origin target : Nat)
  /-- An instruction at a position looks for an exception to rethrow, and rethrows what it finds:
  a received exception, with the index of the clause that received it. -/
  | rethrows (position : Nat) (caught? : Option (Nat × HeapRef))
deriving DecidableEq, Repr

/-- A piece of execution with a record, the latest event first. -/
abbrev Traced := ReaderT Context (EStateM Error (Machine × List HandlerEvent))

namespace Traced

variable {α β : Type}

/-- A piece of execution in which nothing happens to handlers. -/
def lift (action : Exec α) : Traced α := fun context state =>
  match action context state.1 with
  | .ok value machine => .ok value (machine, state.2)
  | .error error machine => .error error (machine, state.2)

def note (event : HandlerEvent) : Traced Unit := fun _ state =>
  .ok () (state.1, event :: state.2)

def catchThrown (action : Traced α) : Traced (Except HeapRef α) := fun context state =>
  match action context state with
  | .ok value state => .ok (.ok value) state
  | .error (.thrown exception) state => .ok (.error exception) state
  | .error error state => .error error state

/-- A way of executing a block with a record. -/
abbrev BlockRunner := Block → (stack : List Value) → Traced BlockExit

theorem bind_run (first : Traced α) (next : α → Traced β) (context : Context)
    (state : Machine × List HandlerEvent) :
    (first >>= next) context state =
      match first context state with
      | .ok value middle => next value context middle
      | .error error middle => .error error middle := by
  change EStateM.bind (first context) (fun value => next value context) state = _
  unfold EStateM.bind
  cases first context state <;> rfl

/-! ## Unwinding -/

section Unwinding

variable (runBlock : BlockRunner)

def filterAccepts (clause : Clause) (exception : HeapRef) : Traced Bool := do
  match ← catchThrown (runBlock clause.filterBlock [.object exception]) with
  | .ok (.endFilter accepted) => return accepted
  | .ok _ => throw (.malformed (.filterWithoutEnd clause.filterOffset))
  | .error _ => return false

def accepts (clause : Clause) (type : Token) (exception : HeapRef) : Traced Bool := do
  match clause.kind with
  | .catchClause =>
    return clause.class?.any ((← lift Exec.module).isSubtypeOf type)
  | .filterClause => filterAccepts runBlock clause exception
  | .finallyClause | .faultClause => return false

def select? (type : Token) (exception : HeapRef) :
    List (Clause × Nat) → Traced (Option (Clause × Nat))
  | [] => return none
  | candidate :: rest => do
    if ← accepts runBlock candidate.1 type exception then return some candidate
    else select? type exception rest

def runHandler (clause : Clause) : Traced Unit := do
  match ← runBlock clause.handlerBlock [] with
  | .endFinally => return
  | _ => throw (.malformed (.handlerWithoutEnd clause.kind.name clause.handlerOffset))

def runHandlers : List Clause → Traced (Option Raised)
  | [] => return none
  | clause :: rest => do
    match ← catchThrown (runHandler runBlock clause) with
    | .ok () => runHandlers rest
    | .error exception => return some ⟨clause.handlerOffset, exception⟩

/-- A handler receives an exception. -/
def deliver (frame index : Nat) (exception : HeapRef) : Traced Unit := do
  lift (Exec.remember frame index exception)
  note (.delivers index exception)

def dispatch (clauses : List Clause) (frame : Nat) (block? : Option Block) :
    (rounds : Nat) → Raised → Traced Raised
  | 0, _ => throw .outOfFuel
  | rounds + 1, raised => do
    let type ← lift (Exec.readHeap (·.typeOf raised.exception))
    let guarding := Clause.guarding clauses block? (Clause.positionOf raised.offset)
    let selected? ← select? runBlock type raised.exception guarding
    match ← runHandlers runBlock (Clause.unwound guarding selected?) with
    | some replacement => dispatch clauses frame block? rounds replacement
    | none =>
      match selected? with
      | some (clause, index) =>
        deliver frame index raised.exception
        return ⟨clause.handlerOffset, raised.exception⟩
      | none => throw (.thrown raised.exception)

/-- Control leaves. -/
def depart (clauses : List Clause) (frame : Nat) (block? : Option Block)
    (origin target : Nat) : Traced Unit := do
  lift (Exec.forget clauses frame origin target)
  note (.leaves block? origin target)

def leave (clauses : List Clause) (frame : Nat) (block? : Option Block)
    (origin target : Nat) : Traced (Option Raised) := do
  let origin := Clause.positionOf origin
  let target := Clause.positionOf target
  match ← runHandlers runBlock (Clause.left clauses block? origin target) with
  | some raised => return some raised
  | none =>
    depart clauses frame block? origin target
    return none

end Unwinding

/-! ## Instructions -/

/-- The latest received exception that a handler around a position has received, with the index
of the handler's clause. -/
def entryAround? (clauses : List Clause) (position : Nat) (caught : List (Nat × HeapRef)) :
    Option (Nat × HeapRef) :=
  caught.find? fun (index, _) => clauses[index]?.any (·.inHandler position)

/-- Rethrows a received exception. -/
def rethrow (clauses : List Clause) (frame : Nat) (instruction : Instruction) :
    Traced Effect := do
  let position := Clause.positionOf instruction.offset
  let caught? := entryAround? clauses position (← lift (Exec.frameAt frame)).caught
  note (.rethrows position caught?)
  match caught? with
  | some (_, exception) => return .thrown exception
  | none => throw (.malformed (.rethrowOutsideHandler instruction.offset))

/-- The effect of an instruction. -/
def effect (run : Runner) (code : MethodCode) (scope : Scope) (frame : Nat)
    (instruction : Instruction) (constraint? : Option Token) (stack : List Value) :
    Traced Effect :=
  if instruction.opcode.action? = some .rethrow then rethrow code.clauses frame instruction
  else lift (Exec.effect run code scope frame instruction constraint? stack)

def goTo (code : MethodCode) (offset : Nat) (stack : List Value) : Traced Exec.Continuation :=
  lift (Exec.goTo code offset stack)

def handle (runBlock : BlockRunner) (code : MethodCode) (frame : Nat) (block? : Option Block)
    (rounds : Nat) (raised : Raised) : Traced Exec.Continuation := do
  let handled ← dispatch runBlock code.clauses frame block? rounds raised
  goTo code handled.offset [.object handled.exception]

def follow (runBlock : BlockRunner) (code : MethodCode) (frame : Nat) (block? : Option Block)
    (rounds index offset : Nat) : Effect → Traced Exec.Continuation
  | .next stack constraint? => return .goOn (index + 1) constraint? stack
  | .jump target stack => goTo code target stack
  | .leave target => do
    match ← leave runBlock code.clauses frame block? offset target with
    | none => goTo code target []
    | some raised => handle runBlock code frame block? rounds raised
  | .thrown exception => handle runBlock code frame block? rounds ⟨offset, exception⟩
  | .returned value => return .exit (.returned value)
  | .endFinally => return .exit .endFinally
  | .endFilter accepted => return .exit (.endFilter accepted)

def execute (run : Runner) (code : MethodCode) (scope : Scope) (frame : Nat) :
    (rounds : Nat) → (block? : Option Block) → (index : Nat) →
    (constraint? : Option Token) → (stack : List Value) → Traced BlockExit
  | 0, _, _, _, _ => throw .outOfFuel
  | rounds + 1, block?, index, constraint?, stack => do
    let some instruction := code.instructions[index]?
      | throw (.malformed (.pastTheEnd code.codeSize))
    lift Exec.tick
    let effect ← effect run code scope frame instruction constraint? stack
    let runBlock : BlockRunner := fun block stack => do
      execute run code scope frame rounds (some block) (← lift (Exec.position code block.start))
        none stack
    match ← follow runBlock code frame block? rounds index instruction.offset effect with
    | .goOn index constraint? stack =>
      execute run code scope frame rounds block? index constraint? stack
    | .exit exit => return exit

def executeCode (run : Runner) (code : MethodCode) (scope : Scope) (frame : Nat) :
    Traced Value := do
  let rounds := (← read).limits.rounds
  match ← execute run code scope frame rounds none (← lift (Exec.position code 0)) none [] with
  | .returned value => return value
  | .endFinally | .endFilter _ => throw (.malformed .endOutsideHandler)

/-! ## The record changes nothing -/

/-- The outcome of a recorded execution, without the record. -/
def erase : EStateM.Result Error (Machine × List HandlerEvent) α →
    EStateM.Result Error Machine α
  | .ok value state => .ok value state.1
  | .error error state => .error error state.1

/-- A piece of execution is recorded by another one: without the record they are the same. -/
def Records (recorded : Traced α) (action : Exec α) : Prop :=
  ∀ context machine events,
    erase (recorded context (machine, events)) = action context machine

namespace Records

theorem bind {first : Traced α} {action : Exec α} {next : α → Traced β} {rest : α → Exec β}
    (firsts : Records first action) (nexts : ∀ value, Records (next value) (rest value)) :
    Records (first >>= next) (action >>= rest) := by
  intro context machine events
  rw [bind_run, Exec.bind_run, ← firsts context machine events]
  cases first context (machine, events) with
  | ok value state => exact nexts value context state.1 state.2
  | error error state => rfl

theorem pure (value : α) : Records (pure value) (pure value) := fun _ _ _ => rfl

theorem throw (error : Error) : Records (throw error : Traced α) (throw error) :=
  fun _ _ _ => rfl

theorem lift (action : Exec α) : Records (lift action) action := by
  intro context machine events
  unfold Traced.lift
  dsimp only
  cases action context machine <;> rfl

/-- To note an event is not noticed. -/
theorem note_bind {event : HandlerEvent} {next : Traced α} {action : Exec α}
    (nexts : Records next action) : Records (note event >>= fun _ => next) action :=
  fun context machine events => nexts context machine (event :: events)

theorem lift_note {action : Exec Unit} (event : HandlerEvent) :
    Records (do Traced.lift action; note event) action := by
  intro context machine events
  rw [bind_run]
  unfold Traced.lift
  dsimp only
  cases action context machine <;> rfl

theorem catchThrown {recorded : Traced α} {action : Exec α} (records : Records recorded action) :
    Records (catchThrown recorded) (Exec.catchThrown action) := by
  intro context machine events
  unfold Traced.catchThrown Exec.catchThrown
  rw [← records context machine events]
  cases recorded context (machine, events) with
  | ok value state => rfl
  | error error state => cases error <;> rfl

end Records

section Unwinding

variable {runBlock : BlockRunner} {block : Exec.BlockRunner}
  (blocks : ∀ range stack, Records (runBlock range stack) (block range stack))

include blocks

theorem records_accepts (clause : Clause) (type : Token) (exception : HeapRef) :
    Records (accepts runBlock clause type exception)
      (Exec.accepts block clause type exception) := by
  unfold accepts Exec.accepts
  cases clause.kind with
  | catchClause => exact .bind (.lift _) fun _ => .pure _
  | filterClause =>
      refine .bind (.catchThrown (blocks _ _)) fun outcome => ?_
      cases outcome with
      | error exception => exact .pure _
      | ok exit =>
          cases exit with
          | endFilter accepted => exact .pure _
          | _ => exact .throw _
  | finallyClause | faultClause => exact .pure _

theorem records_select? (type : Token) (exception : HeapRef) (candidates : List (Clause × Nat)) :
    Records (select? runBlock type exception candidates)
      (Exec.select? block type exception candidates) := by
  induction candidates with
  | nil => exact .pure _
  | cons candidate rest ih =>
      refine .bind (records_accepts blocks _ _ _) fun accepted => ?_
      split
      · exact .pure _
      · exact ih

theorem records_runHandlers (clauses : List Clause) :
    Records (runHandlers runBlock clauses) (Exec.runHandlers block clauses) := by
  induction clauses with
  | nil => exact .pure _
  | cons clause rest ih =>
      have handler : Records (runHandler runBlock clause) (Exec.runHandler block clause) := by
        refine .bind (blocks _ _) fun exit => ?_
        cases exit with
        | endFinally => exact .pure _
        | _ => exact .throw _
      refine .bind (.catchThrown handler) fun outcome => ?_
      cases outcome with
      | ok value => exact ih
      | error exception => exact .pure _

variable (clauses : List Clause) (frame : Nat) (block? : Option Block)

theorem records_dispatch (rounds : Nat) (raised : Raised) :
    Records (dispatch runBlock clauses frame block? rounds raised)
      (Exec.dispatch block clauses frame block? rounds raised) := by
  induction rounds generalizing raised with
  | zero => exact .throw _
  | succ rounds ih =>
      refine .bind (.lift _) fun type => .bind (records_select? blocks _ _ _) fun selected? =>
        .bind (records_runHandlers blocks _) fun replacement? => ?_
      cases replacement? with
      | some replacement => exact ih replacement
      | none =>
          cases selected? with
          | some selected => exact .bind (.lift_note _) fun _ => .pure _
          | none => exact .throw _

theorem records_leave (origin target : Nat) :
    Records (leave runBlock clauses frame block? origin target)
      (Exec.leave block clauses frame block? origin target) := by
  refine .bind (records_runHandlers blocks _) fun raised? => ?_
  cases raised? with
  | some raised => exact .pure _
  | none => exact .bind (.lift_note _) fun _ => .pure _

theorem records_follow (code : MethodCode) (rounds index offset : Nat) (effect : Effect) :
    Records (follow runBlock code frame block? rounds index offset effect)
      (Exec.follow block code frame block? rounds index offset effect) := by
  have handles (raised : Raised) : Records (handle runBlock code frame block? rounds raised)
      (Exec.handle block code frame block? rounds raised) :=
    .bind (records_dispatch blocks _ _ _ _ _) fun _ => .lift _
  cases effect with
  | leave target =>
      refine .bind (records_leave blocks _ _ _ _ _) fun raised? => ?_
      cases raised? with
      | none => exact .lift _
      | some raised => exact handles raised
  | thrown exception => exact handles _
  | jump target stack => exact .lift _
  | next | returned | endFinally | endFilter => exact .pure _

end Unwinding

theorem effect_rethrow {run : Runner} {code : MethodCode} {scope : Scope} {frame : Nat}
    {instruction : Instruction} {constraint? : Option Token} {stack : List Value}
    (acts : instruction.opcode.action? = some .rethrow) :
    Exec.effect run code scope frame instruction constraint? stack = (do
      let slots ← Exec.frameAt frame
      match entryAround? code.clauses (Clause.positionOf instruction.offset) slots.caught with
      | some (_, exception) => return .thrown exception
      | none => throw (.malformed (.rethrowOutsideHandler instruction.offset))) := by
  have step : Exec.step run code.clauses scope frame instruction constraint? stack = (do
      return .thrown (← Exec.rethrown frame code.clauses instruction)) := by
    unfold Exec.step
    rw [acts]
  funext context machine
  simp only [Exec.effect, step, Exec.catchThrown, Exec.rethrown, Exec.frameAt, Exec.bind_run,
    Exec.get_run]
  cases machine.frames[frame]? with
  | none => rfl
  | some slots =>
      unfold entryAround?
      dsimp only [Exec.pure_run]
      rcases slots.caught.find? _ with _ | ⟨index, exception⟩ <;> rfl

theorem records_rethrow {run : Runner} {code : MethodCode} {scope : Scope} {frame : Nat}
    {instruction : Instruction} {constraint? : Option Token} {stack : List Value}
    (acts : instruction.opcode.action? = some .rethrow) :
    Records (rethrow code.clauses frame instruction)
      (Exec.effect run code scope frame instruction constraint? stack) := by
  rw [effect_rethrow acts]
  refine .bind (.lift _) fun slots => .note_bind ?_
  rcases entryAround? _ _ slots.caught with _ | ⟨index, exception⟩
  · exact .throw _
  · exact .pure _

theorem records_effect (run : Runner) (code : MethodCode) (scope : Scope) (frame : Nat)
    (instruction : Instruction) (constraint? : Option Token) (stack : List Value) :
    Records (effect run code scope frame instruction constraint? stack)
      (Exec.effect run code scope frame instruction constraint? stack) := by
  unfold effect
  split
  · rename_i acts
    exact records_rethrow acts
  · exact .lift _

theorem records_execute (run : Runner) (code : MethodCode) (scope : Scope) (frame rounds : Nat)
    (block? : Option Block) (index : Nat) (constraint? : Option Token) (stack : List Value) :
    Records (execute run code scope frame rounds block? index constraint? stack)
      (Exec.execute run code scope frame rounds block? index constraint? stack) := by
  induction rounds generalizing block? index constraint? stack with
  | zero => exact .throw _
  | succ rounds ih =>
      unfold execute Exec.execute
      cases code.instructions[index]? with
      | none => exact .throw _
      | some instruction =>
          refine .bind (.lift _) fun _ => .bind (records_effect _ _ _ _ _ _ _) fun effect =>
            .bind (records_follow (fun block stack => .bind (.lift _) fun start => ih _ _ _ _)
              _ _ _ _ _ _ _) fun continuation => ?_
          cases continuation with
          | goOn index constraint? stack => exact ih _ _ _ _
          | exit exit => exact .pure _

/-- Without the record, recorded execution is execution. -/
theorem records_executeCode (run : Runner) (code : MethodCode) (scope : Scope) (frame : Nat) :
    Records (executeCode run code scope frame) (Exec.executeCode run code scope frame) := by
  have limits : Records (read : Traced Context) (read : Exec Context) := fun _ _ _ => rfl
  refine .bind limits fun context => .bind (.lift _) fun start =>
    .bind (records_execute _ _ _ _ _ _ _ _ _) fun exit => ?_
  cases exit with
  | returned value => exact .pure _
  | endFinally | endFilter => exact .throw _

end Traced

end Cil
