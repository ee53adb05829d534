import Cil.Proofs.Machine.CallsInProgress
import Cil.Proofs.Machine.Recording

/-!
# The exceptions that handlers have received

What the handlers of a frame have received and not forgotten can be read off the record of what
happened to them.  Calls do not get in the way: a call has a frame of its own, which is gone when
it ends, and everything else leaves alone what was received.
-/

namespace Cil

open Stateful

namespace HandlerEvent

variable (clauses : List Clause)

/-- Whether a received exception is not forgotten at an event. -/
def keeps (entry : Nat × HeapRef) : HandlerEvent → Bool
  | leaves _ origin target =>
    clauses[entry.1]?.any fun clause => !clause.inHandler origin || clause.inHandler target
  | _ => true

/-- The exceptions that are received and not forgotten in a record, the latest first, each with
the index of the clause that received it. -/
def received : List HandlerEvent → List (Nat × HeapRef)
  | [] => []
  | delivers index exception :: earlier => (index, exception) :: received earlier
  | leaves block? origin target :: earlier =>
    (received earlier).filter fun entry => (leaves block? origin target).keeps clauses entry
  | rethrows _ _ :: earlier => received earlier

variable {clauses}

/-- What was received before some events is still known unless it is forgotten at one of them. -/
theorem received_append (after before : List HandlerEvent) :
    received clauses (after ++ before) = received clauses after ++
      (received clauses before).filter fun entry => after.all (·.keeps clauses entry) := by
  induction after with
  | nil => exact (List.filter_eq_self.mpr fun _ _ => rfl).symm
  | cons event after ih =>
      cases event with
      | delivers index exception => simp [received, ih, keeps]
      | rethrows position caught? => simp [received, ih, keeps]
      | leaves block? origin target => simp [received, ih]

theorem delivers_mem_of_mem_received {events : List HandlerEvent} {entry : Nat × HeapRef}
    (member : entry ∈ received clauses events) : delivers entry.1 entry.2 ∈ events := by
  induction events with
  | nil => cases member
  | cons event earlier ih =>
      cases event with
      | delivers index exception =>
          rcases List.mem_cons.mp member with rfl | member
          · exact List.mem_cons_self
          · exact List.mem_cons_of_mem _ (ih member)
      | rethrows position caught? => exact List.mem_cons_of_mem _ (ih member)
      | leaves block? origin target =>
          exact List.mem_cons_of_mem _ (ih (List.mem_filter.mp member).1)

/-- Whenever a record says that an instruction looks for an exception to rethrow, something holds
of its position, of what it finds, and of what happened before. -/
def EachRethrow (holds : Nat → Option (Nat × HeapRef) → List HandlerEvent → Prop)
    (events : List HandlerEvent) : Prop :=
  ∀ later position caught? earlier,
    events = later ++ rethrows position caught? :: earlier → holds position caught? earlier

variable {holds : Nat → Option (Nat × HeapRef) → List HandlerEvent → Prop}

theorem eachRethrow_nil : EachRethrow holds [] := by
  intro later position caught? earlier split
  simp at split

theorem eachRethrow_cons {event : HandlerEvent} {earlier : List HandlerEvent} :
    EachRethrow holds (event :: earlier) ↔
      (∀ position caught?, event = rethrows position caught? → holds position caught? earlier) ∧
        EachRethrow holds earlier := by
  constructor
  · intro each
    refine ⟨?_, fun later position caught? before split => ?_⟩
    · rintro position caught? rfl
      exact each [] position caught? earlier rfl
    · exact each (event :: later) position caught? before (congrArg (event :: ·) split)
  · rintro ⟨first, rest⟩ later position caught? before split
    cases later with
    | nil =>
        obtain ⟨rfl, rfl⟩ := List.cons.inj split
        exact first position caught? rfl
    | cons other later => exact rest later position caught? before (List.cons.inj split).2

end HandlerEvent

/-! ## What leaves received exceptions alone -/

namespace Machine

/-- What the handlers of a frame have received changes. -/
theorem caught_receive (machine : Machine) (frame : Nat)
    (change : List (Nat × HeapRef) → List (Nat × HeapRef)) :
    ({ machine with frames := machine.frames.modify frame fun slots =>
      { slots with caught := change slots.caught } } : Machine).caught =
      machine.caught.modify frame change := by
  apply List.ext_getElem?
  intro place
  simp only [caught, Array.toList_modify, List.getElem?_map, List.getElem?_modify]
  cases machine.frames.toList[place]? with
  | none => rfl
  | some slots => by_cases same : frame = place <;> simp [same]

@[simp]
theorem length_caught (machine : Machine) : machine.caught.length = machine.frames.size := by
  simp [caught]

theorem caught_push (machine : Machine) (frame : Frame) :
    ({ machine with frames := machine.frames.push frame } : Machine).caught =
      machine.caught ++ [frame.caught] := by
  simp [caught]

theorem caught_shrink (machine : Machine) (count : Nat) :
    ({ machine with frames := machine.frames.shrink count } : Machine).caught =
      machine.caught.take count := by
  simp [caught]

end Machine

namespace Exec

variable {α β : Type} {context : Context}

/-- A piece of execution after which handlers have received what they had received before. -/
def KeepsCaught (action : Exec α) : Prop :=
  ∀ context start, Keeps (Machine.SameCaught start) (action context)

namespace KeepsCaught

theorem bind {first : Exec α} {next : α → Exec β} (kept : KeepsCaught first)
    (nexts : ∀ value, KeepsCaught (next value)) : KeepsCaught (first >>= next) :=
  fun context start => (kept context start).bind fun value => nexts value context start

theorem of_finalState {action : Exec α}
    (same : ∀ context (machine : Machine),
      machine.SameCaught (finalState (action context machine))) : KeepsCaught action :=
  fun context _ machine before => before.trans (same context machine)

theorem same {action : Exec α} (kept : KeepsCaught action) (context : Context)
    (machine : Machine) : machine.SameCaught (finalState (action context machine)) :=
  kept context machine machine (.refl machine)

theorem catchThrown {action : Exec α} (kept : KeepsCaught action) :
    KeepsCaught (catchThrown action) := by
  refine .of_finalState fun context machine => ?_
  have same := kept.same context machine
  unfold Exec.catchThrown
  rcases ran : action context machine with ⟨value, final⟩ | ⟨error, final⟩
  · rw [ran] at same
    exact same
  · rw [ran] at same
    cases error <;> exact same

theorem andFinally {action : Exec α} (kept : KeepsCaught action) {cleanUp : Machine → Machine}
    (same : ∀ machine : Machine, machine.SameCaught (cleanUp machine)) :
    KeepsCaught (andFinally action cleanUp) := by
  refine .of_finalState fun context machine => ?_
  have inner := kept.same context machine
  unfold Exec.andFinally
  cases ran : action context machine <;> rw [ran] at inner <;> exact inner.trans (same _)

theorem asCall {action : Exec α} (kept : KeepsCaught action) : KeepsCaught (asCall action) := by
  have counted : KeepsCaught
      (Exec.andFinally action fun machine => { machine with depth := machine.depth - 1 }) :=
    kept.andFinally fun _ => rfl
  refine .of_finalState fun context machine => ?_
  rw [asCall_run]
  split
  · exact .refl machine
  · exact counted.same context { machine with depth := machine.depth + 1 }

/-- Frames that are pushed and dropped again make no difference to those below. -/
theorem of_pushed {first final : Machine} {slots : Frame}
    (kept : final.caught.take first.frames.size =
      ({ first with frames := first.frames.push slots } : Machine).caught.take
        first.frames.size) :
    first.SameCaught { final with frames := final.frames.shrink first.frames.size } := by
  unfold Machine.SameCaught
  rw [Machine.caught_shrink, kept, Machine.caught_push, List.take_left' first.length_caught]

theorem withTemporary {initial : Value} {use : Pointer → Exec Unit}
    (uses : ∀ location, KeepsCaught (use location)) :
    KeepsCaught (withTemporary initial use) := by
  refine .of_finalState fun context machine => ?_
  rw [withTemporary_run]
  have used := (uses (.localSlot machine.frames.size 0)).same context
    { machine with frames := machine.frames.push { arguments := #[], locals := #[initial] } }
  cases ran : use (.localSlot machine.frames.size 0) context { machine with
      frames := machine.frames.push { arguments := #[], locals := #[initial] } } <;>
    rw [ran] at used <;> exact of_pushed (congrArg (List.take _) used)

end KeepsCaught

/-- Whatever makes calls keeps what handlers have received if the calls do. -/
theorem congruence_keepsCaught : Congruence fun first _ => KeepsCaught first where
  bind := .bind
  steady kept := kept.caught
  newFunction _ := .of_finalState fun _ _ => rfl
  executable method := by
    have decodes : KeepsCaught (decoded method) := by
      refine .bind (Steady.get).caught fun machine => ?_
      split
      · exact (Steady.pure _).caught
      · exact .bind (Steady.module).caught fun _ => .bind (Steady.ofExcept _).caught fun _ =>
          .bind (.of_finalState fun _ _ => rfl) fun _ => (Steady.pure _).caught
    have attempted : KeepsCaught (attempt (decoded method)) := by
      refine .of_finalState fun context machine => ?_
      have same := decodes.same context machine
      unfold attempt
      cases ran : decoded method context machine <;> rw [ran] at same <;> exact same
    refine .bind attempted fun outcome => ?_
    split
    · exact (Steady.pure _).caught
    · exact .bind (Steady.module).caught fun _ => (Steady.throw _).caught
    · exact (Steady.throw _).caught
  implementation site _ _ := by
    refine .bind (steady_runOf site).caught fun _ => .bind (Steady.module).caught fun _ =>
      .of_finalState fun context machine => ?_
    unfold onRun
    split <;> rfl
  withTemporary := .withTemporary

end Exec

/-! ## Records tell what was received -/

namespace HandlerEvent

/-- Whatever an instruction finds to rethrow is what the record tells. -/
abbrev Faithful (clauses : List Clause) : List HandlerEvent → Prop :=
  EachRethrow fun position caught? earlier =>
    caught? = Traced.entryAround? clauses position (received clauses earlier)

/-- The handlers of one of the frames have received what the record tells. -/
structure Tells (clauses : List Clause) (others : List (List (Nat × HeapRef))) (frame : Nat)
    (state : Machine × List HandlerEvent) : Prop where
  caught : state.1.caught = others.set frame (received clauses state.2)
  faithful : Faithful clauses state.2

theorem Tells.start {clauses : List Clause} {machine : Machine} {frame : Nat}
    (fresh : machine.caught[frame]? = some []) :
    Tells clauses machine.caught frame (machine, []) := by
  obtain ⟨inside, isFresh⟩ := List.getElem?_eq_some_iff.mp fresh
  refine ⟨?_, eachRethrow_nil⟩
  change machine.caught = machine.caught.set frame []
  rw [← isFresh, List.set_getElem_self inside]

end HandlerEvent

namespace Traced

open HandlerEvent

variable {α β : Type}

/-- A piece of recorded execution that keeps a property of machines with their records. -/
def Maintains (property : Machine × List HandlerEvent → Prop) (action : Traced α) : Prop :=
  ∀ context, Keeps property (action context)

namespace Maintains

variable {property : Machine × List HandlerEvent → Prop}

theorem bind {first : Traced α} {next : α → Traced β} (kept : Maintains property first)
    (nexts : ∀ value, Maintains property (next value)) : Maintains property (first >>= next) :=
  fun context => (kept context).bind fun value => nexts value context

theorem pure (value : α) : Maintains property (Pure.pure value) :=
  fun _ => .pure value

theorem throw (error : Error) : Maintains property (throw error : Traced α) :=
  fun _ => .throw error

theorem catchThrown {action : Traced α} (kept : Maintains property action) :
    Maintains property (catchThrown action) := by
  intro context state holds
  have after := kept context state holds
  unfold Traced.catchThrown
  rcases ran : action context state with ⟨value, final⟩ | ⟨error, final⟩
  · rw [ran] at after
    exact after
  · rw [ran] at after
    cases error <;> exact after

end Maintains

variable {clauses : List Clause} {others : List (List (Nat × HeapRef))} {frame : Nat}

theorem tells_lift {action : Exec α} (kept : Exec.KeepsCaught action) :
    Maintains (Tells clauses others frame) (lift action) := by
  intro context state tells
  have same := kept.same context state.1
  unfold lift
  cases ran : action context state.1 <;> rw [ran] at same <;>
    exact ⟨Eq.trans same tells.caught, tells.faithful⟩

theorem modify_set {entries : List (List (Nat × HeapRef))} (first : List (Nat × HeapRef))
    (change : List (Nat × HeapRef) → List (Nat × HeapRef)) :
    (entries.set frame first).modify frame change = entries.set frame (change first) := by
  apply List.ext_getElem?
  intro place
  rw [List.getElem?_modify, List.getElem?_set, List.getElem?_set]
  by_cases same : frame = place
  · by_cases inside : place < entries.length <;> simp [same, inside]
  · simp [same]

/-- What the handlers of a frame have received changes as the record tells. -/
theorem tells_receive {event : HandlerEvent}
    (change : List (Nat × HeapRef) → List (Nat × HeapRef))
    (changes : ∀ earlier, received clauses (event :: earlier) = change (received clauses earlier))
    (quiet : ∀ position caught?, event ≠ rethrows position caught?) :
    Maintains (Tells clauses others frame) (do
      lift (Exec.modifyFrame frame fun slots => { slots with caught := change slots.caught })
      note event) := by
  intro context state tells
  refine ⟨?_, eachRethrow_cons.mpr ⟨fun position caught? same => ?_, tells.faithful⟩⟩
  · change ({ state.1 with frames := state.1.frames.modify frame fun slots =>
      { slots with caught := change slots.caught } } : Machine).caught = _
    rw [Machine.caught_receive, tells.caught, modify_set, ← changes]
    rfl
  · exact absurd same (quiet position caught?)

theorem tells_deliver (index : Nat) (exception : HeapRef) :
    Maintains (Tells clauses others frame) (deliver frame index exception) :=
  tells_receive (fun caught => (index, exception) :: caught) (fun _ => rfl) nofun

theorem tells_depart (block? : Option Block) (origin target : Nat) :
    Maintains (Tells clauses others frame) (depart clauses frame block? origin target) :=
  tells_receive _ (fun _ => rfl) nofun

theorem tells_rethrow (instruction : Instruction) :
    Maintains (Tells clauses others frame) (rethrow clauses frame instruction) := by
  intro context state tells
  obtain ⟨machine, events⟩ := state
  unfold rethrow
  rw [bind_run]
  unfold lift Exec.frameAt
  dsimp only
  rw [Exec.bind_run, Exec.get_run]
  dsimp only
  cases found : machine.frames[frame]? with
  | none => exact tells
  | some slots =>
      have isCaught : machine.caught[frame]? = some slots.caught := by
        simp [Machine.caught, found]
      have caught : slots.caught = received clauses events := by
        rw [tells.caught] at isCaught
        have inside := (List.getElem?_eq_some_iff.mp isCaught).1
        rw [List.getElem?_set_self (by simpa using inside)] at isCaught
        exact (Option.some.inj isCaught).symm
      have told : Tells clauses others frame (machine, rethrows
          (Clause.positionOf instruction.offset) (entryAround? clauses
            (Clause.positionOf instruction.offset) slots.caught) :: events) := by
        refine ⟨tells.caught, eachRethrow_cons.mpr ⟨?_, tells.faithful⟩⟩
        rintro _ _ ⟨⟩
        rw [caught]
      dsimp only [Exec.pure_run]
      rw [bind_run]
      dsimp only [note]
      rcases finds : entryAround? clauses (Clause.positionOf instruction.offset) slots.caught with
        _ | ⟨index, exception⟩ <;> rw [finds] at told <;> exact told

section Unwinding

variable {runBlock : BlockRunner}
  (blocks : ∀ block stack, Maintains (Tells clauses others frame) (runBlock block stack))

include blocks

theorem tells_accepts (clause : Clause) (type : Token) (exception : HeapRef) :
    Maintains (Tells clauses others frame) (accepts runBlock clause type exception) := by
  unfold accepts
  cases clause.kind with
  | catchClause => exact .bind (tells_lift (Exec.Steady.module).caught) fun _ => .pure _
  | filterClause =>
      refine .bind (.catchThrown (blocks _ _)) fun outcome => ?_
      cases outcome with
      | error exception => exact .pure _
      | ok exit =>
          cases exit with
          | endFilter accepted => exact .pure _
          | _ => exact .throw _
  | finallyClause | faultClause => exact .pure _

theorem tells_select? (type : Token) (exception : HeapRef) (candidates : List (Clause × Nat)) :
    Maintains (Tells clauses others frame) (select? runBlock type exception candidates) := by
  induction candidates with
  | nil => exact .pure _
  | cons candidate rest ih =>
      refine .bind (tells_accepts blocks _ _ _) fun accepted => ?_
      split
      · exact .pure _
      · exact ih

theorem tells_runHandlers (handlers : List Clause) :
    Maintains (Tells clauses others frame) (runHandlers runBlock handlers) := by
  induction handlers with
  | nil => exact .pure _
  | cons clause rest ih =>
      have handler : Maintains (Tells clauses others frame) (runHandler runBlock clause) := by
        refine .bind (blocks _ _) fun exit => ?_
        cases exit with
        | endFinally => exact .pure _
        | _ => exact .throw _
      refine .bind (.catchThrown handler) fun outcome => ?_
      cases outcome with
      | ok value => exact ih
      | error exception => exact .pure _

variable (block? : Option Block)

theorem tells_dispatch (rounds : Nat) (raised : Raised) :
    Maintains (Tells clauses others frame)
      (dispatch runBlock clauses frame block? rounds raised) := by
  induction rounds generalizing raised with
  | zero => exact .throw _
  | succ rounds ih =>
      refine .bind (tells_lift (Exec.Steady.readHeap _).caught) fun type =>
        .bind (tells_select? blocks _ _ _) fun selected? =>
        .bind (tells_runHandlers blocks _) fun replacement? => ?_
      cases replacement? with
      | some replacement => exact ih replacement
      | none =>
          cases selected? with
          | some selected => exact .bind (tells_deliver _ _) fun _ => .pure _
          | none => exact .throw _

theorem tells_leave (origin target : Nat) :
    Maintains (Tells clauses others frame)
      (leave runBlock clauses frame block? origin target) := by
  refine .bind (tells_runHandlers blocks _) fun raised? => ?_
  cases raised? with
  | some raised => exact .pure _
  | none => exact .bind (tells_depart _ _ _) fun _ => .pure _

end Unwinding

theorem keepsCaught_position (code : MethodCode) (offset : Nat) :
    Exec.KeepsCaught (Exec.position code offset) := by
  unfold Exec.position
  split
  · exact (Exec.Steady.pure _).caught
  · exact (Exec.Steady.throw _).caught

theorem tells_goTo (code : MethodCode) (offset : Nat) (stack : List Value) :
    Maintains (Tells clauses others frame) (goTo code offset stack) :=
  tells_lift (.bind (keepsCaught_position code offset) fun _ => (Exec.Steady.pure _).caught)

theorem tells_follow {runBlock : BlockRunner} {code : MethodCode}
    (blocks : ∀ block stack, Maintains (Tells code.clauses others frame) (runBlock block stack))
    (block? : Option Block) (rounds index offset : Nat) (effect : Effect) :
    Maintains (Tells code.clauses others frame)
      (follow runBlock code frame block? rounds index offset effect) := by
  have handles (raised : Raised) : Maintains (Tells code.clauses others frame)
      (handle runBlock code frame block? rounds raised) :=
    .bind (tells_dispatch blocks _ _ _) fun _ => tells_goTo _ _ _
  cases effect with
  | leave target =>
      refine .bind (tells_leave blocks _ _ _) fun raised? => ?_
      cases raised? with
      | none => exact tells_goTo _ _ _
      | some raised => exact handles raised
  | thrown exception => exact handles _
  | jump target stack => exact tells_goTo _ _ _
  | next | returned | endFinally | endFilter => exact .pure _

section Executing

variable {run : Runner} (calls : ∀ activation, Exec.KeepsCaught (run activation))
  (code : MethodCode) (scope : Scope)

include calls

theorem tells_effect (instruction : Instruction) (constraint? : Option Token)
    (stack : List Value) :
    Maintains (Tells code.clauses others frame)
      (effect run code scope frame instruction constraint? stack) := by
  unfold effect
  split
  · exact tells_rethrow instruction
  · have stepped := @Exec.Congruence.step _ Exec.congruence_keepsCaught run run calls code.clauses
      scope frame instruction constraint? stack
    refine tells_lift (.bind stepped.catchThrown fun outcome => ?_)
    cases outcome <;> exact (Exec.Steady.pure _).caught

theorem tells_execute (rounds : Nat) (block? : Option Block) (index : Nat)
    (constraint? : Option Token) (stack : List Value) :
    Maintains (Tells code.clauses others frame)
      (execute run code scope frame rounds block? index constraint? stack) := by
  induction rounds generalizing block? index constraint? stack with
  | zero => exact .throw _
  | succ rounds ih =>
      have ticks : Exec.KeepsCaught Exec.tick := by
        refine .bind (fun _ _ => .pure _) fun context => .bind
          (fun _ _ => .modifyGet fun _ before => before) fun executed => ?_
        split
        · exact (Exec.Steady.throw _).caught
        · exact (Exec.Steady.pure _).caught
      unfold execute
      cases code.instructions[index]? with
      | none => exact .throw _
      | some instruction =>
          refine .bind (tells_lift ticks) fun _ =>
            .bind (tells_effect calls code scope _ _ _) fun effect =>
            .bind (tells_follow (fun block stack =>
              .bind (tells_lift (keepsCaught_position _ _)) fun start => ih _ _ _ _)
              _ _ _ _ _) fun continuation => ?_
          cases continuation with
          | goOn index constraint? stack => exact ih _ _ _ _
          | exit exit => exact .pure _

theorem tells_executeCode :
    Maintains (Tells code.clauses others frame) (executeCode run code scope frame) := by
  refine .bind (fun _ => .pure _) fun context =>
    .bind (tells_lift (keepsCaught_position _ _)) fun start =>
    .bind (tells_execute calls code scope _ _ _ _ _) fun exit => ?_
  cases exit with
  | returned value => exact .pure _
  | endFinally | endFilter => exact .throw _

end Executing

end Traced

/-! ## Calls -/

namespace Exec

open HandlerEvent

theorem finalState_erase {α : Type}
    (result : EStateM.Result Error (Machine × List HandlerEvent) α) :
    finalState (Traced.erase result) = (finalState result).1 := by
  cases result <;> rfl

/-- Executing code in a frame changes nothing about the frames below it. -/
theorem take_caught_executeCode {run : Runner}
    (calls : ∀ activation, KeepsCaught (run activation)) (code : MethodCode) (scope : Scope)
    {frame : Nat} (context : Context) {machine : Machine}
    (fresh : machine.caught[frame]? = some []) :
    (finalState (executeCode run code scope frame context machine)).caught.take frame =
      machine.caught.take frame := by
  have tells := Traced.tells_executeCode calls code scope context (machine, [])
    (Tells.start fresh)
  rw [← Traced.records_executeCode run code scope frame context machine [], finalState_erase,
    tells.caught, List.take_set_of_le (Nat.le_refl frame)]

theorem keepsCaught_inFrame {run : Runner}
    (calls : ∀ activation, KeepsCaught (run activation)) (code : MethodCode) (scope : Scope)
    (arguments : List Value) :
    KeepsCaught (inFrame code arguments (executeCode run code scope)) := by
  refine .bind (Steady.module).caught fun module => .bind (Steady.ofExcept _).caught fun locals =>
    .of_finalState fun context machine => ?_
  let slots : Frame := { arguments := arguments.toArray, locals := locals.toArray }
  have fresh : ({ machine with frames := machine.frames.push slots } : Machine).caught[
      machine.frames.size]? = some [] := by
    rw [Machine.caught_push, List.getElem?_append_right (by simp)]
    simp [slots]
  have below := take_caught_executeCode calls code scope context fresh
  change machine.SameCaught (finalState (andFinally (executeCode run code scope
    machine.frames.size) (fun final =>
      { final with frames := final.frames.shrink machine.frames.size }) context
    { machine with frames := machine.frames.push slots }))
  unfold andFinally
  cases ran : executeCode run code scope machine.frames.size context
      { machine with frames := machine.frames.push slots } <;>
    rw [ran] at below <;> exact KeepsCaught.of_pushed below

/-- When a call ends, the handlers of the calls in progress have received what they had received
before. -/
theorem keepsCaught_activate (calls : Nat) (activation : Activation) :
    KeepsCaught (activate calls activation) := by
  induction calls generalizing activation with
  | zero => exact (Steady.throw _).caught
  | succ calls ih =>
      cases activation with
      | native provided arguments =>
          exact .asCall (@Congruence.runNative _ congruence_keepsCaught _ (activate calls) ih _ _)
      | code code scope arguments => exact .asCall (keepsCaught_inFrame ih code scope arguments)

end Exec

namespace Traced

open HandlerEvent

/-- In a frame whose handlers have received nothing yet, whatever an instruction finds to rethrow
is what the record tells. -/
theorem faithful_executeCode (calls : Nat) (code : MethodCode) (scope : Scope) {frame : Nat}
    (context : Context) {machine : Machine} (fresh : machine.caught[frame]? = some []) :
    Faithful code.clauses
      (finalState (executeCode (Exec.activate calls) code scope frame context (machine, []))).2 :=
  (tells_executeCode (Exec.keepsCaught_activate calls) code scope context (machine, [])
    (Tells.start fresh)).faithful

end Traced

end Cil
