import Cil.Machine.Thread
import Cil.Proofs.Machine.CallsInProgress

/-!
# Watched calls

A watch looks on while calls run: when a call begins, before every instruction, and before
every request of a program of the host.  It is told which frames the calls in progress have.  A
property holds throughout a call if every watch that does nothing where the property holds does
nothing to the call.

The frames that a watch is told are those that the machine has, and the depth is within its
limit.
-/

namespace Cil

open Stateful

/-- What a watch is told about the calls in progress. -/
structure Standing where
  /-- The frames of the calls in progress, the outermost call first, with the temporary slots
  between them. -/
  live : List FrameShape
  /-- The frame of the innermost call, if it is a call of code. -/
  own? : Option Nat

abbrev Watch := Standing → Exec Unit

def Watch.idle : Watch := fun _ => pure ⟨⟩

namespace Exec

/-- Executes code by a way of going on from an instruction. -/
def executeCodeBy (execute : Nat → Option Block → Nat → Option Token → List Value →
    Exec BlockExit) (code : MethodCode) : Exec Value := do
  let rounds := (← read).limits.rounds
  match ← execute rounds none (← position code 0) none [] with
  | .returned value => return value
  | .endFinally | .endFilter _ => throw (.malformed .endOutsideHandler)

theorem executeCode_eq (run : Runner) (code : MethodCode) (scope : Scope) (frame : Nat) :
    executeCode run code scope frame = executeCodeBy (execute run code scope frame) code :=
  rfl

/-- Executes code under a watch. -/
def executeWatched (watch : Exec Unit) (run : Runner) (code : MethodCode) (scope : Scope)
    (frame : Nat) :
    Nat → Option Block → Nat → Option Token → List Value → Exec BlockExit
  | 0, _, _, _, _ => throw .outOfFuel
  | rounds + 1, block?, index, constraint?, stack => do
    watch
    round run code scope frame rounds (executeWatched watch run code scope frame rounds) block?
      index constraint? stack

/-- Runs a program of the host under a watch. -/
def runProgramWatched (watch : Exec Unit) (run : Runner) : Program → Exec Value
  | .done value => return value
  | .fail error => throw error
  | .perform request next => do
    watch
    let value ← answer run request
    runProgramWatched watch run (next value)
  | .readString reference next => do
    watch
    let text ← attempt (stringText? reference)
    runProgramWatched watch run (next text)

def runNativeWatched (watch : Exec Unit) (run : Runner) (body : NativeBody)
    (arguments : List Value) : Exec Value :=
  match body with
  | .core operation => runCore run operation arguments
  | .stub site => runStub run site arguments
  | .host program => runProgramWatched watch run (program arguments)

/-- Runs activations under a watch, behind the frames of the calls in progress. -/
def activateWatched (watch : Watch) : (calls : Nat) → (live : List FrameShape) → Runner
  | 0, _, _ => throw .outOfFuel
  | calls + 1, live, activation => do
    -- What else stands there is the temporary slots of the innermost call.
    let live := FrameShape.behind live ((← get).frames.size - live.length)
    match activation with
    | .native provided arguments => asCall do
      watch ⟨live, none⟩
      runNativeWatched (watch ⟨live, none⟩) (activateWatched watch calls live) provided.body
        arguments
    | .code code scope arguments => asCall do
      watch ⟨live, none⟩
      inFrame code arguments fun frame =>
        let live := live ++ [code.frameShape arguments]
        executeCodeBy (executeWatched (watch ⟨live, some frame⟩)
          (activateWatched watch calls live) code scope frame) code

end Exec

/-! ## Calls of a thread -/

/-- What can be called on a thread. -/
inductive Call
  | invoke (callable : Callable) (arguments : List Value)
  | method (definition : MethodDef) (arguments : List Value)
  | «virtual» (definition : MethodDef) (arguments : List Value)
  | dynamic (body : DynamicMethod) (arguments : List Value)
  | native (provided : Native) (arguments : List Value)
  | construct (constructor : MethodDef) (arguments : List Value)
  /-- Runs a program with the address of a temporary slot. -/
  | temporary (initial : Value) (body : Pointer → Program)

namespace Call

open Exec

def perform (run : Runner) (program : Program → Exec Value) : Call → Exec Value
  | .invoke callable arguments => Exec.invoke run callable arguments
  | .method definition arguments => callMethod run definition arguments
  | .virtual definition arguments => callVirtual run definition arguments
  | .dynamic body arguments => run (.code body.code body.scope arguments)
  | .native provided arguments => run (.native provided arguments)
  | .construct constructor arguments => Exec.construct run constructor arguments
  | .temporary initial body =>
    withTemporary initial fun location => discard (program (body location))

/-- Performs a call in which no more than a number of calls nest. -/
def run (call : Call) (calls : Nat) : Exec Value :=
  call.perform (activate calls) (runProgram (activate calls))

def runWatched (watch : Watch) (call : Call) (calls : Nat) : Exec Value := do
  let live := (← get).shapes
  let inside := live ++ [.temporary]
  call.perform (activateWatched watch calls live)
    (runProgramWatched (watch ⟨inside, none⟩) (activateWatched watch calls live))

/-- A property holds throughout a call: a watch that does nothing where it holds makes no
difference. -/
def Throughout (call : Call) (calls : Nat) (context : Context) (start : Machine)
    (property : Standing → Machine → Prop) : Prop :=
  ∀ watch : Watch,
    (∀ standing machine, property standing machine →
      watch standing context machine = .ok ⟨⟩ machine) →
    call.runWatched watch calls context start = call.run calls context start

theorem Throughout.weaken {call : Call} {calls : Nat} {context : Context} {start : Machine}
    {property weaker : Standing → Machine → Prop}
    (holds : call.Throughout calls context start property)
    (implies : ∀ standing machine, property standing machine → weaker standing machine) :
    call.Throughout calls context start weaker :=
  fun watch idle => holds watch fun standing machine satisfied =>
    idle standing machine (implies standing machine satisfied)

end Call

/-- A machine during a call: the frames are those of the calls in progress, those that stood
there before the call are where they were, and the depth is within its limit. -/
structure Machine.During (start : Machine) (limit : Nat) (standing : Standing)
    (machine : Machine) : Prop where
  shapes : machine.shapes = standing.live
  kept : start.shapes <+: standing.live
  own : ∀ own, standing.own? = some own →
    start.frames.size ≤ own ∧ own + 1 = standing.live.length
  depth : 0 < limit → machine.depth ≤ max limit start.depth

namespace Exec

variable {context : Context} {watch : Watch} {start : Machine} {live : List FrameShape}
  {depth : Nat}

/-! ## Code and programs under a watch -/

section Runs

variable {run other : Runner} {look : Exec Unit}

theorem alike_executeWatched (runs : RunsAlike context live depth run other)
    (idle : ∀ machine : Machine, machine.Stands live depth →
      look context machine = .ok ⟨⟩ machine)
    (code : MethodCode) (scope : Scope) (frame rounds : Nat) (block? : Option Block)
    (index : Nat) (constraint? : Option Token) (stack : List Value) :
    Alike context live depth (execute run code scope frame rounds block? index constraint? stack)
      (executeWatched look other code scope frame rounds block? index constraint? stack) := by
  induction rounds generalizing block? index constraint? stack with
  | zero => exact .throw _
  | succ rounds ih =>
      intro machine stands
      rw [executeWatched, bind_of_ok (idle machine stands), execute_succ]
      refine agrees_round (fun _ _ steady stands => stands.of_sameCalls steady.calls)
        (fun instruction _ constraint? stack => ?_) ih _ _ _ _ _ machine stands
      exact (congruence_alike.step runs _ _ _ _ _ _ 0).of_behind_zero

theorem alike_executeCodeBy {first second : Nat → Option Block → Nat → Option Token →
    List Value → Exec BlockExit}
    (executes : ∀ rounds block? index constraint? stack, Alike context live depth
      (first rounds block? index constraint? stack)
      (second rounds block? index constraint? stack)) (code : MethodCode) :
    Alike context live depth (executeCodeBy first code) (executeCodeBy second code) := by
  refine .bind .read fun _ _ => .seq (agrees_position _ _) fun start =>
    .seq (executes _ _ _ _ _) fun exit => ?_
  cases exit with
  | returned value => exact .pure trivial
  | _ => exact .throw _

theorem alike_runProgramWatched {temporaries : Nat}
    (runs : RunsAlike context live depth run other)
    (idle : ∀ machine : Machine, machine.Stands (FrameShape.behind live temporaries) depth →
      look context machine = .ok ⟨⟩ machine) (program : Program) :
    Alike context (FrameShape.behind live temporaries) depth (runProgram run program)
      (runProgramWatched look other program) := by
  induction program with
  | done value => exact .pure trivial
  | fail error => exact .throw _
  | perform request next ih =>
      intro machine stands
      rw [runProgramWatched, bind_of_ok (idle machine stands)]
      exact Agree.seq (congruence_alike.answer runs request temporaries) ih machine stands
  | readString reference next ih =>
      intro machine stands
      rw [runProgramWatched, bind_of_ok (idle machine stands)]
      exact Steady.alike_bind (.attempt (steady_stringText? _)) ih machine stands

theorem alike_runNativeWatched (runs : RunsAlike context live depth run other)
    (idle : ∀ machine : Machine, machine.Stands live depth →
      look context machine = .ok ⟨⟩ machine) (body : NativeBody) (arguments : List Value) :
    Alike context live depth (runNative run body arguments)
      (runNativeWatched look other body arguments) := by
  cases body with
  | core operation => exact (congruence_alike.runCore runs _ _ 0).of_behind_zero
  | stub site => exact (congruence_alike.runStub runs _ _ 0).of_behind_zero
  | host program =>
      refine (alike_runProgramWatched runs ?_ _).of_behind_zero
      rwa [FrameShape.behind_zero]

end Runs

/-! ## Calls under a watch -/

/-- Behind the frames of the start, a watch that does nothing during the call makes no
difference to an activation. -/
theorem runsAlike_activateWatched
    (idle : ∀ standing machine, start.During context.limits.callDepth standing machine →
      watch standing context machine = .ok ⟨⟩ machine)
    (calls : Nat) (kept : start.shapes <+: live) :
    RunsAlike context live depth (activate calls) (activateWatched watch calls live) := by
  -- The calls that an activation makes run behind its own frame, and may nest one level less.
  induction calls generalizing live depth with
  | zero => exact fun _ _ => .throw _
  | succ calls ih =>
      intro activation temporaries machine stands
      let behind := FrameShape.behind live temporaries
      have padding : machine.frames.size - live.length = temporaries := by
        rw [stands.length, FrameShape.length_behind, Nat.add_sub_cancel_left]
      have keptBehind : start.shapes <+: behind := kept.trans (List.prefix_append _ _)
      rw [activateWatched, bind_of_ok get_run, padding]
      -- In the call the depth is one more, and it is within the limit.
      have silent (within : 0 < context.limits.callDepth → depth < context.limits.callDepth)
          (standing : Standing) (keptHere : start.shapes <+: standing.live)
          (ownHere : ∀ own, standing.own? = some own →
            start.frames.size ≤ own ∧ own + 1 = standing.live.length)
          (machine : Machine) (stands : machine.Stands standing.live (depth + 1)) :
          watch standing context machine = .ok ⟨⟩ machine := by
        refine idle standing machine ⟨stands.shapes, keptHere, ownHere, fun limited => ?_⟩
        rw [stands.depth]
        exact Nat.le_trans (within limited) (Nat.le_max_left _ _)
      cases activation with
      | native provided arguments =>
          refine alike_asCall (fun within => ?_) machine stands
          intro machine stands
          have quiet := silent within ⟨behind, none⟩ keptBehind (by nofun)
          rw [bind_of_ok (quiet machine stands)]
          exact alike_runNativeWatched (ih keptBehind) quiet _ _ machine stands
      | code code scope arguments =>
          refine alike_asCall (fun within => ?_) machine stands
          intro machine stands
          have quiet := silent within ⟨behind, none⟩ keptBehind (by nofun)
          rw [bind_of_ok (quiet machine stands)]
          have keptInside : start.shapes <+: behind ++ [code.frameShape arguments] :=
            keptBehind.trans (List.prefix_append _ _)
          have ownInside (own : Nat) (isOwn : some behind.length = some own) :
              start.frames.size ≤ own ∧
                own + 1 = (behind ++ [code.frameShape arguments]).length := by
            cases isOwn
            rw [← Machine.length_shapes, List.length_append]
            exact ⟨keptBehind.length_le, rfl⟩
          refine alike_inFrame ?_ machine stands
          exact alike_executeCodeBy (alike_executeWatched (ih keptInside)
            (silent within ⟨_, some behind.length⟩ keptInside ownInside) code scope
            behind.length) code

/-! ## Calls of a thread under a watch -/

theorem alike_perform {run other : Runner} (runs : RunsAlike context live depth run other)
    {first second : Program → Exec Value}
    (programs : ∀ program,
      Alike context (FrameShape.behind live 1) depth (first program) (second program))
    (call : Call) :
    Alike context (FrameShape.behind live 0) depth (call.perform run first)
      (call.perform other second) := by
  cases call with
  | invoke callable arguments => exact congruence_alike.invoke runs _ _ 0
  | method definition arguments => exact congruence_alike.callMethod runs _ _ 0
  | «virtual» definition arguments => exact congruence_alike.callVirtual runs _ _ 0
  | dynamic body arguments => exact runs _ _
  | native provided arguments => exact runs _ _
  | construct constructor arguments => exact congruence_alike.construct runs _ _ 0
  | temporary initial body =>
      exact alike_onTemporary fun _ => programs _

theorem alike_runWatched
    (idle : ∀ standing machine, start.During context.limits.callDepth standing machine →
      watch standing context machine = .ok ⟨⟩ machine) (call : Call) (calls : Nat) :
    Alike context start.shapes start.depth (call.run calls) (call.runWatched watch calls) := by
  intro machine stands
  have runs : RunsAlike context start.shapes start.depth (activate calls)
      (activateWatched watch calls start.shapes) :=
    runsAlike_activateWatched idle calls List.prefix_rfl
  have programs (program : Program) :
      Alike context (FrameShape.behind start.shapes 1) start.depth
        (runProgram (activate calls) program)
        (runProgramWatched (watch ⟨start.shapes ++ [.temporary], none⟩)
          (activateWatched watch calls start.shapes) program) := by
    refine alike_runProgramWatched runs (fun machine stands => idle _ machine ?_) program
    exact ⟨stands.shapes, List.prefix_append _ _, by nofun,
      fun _ => stands.depth ▸ Nat.le_max_right _ _⟩
  rw [Call.runWatched, bind_of_ok get_run, stands.shapes]
  exact (alike_perform runs programs call).of_behind_zero machine stands

end Exec

namespace Call

variable (call : Call) (calls : Nat) (context : Context) (start : Machine)

theorem throughout_during :
    call.Throughout calls context start (start.During context.limits.callDepth) :=
  fun _ idle => (Exec.alike_runWatched idle call calls start ⟨rfl, rfl⟩).1.symm

theorem sameCalls_run : start.SameCalls (finalState (call.run calls context start)) := by
  have idle (standing : Standing) (machine : Machine)
      (_ : start.During context.limits.callDepth standing machine) :
      Watch.idle standing context machine = .ok ⟨⟩ machine := rfl
  have after := (Exec.alike_runWatched idle call calls).stands_finalState ⟨rfl, rfl⟩
  exact ⟨after.depth, after.shapes⟩

/-- Calls are balanced: however a call ends, it ends with the calls in progress with which it
began, and the slots of their frames are what they were.  Throughout the call the depth is
within its limit. -/
theorem balanced :
    start.SameCalls (finalState (call.run calls context start)) ∧
      call.Throughout calls context start fun _ machine =>
        0 < context.limits.callDepth →
          machine.depth ≤ max context.limits.callDepth start.depth :=
  ⟨call.sameCalls_run calls context start,
    (call.throughout_during calls context start).weaken fun _ _ during => during.depth⟩

end Call

end Cil
