import Cil.Proofs.Machine.Agreement
import Cil.Proofs.Machine.Congruence

/-!
# Calls in progress

Calls nest: a call counts itself in and pushes its frame, and when it ends, however it ends,
the frame is gone and the count is what it was.  A temporary slot has a frame of its own, too,
which lasts as long as its use.

Everything that makes calls is compared here with two ways of running them.  If the calls run
alike wherever the same calls are in progress, so does what makes them, and it ends with the
calls in progress that it began with.
-/

namespace Cil

open Stateful
open MonadExcept (ofExcept)

/-- The frame of a temporary slot. -/
def FrameShape.temporary : FrameShape := ⟨0, 1⟩

/-- The frame of a call of code: it has the arguments, and the locals that the code declares. -/
def MethodCode.frameShape (code : MethodCode) (arguments : List Value) : FrameShape :=
  ⟨arguments.length, code.locals.length⟩

/-- The frames of calls and the temporary slots behind them. -/
def FrameShape.behind (live : List FrameShape) (temporaries : Nat) : List FrameShape :=
  live ++ List.replicate temporaries .temporary

@[simp]
theorem FrameShape.behind_zero (live : List FrameShape) : behind live 0 = live :=
  List.append_nil live

@[simp]
theorem FrameShape.length_behind (live : List FrameShape) (temporaries : Nat) :
    (behind live temporaries).length = live.length + temporaries := by
  simp [behind]

theorem FrameShape.behind_succ (live : List FrameShape) (temporaries : Nat) :
    behind live (temporaries + 1) = behind live temporaries ++ [.temporary] := by
  rw [behind, behind, List.replicate_succ', List.append_assoc]

namespace Machine

@[simp]
theorem length_shapes (machine : Machine) : machine.shapes.length = machine.frames.size := by
  simp [shapes]

/-- A machine with given calls in progress. -/
structure Stands (shapes : List FrameShape) (depth : Nat) (machine : Machine) : Prop where
  shapes : machine.shapes = shapes
  depth : machine.depth = depth

variable {shapes : List FrameShape} {depth : Nat} {before after : Machine}

theorem Stands.of_sameCalls (stands : before.Stands shapes depth)
    (same : before.SameCalls after) : after.Stands shapes depth :=
  ⟨same.shapes.trans stands.shapes, same.depth.trans stands.depth⟩

theorem Stands.length (stands : before.Stands shapes depth) :
    before.frames.size = shapes.length := by
  rw [← stands.shapes, length_shapes]

theorem Stands.countOut (stands : before.Stands shapes (depth + 1)) :
    ({ before with depth := before.depth - 1 } : Machine).Stands shapes depth :=
  ⟨stands.shapes, by rw [stands.depth, Nat.add_sub_cancel]⟩

theorem Stands.push (stands : before.Stands shapes depth) (frame : Frame) :
    ({ before with frames := before.frames.push frame } : Machine).Stands
      (shapes ++ [frame.shape]) depth :=
  ⟨by simp [Machine.shapes, ← stands.shapes], stands.depth⟩

/-- The frame behind the calls in progress is dropped. -/
theorem Stands.shrink {shape : FrameShape} (stands : before.Stands (shapes ++ [shape]) depth) :
    ({ before with frames := before.frames.shrink shapes.length } : Machine).Stands
      shapes depth := by
  refine ⟨?_, stands.depth⟩
  have dropped : (before.frames.shrink shapes.length).toList.map Frame.shape =
      before.shapes.take shapes.length := by
    simp [Machine.shapes]
  rw [Machine.shapes, dropped, stands.shapes, List.take_left]

end Machine

namespace Exec

variable {α β : Type} {context : Context} {shapes live : List FrameShape} {depth : Nat}

/-- Pieces of execution that run alike with given calls in progress, and keep them. -/
abbrev Alike {α : Type} (context : Context) (shapes : List FrameShape) (depth : Nat)
    (first second : Exec α) : Prop :=
  Agrees context (Machine.Stands shapes depth) first second

theorem Alike.of_sameCalls {action : Exec α} (kept : ∀ machine : Machine,
    machine.SameCalls (finalState (action context machine))) :
    Alike context shapes depth action action := by
  intro machine stands
  have after := stands.of_sameCalls (kept machine)
  refine ⟨rfl, ?_⟩
  cases ran : action context machine <;> rw [ran] at after <;> exact ⟨after, trivial⟩

theorem Alike.stands_finalState {first second : Exec α} {machine : Machine}
    (alike : Alike context shapes depth first second) (stands : machine.Stands shapes depth) :
    (finalState (first context machine)).Stands shapes depth := by
  obtain ⟨-, ends⟩ := alike machine stands
  cases ran : first context machine <;> rw [ran] at ends <;> exact ends.1

theorem Steady.alike {action : Exec α} (kept : Steady action) :
    Alike context shapes depth action action :=
  .same kept.keeps fun _ _ steady stands => stands.of_sameCalls steady.calls

theorem Steady.alike_bind {first : Exec α} {next other : α → Exec β} (kept : Steady first)
    (nexts : ∀ value, Alike context shapes depth (next value) (other value)) :
    Alike context shapes depth (first >>= next) (first >>= other) :=
  kept.alike.seq nexts

theorem Alike.of_behind_zero {first second : Exec α}
    (alike : Alike context (FrameShape.behind live 0) depth first second) :
    Alike context live depth first second :=
  FrameShape.behind_zero live ▸ alike

/-! ## What begins and ends -/

theorem enter_run (machine : Machine) :
    enter context machine =
      if 0 < context.limits.callDepth ∧ context.limits.callDepth ≤ machine.depth then
        .error (.callDepthExceeded context.limits.callDepth) machine
      else .ok () { machine with depth := machine.depth + 1 } := by
  rw [enter, bind_of_ok (show (read : Exec Context) context machine = .ok context machine
    from rfl)]
  dsimp only
  rw [bind_of_ok get_run]
  split <;> rfl

theorem asCall_run (action : Exec α) (machine : Machine) :
    asCall action context machine =
      if 0 < context.limits.callDepth ∧ context.limits.callDepth ≤ machine.depth then
        .error (.callDepthExceeded context.limits.callDepth) machine
      else andFinally action (fun machine => { machine with depth := machine.depth - 1 }) context
        { machine with depth := machine.depth + 1 } := by
  rw [asCall, bind_run, enter_run]
  by_cases full : 0 < context.limits.callDepth ∧ context.limits.callDepth ≤ machine.depth
  · rw [if_pos full, if_pos full]
  · rw [if_neg full, if_neg full]

/-- A call counts itself out again.  Inside of it the depth is within the limit. -/
theorem alike_asCall {first second : Exec α}
    (inner : (0 < context.limits.callDepth → depth < context.limits.callDepth) →
      Alike context shapes (depth + 1) first second) :
    Alike context shapes depth (asCall first) (asCall second) := by
  intro machine stands
  rw [asCall_run, asCall_run]
  by_cases full : 0 < context.limits.callDepth ∧ context.limits.callDepth ≤ machine.depth
  · rw [if_pos full, if_pos full]
    exact ⟨rfl, stands, trivial⟩
  · rw [if_neg full, if_neg full]
    have within (limited : 0 < context.limits.callDepth) : depth < context.limits.callDepth := by
      rw [stands.depth] at full
      omega
    exact (inner within).andFinally_run (fun _ inside => inside.countOut)
      ⟨stands.shapes, congrArg (· + 1) stands.depth⟩

theorem alike_inFrame {code : MethodCode} {arguments : List Value}
    {first second : Nat → Exec Value}
    (bodies : Alike context (shapes ++ [code.frameShape arguments]) depth (first shapes.length)
      (second shapes.length)) :
    Alike context shapes depth (inFrame code arguments first)
      (inFrame code arguments second) := by
  intro machine stands
  unfold inFrame
  rw [bind_of_ok module_run, bind_of_ok module_run]
  cases zeros : code.locals.mapM fun slot => context.module.zero slot.signature with
  | error error => exact ⟨rfl, stands, trivial⟩
  | ok locals =>
      have count : locals.length = code.locals.length := by
        obtain ⟨rfl, _⟩ := except_mapM_eq_ok (fun slot value
          (zero : context.module.zero slot.signature = .ok value) =>
            show value = (context.module.zero slot.signature).toOption.getD .void by
              rw [zero]; rfl) zeros
        exact List.length_map _
      let frame : Frame := { arguments := arguments.toArray, locals := locals.toArray }
      have shape : frame.shape = code.frameShape arguments := by
        simp [frame, Frame.shape, MethodCode.frameShape, count]
      change andFinally (first machine.frames.size) _ context _ =
          andFinally (second machine.frames.size) _ context _ ∧
        Ends _ _ _ (andFinally (first machine.frames.size) _ context _)
      rw [stands.length]
      exact bodies.andFinally_run (fun _ inside => inside.shrink) (shape ▸ stands.push frame)

theorem withTemporary_run (initial : Value) (use : Pointer → Exec Unit) (machine : Machine) :
    withTemporary initial use context machine =
      match use (.localSlot machine.frames.size 0) context
        { machine with
          frames := machine.frames.push { arguments := #[], locals := #[initial] } } with
      | .ok _ after =>
        .ok ((after.frames[machine.frames.size]?.bind (·.locals.back?)).getD .void)
          { after with frames := after.frames.shrink machine.frames.size }
      | .error error after =>
        .error error { after with frames := after.frames.shrink machine.frames.size } := by
  unfold withTemporary
  rw [bind_of_ok get_run]
  dsimp only
  rw [bind_of_ok (show (modify _ : Exec PUnit) context machine = .ok ⟨⟩ _ from rfl), bind_run]
  unfold attempt
  cases use (.localSlot machine.frames.size 0) context _ <;> rfl

theorem alike_withTemporary {initial : Value} {first second : Pointer → Exec Unit}
    (uses : ∀ pointer, Alike context (shapes ++ [.temporary]) depth (first pointer)
      (second pointer)) :
    Alike context shapes depth (withTemporary initial first) (withTemporary initial second) := by
  intro machine stands
  obtain ⟨same, ends⟩ := uses (.localSlot shapes.length 0) _
    (stands.push { arguments := #[], locals := #[initial] })
  rw [withTemporary_run, withTemporary_run, stands.length, ← same]
  cases ran : first (.localSlot shapes.length 0) context { machine with
      frames := machine.frames.push { arguments := #[], locals := #[initial] } } with
  | ok value after =>
      rw [ran] at ends
      exact ⟨rfl, ends.1.shrink, trivial⟩
  | error error after =>
      rw [ran] at ends
      exact ⟨rfl, ends.1.shrink, trivial⟩

/-! ## Code and function pointers -/

theorem alike_newFunction (callable : Callable) :
    Alike context shapes depth (newFunction callable) (newFunction callable) :=
  Alike.of_sameCalls fun _ => ⟨rfl, rfl⟩

theorem alike_executable (method : MethodDef) :
    Alike context shapes depth (executable method) (executable method) := by
  have decodes : Alike context shapes depth (decoded method) (decoded method) := by
    refine .bind .get fun machine _ => ?_
    split
    · exact .pure trivial
    · exact .bind .module fun _ _ => .bind (.ofExcept _) fun _ _ =>
        .seq (Alike.of_sameCalls fun _ => ⟨rfl, rfl⟩) fun _ => .pure trivial
  refine .bind (.attempt decodes) fun outcome _ => ?_
  split
  · exact .pure trivial
  · exact .bind .module fun _ _ => .throw _
  · exact .throw _

theorem alike_onRun (id : Nat) (isolation : IsolationRun)
    (action : EStateM Error IsolationRun α) :
    Alike context shapes depth (onRun id isolation action) (onRun id isolation action) := by
  refine Alike.of_sameCalls fun machine => ?_
  unfold onRun
  cases action isolation <;> exact ⟨rfl, rfl⟩

theorem alike_implementation (site : Stub) (method : MethodDef) (forInterface : Bool) :
    Alike context shapes depth (implementation site method forInterface)
      (implementation site method forInterface) :=
  (steady_runOf site).alike_bind fun _ => .bind .module fun _ _ => alike_onRun _ _ _

/-! ## Calls -/

/-- What runs with the address of a temporary slot runs behind that slot. -/
theorem alike_onTemporary {temporaries : Nat} {initial : Value}
    {first second : Pointer → Exec Value}
    (uses : ∀ location, Alike context (FrameShape.behind live (temporaries + 1)) depth
      (first location) (second location)) :
    Alike context (FrameShape.behind live temporaries) depth
      (withTemporary initial fun location => discard (first location))
      (withTemporary initial fun location => discard (second location)) :=
  alike_withTemporary fun location => FrameShape.behind_succ live temporaries ▸
    .discard (uses location)

/-- Everything that is not a call runs alike behind given calls in progress, with any number
of temporary slots. -/
theorem congruence_alike : Congruence fun first second =>
    ∀ temporaries, Alike context (FrameShape.behind live temporaries) depth first second where
  bind firsts nexts temporaries := .seq (firsts temporaries) fun value => nexts value temporaries
  steady kept _ := kept.alike
  newFunction _ _ := alike_newFunction _
  executable _ _ := alike_executable _
  implementation _ _ _ _ := alike_implementation _ _ _
  withTemporary uses temporaries := alike_withTemporary fun location =>
    FrameShape.behind_succ live temporaries ▸ uses location (temporaries + 1)

/-- Two ways of running activations that run alike behind given calls in progress. -/
def RunsAlike (context : Context) (live : List FrameShape) (depth : Nat)
    (first second : Runner) : Prop :=
  ∀ activation temporaries,
    Alike context (FrameShape.behind live temporaries) depth (first activation) (second activation)

end Exec

end Cil
