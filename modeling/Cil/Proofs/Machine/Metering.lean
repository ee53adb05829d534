import Cil.Proofs.LongWalks
import Cil.Proofs.Machine.Beyond
import Cil.Proofs.Machine.CallsInProgress

/-!
# Metered executions

A limited execution is compared with one that has at least its limits and goes on beyond the
bounds of the machine.  Both end in the same way within the limit, unless the limited one is cut
off by it, or a value was to be displayed that leads from box to box for ever.
-/

namespace Cil

open Stateful
open MonadExcept (ofExcept)

/-! ## Boxes -/

/-- The value in the box that a value refers to, where the box is displayed as that value. -/
def Heap.inBox? (heap : Heap) : Value → Option Value
  | .object reference =>
    match heap.object? reference with
    | some (.boxed type payload) =>
      if type = Core.boolean ∨ type = Core.char then none else some payload
    | _ => none
  | _ => none

/-- Where the object that a value refers to stands on the heap. -/
def Value.place : Value → Nat
  | .object reference => reference.id - 1
  | _ => 0

theorem Heap.place_of_object? {heap : Heap} {reference : HeapRef} {object : HeapObject}
    (present : heap.object? reference = some object) :
    Value.object reference = .object ⟨(Value.object reference).place + 1⟩ ∧
      (Value.object reference).place < heap.count := by
  unfold object? at present
  split at present
  · cases present
  · rename_i index isId
    have named : reference.id = index + 1 := isId
    have place : (Value.object reference).place = index := by
      simp only [Value.place, named, Nat.add_sub_cancel]
    rw [place, ← named]
    exact ⟨rfl, (Array.getElem?_eq_some_iff.mp present).1⟩

/-- From a value one can go from box to box for ever. -/
def Heap.Endless (heap : Heap) (value : Value) : Prop :=
  ∀ steps, Walks (fun outer inner => heap.inBox? outer = some inner) steps value

/-! ## Metered pieces of execution -/

/-- Limits that bound an execution, and limits that may allow for more instructions. -/
structure Limits.Within (limits longer : Limits) : Prop where
  instructions : 0 < limits.instructions
  callDepth : 0 < limits.callDepth
  sameDepth : longer.callDepth = limits.callDepth
  longer : longer.instructions = 0 ∨ limits.instructions ≤ longer.instructions

namespace Exec

/-- How a limited execution ends, compared with a longer one. -/
inductive Ended {α : Type} (limit : Nat) (start : Machine)
    (short long : EStateM.Result Error Machine α) : Prop
  | same (same : long = short) (later : start.executed ≤ (finalState short).executed)
      (within : (finalState short).executed ≤ limit)
      (depth : (finalState short).depth = start.depth)
  | cut {final : Machine} (failed : short = .error (.instructionLimit limit) final)
      (spent : final.executed = limit + 1)
  | looped {final : Machine} (failed : short = .error .outOfFuel final)
      (within : final.executed ≤ limit) (endless : ∃ value, final.heap.Endless value)

/-- A piece of execution under limits ends like one under longer limits, from any machine that
has executed at least so many instructions and at most the limit. -/
def Metered {α : Type} (module : Module) (limits longer : Limits) (depth least : Nat)
    (first second : Exec α) : Prop :=
  ∀ machine : Machine, least ≤ machine.executed → machine.executed ≤ limits.instructions →
    machine.depth = depth →
    Ended limits.instructions machine (first ⟨module, limits⟩ machine)
      (second ⟨module, longer⟩ machine)

variable {α β : Type} {module : Module} {limits longer : Limits} {depth least : Nat}

/-- What follows is compared only where both go on alike. -/
theorem Ended.bind {machine : Machine} {first second : Exec α} {next other : α → Exec β}
    {limit : Nat} {context longContext : Context}
    (firsts : Ended limit machine (first context machine) (second longContext machine))
    (nexts : ∀ value middle, first context machine = .ok value middle →
      machine.executed ≤ middle.executed → middle.executed ≤ limit →
      middle.depth = machine.depth →
      Ended limit middle (next value context middle) (other value longContext middle)) :
    Ended limit machine ((first >>= next) context machine)
      ((second >>= other) longContext machine) := by
  rw [bind_run, bind_run]
  cases firsts with
  | cut failed spent => rw [failed]; exact .cut rfl spent
  | looped failed within endless => rw [failed]; exact .looped rfl within endless
  | same same later within depth =>
      rw [same]
      cases ran : first context machine with
      | error error final =>
          rw [ran] at later within depth
          exact .same rfl later within depth
      | ok value middle =>
          rw [ran] at later within depth
          cases nexts value middle ran later within depth with
          | cut failed spent => exact .cut failed spent
          | looped failed within endless => exact .looped failed within endless
          | same sameNext laterNext withinNext depthNext =>
              exact .same sameNext (Nat.le_trans later laterNext) withinNext
                (depthNext.trans depth)

namespace Metered

variable {first second : Exec α}

theorem weaken {more : Nat} (metered : Metered module limits longer depth least first second)
    (le : least ≤ more) : Metered module limits longer depth more first second :=
  fun machine enough => metered machine (Nat.le_trans le enough)

/-- More instructions than the limit allows for have not been executed. -/
theorem of_lt (spent : limits.instructions < least) :
    Metered module limits longer depth least first second :=
  fun _ enough within => absurd (Nat.le_trans enough within) (Nat.not_le.mpr spent)

theorem bind {next other : α → Exec β}
    (firsts : Metered module limits longer depth least first second)
    (nexts : ∀ value, Metered module limits longer depth least (next value) (other value)) :
    Metered module limits longer depth least (first >>= next) (second >>= other) :=
  fun machine enough within stands =>
    (firsts machine enough within stands).bind fun value middle _ later within depth =>
      nexts value middle (Nat.le_trans enough later) within (depth.trans stands)

theorem of_unmetered {action : Exec α} (free : Unmetered action)
    (stays : ∀ machine, (finalState (action ⟨module, limits⟩ machine)).depth = machine.depth) :
    Metered module limits longer depth least action action := by
  intro machine enough within stands
  obtain ⟨same, count⟩ := free module limits longer machine
  exact .same same (Nat.le_of_eq count.symm) (by rw [count]; exact within) (stays machine)

theorem steady {action : Exec α} (kept : Steady action) :
    Metered module limits longer depth least action action :=
  of_unmetered kept.unmetered fun machine =>
    (kept.keeps ⟨module, limits⟩ machine machine (.refl machine)).calls.depth

theorem catchThrown (metered : Metered module limits longer depth least first second) :
    Metered module limits longer depth least (catchThrown first) (catchThrown second) := by
  intro machine enough within stands
  unfold Exec.catchThrown
  cases metered machine enough within stands with
  | cut failed spent => rw [failed]; exact .cut rfl spent
  | looped failed within endless => rw [failed]; exact .looped rfl within endless
  | same same later within depth =>
      rw [same]
      cases ran : first ⟨module, limits⟩ machine with
      | ok value final =>
          rw [ran] at later within depth
          exact .same rfl later within depth
      | error error final =>
          rw [ran] at later within depth
          cases error <;> exact .same rfl later within depth

/-- Where exceptions have cost an instruction, what goes on from one that is caught is an
instruction further. -/
theorem catch_bind {next other : Except HeapRef α → Exec β}
    (metered : Metered module limits longer depth least first second)
    (costs : ∀ machine exception final, least ≤ machine.executed →
      machine.executed ≤ limits.instructions → machine.depth = depth →
      first ⟨module, limits⟩ machine = .error (.thrown exception) final →
      machine.executed < final.executed)
    (oks : ∀ value, Metered module limits longer depth least (next (.ok value))
      (other (.ok value)))
    (errors : ∀ exception, Metered module limits longer depth (least + 1)
      (next (.error exception)) (other (.error exception))) :
    Metered module limits longer depth least (Exec.catchThrown first >>= next)
      (Exec.catchThrown second >>= other) := by
  intro machine enough within stands
  refine (metered.catchThrown machine enough within stands).bind
    fun outcome middle ran later withinMiddle depthMiddle => ?_
  cases outcome with
  | ok value =>
      exact oks value middle (Nat.le_trans enough later) withinMiddle (depthMiddle.trans stands)
  | error exception =>
      have cost := costs machine exception middle enough within stands
        (catchThrown_error_iff.mp ran)
      exact errors exception middle (Nat.lt_of_le_of_lt enough cost) withinMiddle
        (depthMiddle.trans stands)

/-- What is cleaned up afterwards is neither counted nor on the heap. -/
theorem andFinally_run {machine start : Machine} {cleanUp : Machine → Machine}
    (ended : Ended limits.instructions start (first ⟨module, limits⟩ machine)
      (second ⟨module, longer⟩ machine))
    (count : ∀ machine, (cleanUp machine).executed = machine.executed)
    (heap : ∀ machine, (cleanUp machine).heap = machine.heap)
    {before : Machine} (executed : before.executed = start.executed)
    (depth : ∀ machine, machine.depth = start.depth → (cleanUp machine).depth = before.depth) :
    Ended limits.instructions before (andFinally first cleanUp ⟨module, limits⟩ machine)
      (andFinally second cleanUp ⟨module, longer⟩ machine) := by
  unfold Exec.andFinally
  cases ended with
  | cut failed spent => rw [failed]; exact .cut rfl ((count _).trans spent)
  | looped failed within endless =>
      rw [failed]
      exact .looped rfl (by rw [count]; exact within) (by rw [heap]; exact endless)
  | same same later within stands =>
      rw [same]
      cases ran : first ⟨module, limits⟩ machine <;> rw [ran] at later within stands <;>
        exact .same rfl (by rw [executed]; simpa only [finalState, count] using later)
          (by simpa only [finalState, count] using within) (depth _ stands)

end Metered

/-! ## What is not a call -/

theorem unmetered_newFunction (callable : Callable) : Unmetered (newFunction callable) :=
  fun _ _ _ _ => ⟨rfl, rfl⟩

theorem unmetered_executable (method : MethodDef) : Unmetered (executable method) := by
  have remembers (code : MethodCode) : Unmetered (do
      modify fun machine : Machine =>
        { machine with bodies := (method.token, code) :: machine.bodies }
      return code) :=
    fun _ _ _ _ => ⟨rfl, rfl⟩
  have decodes : Unmetered (decoded method) := by
    refine Steady.get.unmetered.bind fun machine => ?_
    split
    · exact (Steady.pure _).unmetered
    · exact Steady.module.unmetered.bind fun _ => (Steady.ofExcept _).unmetered.bind remembers
  refine decodes.attempt.bind fun outcome => ?_
  split
  · exact (Steady.pure _).unmetered
  · exact Steady.module.unmetered.bind fun _ => (Steady.throw _).unmetered
  · exact (Steady.throw _).unmetered

theorem unmetered_implementation (site : Stub) (method : MethodDef) (forInterface : Bool) :
    Unmetered (implementation site method forInterface) := by
  refine (steady_runOf site).unmetered.bind fun isolation =>
    Steady.module.unmetered.bind fun module => fun _ _ _ machine => ?_
  unfold onRun
  cases IsolationRun.implementation module site.run method forInterface isolation <;>
    exact ⟨rfl, rfl⟩

/-- Everything that is not a call is metered like the calls that it makes. -/
theorem congruence_metered : Congruence (Metered module limits longer depth least) where
  bind := Metered.bind
  steady := Metered.steady
  newFunction callable := .of_unmetered (unmetered_newFunction callable) fun _ => rfl
  executable method := .of_unmetered (unmetered_executable method) fun _ =>
    ((alike_executable method).stands_finalState ⟨rfl, rfl⟩).depth
  implementation site method forInterface :=
    .of_unmetered (unmetered_implementation site method forInterface) fun _ =>
      ((alike_implementation site method forInterface).stands_finalState ⟨rfl, rfl⟩).depth
  withTemporary {initial first second} uses := by
    intro machine enough within stands
    rw [withTemporary_run, withTemporary_run]
    cases uses (.localSlot machine.frames.size 0)
      { machine with frames := machine.frames.push { arguments := #[], locals := #[initial] } }
      enough within stands with
    | cut failed spent => rw [failed]; exact .cut rfl spent
    | looped failed within endless => rw [failed]; exact .looped rfl within endless
    | same same later within depth =>
        rw [same]
        cases ran : first (.localSlot machine.frames.size 0) ⟨module, limits⟩ { machine with
            frames := machine.frames.push { arguments := #[], locals := #[initial] } } <;>
          rw [ran] at later within depth <;> exact .same rfl later within depth

/-! ## Calls -/

/-- A call counts itself in and out, within the limit of the depth. -/
theorem metered_asCall {first second : Exec α} (bounded : limits.Within longer)
    (inner : depth < limits.callDepth →
      Metered module limits longer (depth + 1) least first second) :
    Metered module limits longer depth least (asCall first) (asCall second) := by
  intro machine enough within stands
  rw [asCall_run, asCall_run]
  dsimp only
  rw [bounded.sameDepth]
  by_cases full : 0 < limits.callDepth ∧ limits.callDepth ≤ machine.depth
  · rw [if_pos full, if_pos full]
    exact .same rfl (Nat.le_refl _) within rfl
  · rw [if_neg full, if_neg full]
    have shallow : depth < limits.callDepth := by
      rw [stands] at full
      have := bounded.callDepth
      omega
    have ended := inner shallow { machine with depth := machine.depth + 1 } enough within
      (congrArg (· + 1) stands)
    refine Metered.andFinally_run ended ?_ ?_ rfl ?_
    · exact fun _ => rfl
    · exact fun _ => rfl
    · exact fun final inside => by
        change final.depth - 1 = machine.depth
        rw [inside, Nat.add_sub_cancel]

theorem metered_inFrame {code : MethodCode} {arguments : List Value}
    {first second : Nat → Exec Value}
    (bodies : ∀ frame, Metered module limits longer depth least (first frame) (second frame)) :
    Metered module limits longer depth least (inFrame code arguments first)
      (inFrame code arguments second) := by
  refine .bind (.steady .module) fun _ => .bind (.steady (.ofExcept _)) fun locals =>
    .bind (.steady .get) fun before => .bind
      (.of_unmetered (fun _ _ _ _ => ⟨rfl, rfl⟩) fun _ => rfl) fun _ => ?_
  intro machine enough within stands
  refine Metered.andFinally_run (bodies _ machine enough within stands) ?_ ?_ rfl ?_
  · exact fun _ => rfl
  · exact fun _ => rfl
  · exact fun _ inside => inside

end Exec

end Cil
