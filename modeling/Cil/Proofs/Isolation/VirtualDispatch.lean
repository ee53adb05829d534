import Cil.Proofs.Code.Bodies
import Cil.Proofs.Isolation.ShimCoverage
import Cil.Proofs.Machine.Locations
import Cil.Proofs.Machine.Quiet

/-!
# Virtual dispatch through stubs

A stub of a run without shims calls the method that the interpreter would call, on the
receiver that the interpreter would pass.  There are exceptions: the stub takes the address of
a null reference for null, it has to read an address that the interpreter only passes on, and
the bodies that were rewritten for interface calls take objects, so that a value that is given
by address is copied into a box and what the body writes is lost.
-/

namespace Cil

open Stateful
open MonadExcept (ofExcept)

namespace Exec

/-! ## What a virtual call comes to -/

/-- A call by `callvirt`, on behalf of a type if one is named. -/
def virtualCall (run : Runner) (constraint? : Option Token) (method : MethodDef)
    (arguments : List Value) : Exec Value :=
  match constraint? with
  | some constraint => callConstrained run constraint method arguments
  | none => callVirtual run method arguments

/-- The same call through a stub. -/
def stubbedCall (run : Runner) (site : Stub) (constraint? : Option Token) (method : MethodDef)
    (arguments : List Value) : Exec Value :=
  match constraint? with
  | some constraint => stubConstrained run site constraint method arguments
  | none => stubVirtual run site method arguments

/-- What a virtual call comes to: a call of the method that the named type itself has, on the
address that was given, or a virtual call on a receiver. -/
inductive Plan
  | own (target : MethodDef)
  | virtual (receiver : Value)

def planned (constraint? : Option Token) (method : MethodDef) (receiver : Value) : Exec Plan := do
  match constraint?, receiver with
  | some constraint, .pointer location =>
    let module ← module
    if !module.isValueType constraint then return .virtual (← load location)
    else
      let target ← ofExcept (module.resolveVirtual constraint method)
      if target.declaringType = constraint then return .own target
      else return .virtual (← box constraint (← load location))
  | _, _ => return .virtual receiver

namespace Plan

/-- The method that the interpreter runs; there is none for null. -/
def target? (method : MethodDef) : Plan → Exec (Option MethodDef)
  | own target => return some target
  | virtual receiver => do
    if receiver.isNull then return none
    match ← receiverType? receiver with
    | none => return some method
    | some type => return some (← ofExcept ((← module).resolveVirtual type method))

/-- The method that a stub runs; there is none for null. -/
def stubTarget? (method : MethodDef) (address : Value) : Plan → Exec (Option MethodDef)
  | own target => do
    let _ ← receiverOf? address
    return some target
  | virtual receiver => do
    match ← receiverOf? receiver with
    | none => return none
    | some known => return some (← resolve method known)

/-- The receiver that the interpreter passes on. -/
def passed (module : Module) (target : MethodDef) (address : Value) : Plan → Value
  | own _ => address
  | virtual receiver =>
    if module.isValueType target.declaringType then unboxedReceiver receiver else receiver

/-- The receiver that a stub passes on. -/
def stubPassed (module : Module) (target : MethodDef) (wantsBox : Bool) (address : Value) :
    Plan → Exec Value
  | own _ => return address
  | virtual receiver =>
    if module.isValueType target.declaringType then
      adjustReceiver target.declaringType wantsBox receiver
    else return receiver

/-- Whether a stub asks for a body that is rewritten for interface calls. -/
def forInterface (module : Module) (method : MethodDef) : Plan → Bool
  | own _ => false
  | virtual _ => module.isInterface method.declaringType

/-- The call that the interpreter makes. -/
def run (runner : Runner) (method : MethodDef) (receiver : Value) (others : List Value)
    (plan : Plan) : Exec Value := do
  match ← plan.target? method with
  | none => nullReference
  | some target => callMethod runner target (plan.passed (← module) target receiver :: others)

/-- The call that a stub makes. -/
def runStub (runner : Runner) (site : Stub) (method : MethodDef) (receiver : Value)
    (others : List Value) (plan : Plan) : Exec Value := do
  match ← plan.stubTarget? method receiver with
  | none => nullReference
  | some target =>
    let forInterface := plan.forInterface (← module) method
    let callable ← implementation site target forInterface
    let passed ←
      plan.stubPassed (← module) target (forInterface && isDynamic callable) receiver
    invoke runner callable (passed :: others)

end Plan

/-! ## The interpreter's calls -/

variable {context : Context} {machine middle after final : Machine}

theorem raise_bind {α β : Type} (type : Token) (message? : Option String) (next : α → Exec β) :
    (raise type message? >>= next) = raise type message? := by
  funext context machine
  unfold raise
  simp only [bind_run]
  cases newException type message? context machine <;> rfl

/-- A receiver without a type is no object. -/
theorem unboxedReceiver_of_unknown {receiver : Value}
    (unknown : receiverType? receiver context machine = .ok none middle) :
    unboxedReceiver receiver = receiver := by
  cases receiver with
  | object reference =>
    obtain ⟨_, _, _, known⟩ := bind_ok_iff.mp unknown
    cases known
  | _ => rfl

theorem callVirtual_eq (run : Runner) (method : MethodDef) (receiver address : Value)
    (others : List Value) :
    callVirtual run method (receiver :: others) =
      (Plan.virtual receiver).run run method address others := by
  cases isNull : receiver.isNull with
  | true =>
    simp only [callVirtual, Plan.run, Plan.target?, isNull, if_true, pure_bind, nullReference,
      raise_bind]
  | false =>
    funext context machine
    simp only [callVirtual, Plan.run, Plan.target?, isNull, Bool.false_eq_true, if_false,
      bind_assoc]
    rw [bind_run, bind_run]
    cases typed : receiverType? receiver context machine with
    | error => rfl
    | ok type? middle =>
      cases type? with
      | none =>
        simp only [pure_bind, Plan.passed]
        rw [unboxedReceiver_of_unknown typed, bind_of_ok module_run]
        simp only [ite_self]
      | some type =>
        simp only [bind_assoc, pure_bind, Plan.passed, bind_of_ok module_run]
        cases context.module.resolveVirtual type method with
        | error => rfl
        | ok target =>
          rw [bind_of_ok (ofExcept_ok_run _), bind_of_ok (ofExcept_ok_run _),
            bind_of_ok module_run]

/-- Both dispatchers of constrained calls go on in one of two ways. -/
theorem planned_bind {α : Type} (constraint : Token) (method : MethodDef) (location : Pointer)
    (next : Plan → Exec α) :
    planned (some constraint) method (.pointer location) >>= next = (do
      let module ← module
      if !module.isValueType constraint then next (.virtual (← load location))
      else
        let target ← ofExcept (module.resolveVirtual constraint method)
        if target.declaringType = constraint then next (.own target)
        else next (.virtual (← box constraint (← load location)))) := by
  simp only [planned, bind_assoc]
  refine bind_congr fun module => ?_
  split
  · simp only [bind_assoc, pure_bind]
  · simp only [bind_assoc]
    refine bind_congr fun target => ?_
    split <;> simp only [bind_assoc, pure_bind]

theorem virtualCall_eq (run : Runner) (constraint? : Option Token) (method : MethodDef)
    (receiver : Value) (others : List Value) :
    virtualCall run constraint? method (receiver :: others) =
      planned constraint? method receiver >>= Plan.run run method receiver others := by
  cases constraint? with
  | none =>
    simp only [virtualCall, planned, pure_bind]
    exact callVirtual_eq ..
  | some constraint =>
    cases receiver with
    | pointer location =>
      have own (target : MethodDef) :
          (Plan.own target).run run method (.pointer location) others =
            callMethod run target (.pointer location :: others) := by
        funext context machine
        simp only [Plan.run, Plan.target?, Plan.passed, pure_bind]
        rw [bind_of_ok module_run]
      rw [planned_bind]
      simp only [own, ← callVirtual_eq]
      rfl
    | _ =>
      simp only [virtualCall, callConstrained, planned, pure_bind]
      exact callVirtual_eq ..

/-! ## The calls of stubs -/

/-- A call of an instance method through a stub of a run without shims. -/
structure UnshimmedCall (context : Context) (machine : Machine) (site : Stub)
    (method : MethodDef) : Prop where
  isInstance : method.isStatic = false
  declared : ∃ type, context.module.typeDef method.declaringType = .ok type
  active : ∃ isolation, machine.run? site.run = some isolation ∧ isolation.shims = []

variable {site : Stub} {method : MethodDef}

theorem UnshimmedCall.later {α : Type} {action : Exec α} {value : α}
    (call : UnshimmedCall context machine site method) (kept : Steady action)
    (ran : action context machine = .ok value middle) :
    UnshimmedCall context middle site method where
  isInstance := call.isInstance
  declared := call.declared
  active := by
    have after := kept.keeps context machine machine (.refl machine)
    rw [ran] at after
    have runs : middle.runs = machine.runs := after.code.runs
    simpa only [Machine.run?, runs] using call.active

theorem UnshimmedCall.shimFor? (call : UnshimmedCall context machine site method)
    (target : MethodDef) (receiver? : Option Receiver) :
    shimFor? site target receiver? context machine = .ok none machine := by
  obtain ⟨isolation, active, noShims⟩ := call.active
  exact shimFor?_of_noShims active noShims target receiver?

theorem stubVirtual_eq (call : UnshimmedCall context machine site method) (run : Runner)
    (receiver address : Value) (others : List Value) :
    stubVirtual run site method (receiver :: others) context machine =
      (Plan.virtual receiver).runStub run site method address others context machine := by
  simp only [stubVirtual, Plan.runStub, Plan.stubTarget?, bind_assoc]
  rw [bind_run, bind_run]
  cases described : receiverOf? receiver context machine with
  | error => rfl
  | ok known? middle =>
    have call := call.later (steady_receiverOf? receiver) described
    cases known? with
    | none => simp only [pure_bind]
    | some known =>
      simp only [bind_assoc, pure_bind]
      rw [bind_run, bind_run]
      cases chosen : resolve method known context middle with
      | error => rfl
      | ok target after =>
        have call := call.later (steady_resolve method known) chosen
        obtain ⟨type, declared⟩ := call.declared
        have isInterface : context.module.isInterface method.declaringType = type.isInterface := by
          rw [Module.isInterface, declared]
        dsimp only
        rw [bind_of_ok (call.shimFor? target known), bind_of_ok module_run]
        dsimp only
        rw [bind_of_ok module_run, declared, bind_of_ok (ofExcept_ok_run _)]
        simp only [Plan.forInterface, isInterface, Plan.stubPassed]
        rw [bind_run, bind_run]
        cases implementation site target type.isInterface context after with
        | error => rfl
        | ok callable final =>
          dsimp only
          rw [bind_of_ok module_run]
          split
          · rfl
          · rw [pure_bind]

/-- A stub's call of exactly a method reads the receiver first. -/
theorem stubCall_eq (call : UnshimmedCall context machine site method) (run : Runner)
    {target : MethodDef} (isInstance : target.isStatic = false) (address : Value)
    (others : List Value) :
    stubCall run site target (address :: others) context machine =
      (Plan.own target).runStub run site method address others context machine := by
  simp only [stubCall, isInstance, Plan.runStub, Plan.stubTarget?, Plan.forInterface,
    Plan.stubPassed, bind_assoc, pure_bind]
  rw [bind_run, bind_run]
  cases described : receiverOf? address context machine with
  | error => rfl
  | ok known? middle =>
    have call := call.later (steady_receiverOf? address) described
    have invoked : (implementation site target false >>= fun callable =>
        module >>= fun _ => invoke run callable (address :: others)) context middle =
        (implementation site target false >>= fun callable =>
          invoke run callable (address :: others)) context middle := by
      rw [bind_run, bind_run]
      cases implementation site target false context middle with
      | error => rfl
      | ok callable final => exact bind_of_ok module_run
    dsimp only
    rw [bind_of_ok module_run, invoked]
    split
    · rfl
    · rw [bind_of_ok (call.shimFor? target known?)]

theorem stubbedCall_eq (call : UnshimmedCall context machine site method) (run : Runner)
    (constraint? : Option Token) (receiver : Value) (others : List Value) :
    stubbedCall run site constraint? method (receiver :: others) context machine =
      (planned constraint? method receiver >>= Plan.runStub run site method receiver others)
        context machine := by
  cases constraint? with
  | none =>
    simp only [stubbedCall, planned, pure_bind]
    exact stubVirtual_eq call ..
  | some constraint =>
    cases receiver with
    | pointer location =>
      rw [planned_bind]
      simp only [stubbedCall, stubConstrained]
      rw [bind_of_ok module_run, bind_of_ok module_run]
      split
      · rw [bind_run, bind_run]
        cases loaded : load location context machine with
        | error => rfl
        | ok value middle =>
          exact stubVirtual_eq (call.later (steady_load location) loaded) ..
      · cases resolved : context.module.resolveVirtual constraint method with
        | error => rfl
        | ok target =>
          rw [bind_of_ok (ofExcept_ok_run _), bind_of_ok (ofExcept_ok_run _)]
          split
          · exact stubCall_eq call run
              (Module.isInstance_of_resolveVirtual call.isInstance resolved) ..
          · rw [bind_run, bind_run]
            cases loaded : load location context machine with
            | error => rfl
            | ok value middle =>
              have call := call.later (steady_load location) loaded
              dsimp only
              rw [bind_run, bind_run]
              cases boxed : box constraint value context middle with
              | error => rfl
              | ok object after =>
                exact stubVirtual_eq (call.later (steady_box constraint value) boxed) ..
    | _ =>
      simp only [stubbedCall, stubConstrained, planned, pure_bind]
      exact stubVirtual_eq call ..

end Exec

end Cil
