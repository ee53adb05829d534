import Cil.Proofs.Isolation.ShimCoverage
import Mathlib.Tactic.ByContra

/-!
# Forwarded calls and shims

A call is forwarded only if no shim names the called method.  The choice of a shim asks more:
a shim also stands for the methods that override its own.  So a forwarded call passes by the
shims of the slots that the method it runs takes over.
-/

namespace Cil

namespace Module

variable {module : Module} {method callee : MethodDef} {isVirtualCall : Bool}
  {receiver? : Option Receiver}

/-- The method that a call runs. -/
def calledMethod (module : Module) (method : MethodDef) (isVirtualCall : Bool)
    (receiver? : Option Receiver) : Except Error MethodDef :=
  match isVirtualCall, receiver?.bind (·.runtimeType?) with
  | true, some type => module.resolveVirtual type method
  | _, _ => .ok method

theorem calledMethod_direct (isDirect : isVirtualCall = false) :
    module.calledMethod method isVirtualCall receiver? = .ok method := by
  subst isDirect
  rfl

theorem calledMethod_without_receiver :
    module.calledMethod method isVirtualCall none = .ok method := by
  cases isVirtualCall <;> rfl

theorem Tables.calledMethod_cases (tables : module.Tables)
    (runs : module.calledMethod method isVirtualCall receiver? = .ok callee) :
    callee = method ∨
      isVirtualCall = true ∧ callee.isStatic = false ∧
        (method.isVirtual || method.isAbstract) := by
  unfold Module.calledMethod at runs
  split at runs
  case h_2 =>
    cases runs
    exact .inl rfl
  case h_1 type _ =>
    by_cases isSlot : (method.isVirtual || method.isAbstract) = true
    · cases static : method.isStatic with
      | true =>
        simp only [resolveVirtual, static, Bool.true_or, if_true] at runs
        cases runs
        exact .inl rfl
      | false =>
        have isInstance : callee.isStatic = false :=
          isStatic_of_resolveVirtual tables static isSlot runs
        exact .inr ⟨rfl, isInstance, isSlot⟩
    · have noSlot : (!method.isVirtual && !method.isAbstract) = true := by
        simpa [not_or] using isSlot
      simp only [resolveVirtual, noSlot, Bool.or_true, if_true] at runs
      cases runs
      exact .inl rfl

end Module

/-- A shim replaces calls on a receiver. -/
def Shim.Takes (module : Module) (receiver : Receiver) (shim : Shim) : Prop :=
  shim.isBoundTo receiver ∨ shim.accepts module receiver

theorem Shim.choose?_without_receiver {module : Module} {shims : List Shim}
    {method : MethodDef} {receiver? : Option Receiver}
    (noReceiver : method.isStatic = true ∨ receiver? = none) :
    choose? module shims method receiver? =
      shims.findIdx? (·.identity == method.identity) := by
  rcases noReceiver with static | rfl
  · simp only [choose?, static]
  · cases static : method.isStatic <;> simp only [choose?, static]

namespace IsolationRun

variable {run : IsolationRun} {module : Module} {method callee : MethodDef}
  {isVirtualCall : Bool} {receiver? : Option Receiver}

/-- A call of a method that is not intrinsic, forwarded by a run. -/
structure Forwarded (run : IsolationRun) (module : Module) (method : MethodDef)
    (isVirtualCall : Bool) (receiver? : Option Receiver) (callee : MethodDef) : Prop where
  reachable : module.Reachable
  isolated : run.isIntrinsic module method = false
  forwards : run.forwards module method isVirtualCall
  runs : module.calledMethod method isVirtualCall receiver? = .ok callee

/-- Without a receiver, or for a static method, only the shims of exactly that method count. -/
theorem identity_of_shimFor? {chosen : Shim}
    (noReceiver : method.isStatic = true ∨ receiver? = none)
    (choice : run.shimFor? module method receiver? = some chosen) :
    chosen ∈ run.shims ∧ chosen.identity = method.identity := by
  obtain ⟨index, found, place⟩ := Option.bind_eq_some_iff.mp choice
  rw [Shim.choose?_without_receiver noReceiver] at found
  obtain ⟨inside, rfl⟩ := List.getElem?_eq_some_iff.mp place
  obtain ⟨_, holds, _⟩ := List.findIdx?_eq_some_iff_getElem.mp found
  exact ⟨List.getElem_mem inside, beq_iff_eq.mp holds⟩

namespace Forwarded

variable (call : run.Forwarded module method isVirtualCall receiver? callee)
include call

/-- What a run checks before it forwards a call. -/
theorem checks :
    Shim.anyNames run.shims method.identity = false ∧
      (isVirtualCall && method.isOverridable) = false ∧ method.isAbstract = false := by
  have forwards := call.forwards
  simp only [IsolationRun.forwards, call.isolated, Bool.false_or, Bool.and_eq_true,
    Bool.not_eq_true'] at forwards
  exact ⟨forwards.1.1.1.1, forwards.1.1.1.2, forwards.1.2⟩

theorem not_named {shim : Shim} (member : shim ∈ run.shims) :
    shim.identity ≠ method.identity := by
  intro names
  have named : Shim.anyNames run.shims method.identity = true :=
    List.any_eq_true.mpr ⟨shim, member, by simp [names]⟩
  rw [call.checks.1] at named
  cases named

/-- Only a virtual call of a final method can run another one, which overrides it all the
same. -/
theorem final_of_ne (other : callee ≠ method) :
    isVirtualCall = true ∧ method.isVirtual = true ∧
      method.flags.contains MethodModifiers.isFinal = true := by
  obtain ⟨_, notOverridable, notAbstract⟩ := call.checks
  rcases call.reachable.tables.calledMethod_cases call.runs with same | ⟨isVirtual, _, isSlot⟩
  · exact absurd same other
  · have slot : method.isVirtual = true := by simpa [notAbstract] using isSlot
    refine ⟨isVirtual, slot, ?_⟩
    simpa [isVirtual, MethodDef.isOverridable, slot] using notOverridable

theorem isInstance_of_ne (other : callee ≠ method) : callee.isStatic = false := by
  rcases call.reachable.tables.calledMethod_cases call.runs with same | ⟨_, isInstance, _⟩
  · exact absurd same other
  · exact isInstance

/-- A forwarded call passes by a shim exactly if a shim that takes the receiver is for a slot
that the run method takes over, or for the method that overrides a final one. -/
theorem exists_shimFor?_iff :
    (∃ chosen, run.shimFor? module callee receiver? = some chosen) ↔
      ∃ receiver, receiver? = some receiver ∧ ∃ shim ∈ run.shims, shim.Takes module receiver ∧
        (module.overrides callee shim.method ∨
          callee ≠ method ∧ shim.identity = callee.identity) := by
  constructor
  · rintro ⟨chosen, choice⟩
    by_cases noReceiver : callee.isStatic = true ∨ receiver? = none
    · obtain ⟨member, names⟩ := identity_of_shimFor? noReceiver choice
      have same : callee = method := by
        rcases noReceiver with static | rfl
        · by_contra other
          simp [call.isInstance_of_ne other] at static
        · have runs := call.runs
          rw [Module.calledMethod_without_receiver] at runs
          exact (Except.ok.inj runs).symm
      exact absurd (same ▸ names) (call.not_named member)
    · obtain ⟨isInstance, hasReceiver⟩ := not_or.mp noReceiver
      obtain ⟨receiver, rfl⟩ := Option.ne_none_iff_exists'.mp hasReceiver
      obtain ⟨member, covers, takes⟩ :=
        matches_of_shimFor? (Bool.eq_false_iff.mpr isInstance) choice
      refine ⟨receiver, rfl, chosen, member, takes, ?_⟩
      rcases Bool.or_eq_true_iff.mp covers with names | overrides
      · have names := beq_iff_eq.mp names
        exact .inr ⟨fun same => call.not_named member (same ▸ names), names⟩
      · exact .inl overrides
  · rintro ⟨receiver, rfl, shim, member, takes, overrides | ⟨other, names⟩⟩
    · have isInstance : callee.isStatic = false := by
        simp only [Module.overrides, Bool.and_eq_true, Bool.not_eq_true'] at overrides
        exact overrides.1.1.1.2
      exact exists_shimFor? isInstance member ⟨by simp [Shim.covers, overrides], takes⟩
    · exact exists_shimFor? (call.isInstance_of_ne other) member
        ⟨by simp [Shim.covers, names], takes⟩

end Forwarded

end IsolationRun

/-! ## Bells -/

namespace Bells

open Stateful

def base : Token := .ofRow .typeDef 18
def derived : Token := .ofRow .typeDef 19

def ring : MethodDeclaration :=
  { name := "Ring", flags := MethodModifiers.isVirtual, returnType := .int32 }

def module : Module :=
  finalState (Module.declareMethod derived ring.asInternalCall (finalState
    (Module.declareType { space := "Demo", name := "Derived", base? := some base } (finalState
      (Module.declareMethod base ring (finalState
        (Module.declareType { space := "Demo", name := "Base" } Module.initial)))))))

theorem module_reachable : module.Reachable :=
  .declareMethod _ _ (.declareType _ (.declareMethod _ _ (.declareType _ .initial)))

def method (row : Nat) : MethodDef :=
  ((module.method (.ofRow .methodDef row)).toOption).getD default

def run (receiver : ReceiverMatch) : IsolationRun :=
  { shims := [{ Greeters.replacing (method 26) with receiver }], config := {} }

def receiver : Receiver := ⟨some ⟨1⟩, some derived⟩

theorem forwarded (scope : ReceiverMatch)
    (forwards : (run scope).forwards module (method 27) false) :
    (run scope).Forwarded module (method 27) false (some receiver) (method 27) where
  reachable := module_reachable
  isolated := by
    have isolated : ForwardPolicy.isIntrinsic {} module (method 27) = false := by
      decide +kernel
    exact isolated
  forwards := forwards
  runs := Module.calledMethod_direct rfl

/-- A shim for another object does not miss the forwarded call. -/
theorem other_object_not_bypassed :
    ¬ ∃ chosen,
      (run (.object ⟨2⟩)).shimFor? module (method 27) (some receiver) = some chosen := by
  have call := forwarded (.object ⟨2⟩) (by decide +kernel)
  rw [IsolationRun.Forwarded.exists_shimFor?_iff call]
  rintro ⟨_, same, shim, member, takes, _⟩
  obtain rfl := Option.some.inj same
  obtain rfl := List.mem_singleton.mp member
  rcases takes with bound | accepts
  · exact absurd bound (by decide)
  · exact absurd accepts (by decide)

/-- A shim for every receiver stands for the method that the forwarded call runs. -/
theorem override_bypasses_shim :
    ¬ ∀ (run : IsolationRun) (module : Module) (method callee : MethodDef)
      (isVirtualCall : Bool) (receiver? : Option Receiver),
      run.Forwarded module method isVirtualCall receiver? callee →
        (∀ receiver type, receiver? = some receiver → receiver.runtimeType? = some type →
          module.isSubtypeOf type method.declaringType) →
        run.shimFor? module callee receiver? = none := by
  intro neverBypassed
  have call := forwarded .any (by decide +kernel)
  have fits : ∀ receiver' type, some receiver = some receiver' →
      receiver'.runtimeType? = some type →
      module.isSubtypeOf type (method 27).declaringType := by
    rintro _ _ ⟨⟩ ⟨⟩
    decide +kernel
  have isNone := congrArg Option.isNone (neverBypassed _ _ _ _ _ _ call fits)
  have found :
      ((run .any).shimFor? module (method 27) (some receiver)).isNone = false := by
    decide +kernel
  rw [found] at isNone
  cases isNone

end Bells

end Cil
