import Cil.Isolation.Instrumentation
import Cil.Proofs.Stateful
import Cil.Proofs.Metadata.Slots

/-!
# Stubs of a run

A stub takes the values that the call takes and leaves a result where the call does.  The
stubs that a run remembers were all made for methods of the identity under which they are
remembered, so they can stand in for every call of such a method.
-/

namespace Cil

open Stateful
open MonadExcept (ofExcept)
open Instrumentation (forwardedEffect)

/-! ## The effect of a stub -/

theorem Core.primitiveSig?_ne_void (type : Token) : primitiveSig? type ≠ some .void := by
  unfold primitiveSig?
  grind

/-- No type is written as the absence of a value. -/
theorem Module.typeSig_ne_void {module : Module} {type : Token} {signature : TypeSig}
    (found : module.typeSig type = .ok signature) : signature ≠ .void := by
  unfold typeSig at found
  rintro rfl
  split at found
  · rename_i primitive known
    cases found
    exact Core.primitiveSig?_ne_void type known
  · obtain ⟨definition, _, found⟩ := except_bind_eq_ok.mp found
    have signatureEq : definition.signature = .void := Except.ok.inj found
    unfold TypeDef.signature at signatureEq
    split at signatureEq <;> cases signatureEq

namespace StubKind

/-- What calls of a kind take from the stack and whether they leave a result. -/
def effect (kind : StubKind) (method : MethodDef) : Nat × Bool :=
  match kind with
  | call | virtual | constrained _ => (method.signature.stackPops, method.signature.hasResult)
  | construct => (method.params.length, true)
  | functionPointer => (0, true)
  | virtualFunctionPointer => (1, true)

theorem effect_congr {first second : MethodDef} (same : first.identity = second.identity)
    (kind : StubKind) : kind.effect first = kind.effect second := by
  obtain ⟨_, _, _, params, isStatic, _, _⟩ := MethodDef.of_identity same
  have returnType : first.returnType = second.returnType := congrArg (·.returnType) same
  cases kind <;>
    simp only [effect, MethodDef.signature, MethodSignature.stackPops, MethodSignature.hasResult,
      params, isStatic, returnType]

theorem forwardedEffect_eq_effect {opcode : Opcode} {constraint? : Option Token}
    {kind : StubKind} (isKind : ofOpcode? opcode constraint? = some kind) (method : MethodDef) :
    forwardedEffect opcode method = kind.effect method := by
  cases opcode <;> cases constraint? <;> cases isKind <;> rfl

theorem stackPops_of_instance {method : MethodDef} (isInstance : method.isStatic = false) :
    method.signature.stackPops = method.params.length + 1 := by
  simp [MethodDef.signature, MethodSignature.stackPops, isInstance]

theorem effect_signature {module : Module} {kind : StubKind} {method : MethodDef}
    {params : List TypeSig} {returnType : TypeSig}
    (signed : kind.signature module method = .ok (params, returnType)) :
    (params.length, returnType != .void) = kind.effect method := by
  have withReceiver {receiver : Except Error TypeSig} (isInstance : ¬ method.isStatic = true)
      (signed : (do return ((← receiver) :: method.params, method.returnType)) =
        Except.ok (params, returnType)) :
      (params.length, returnType != .void) =
        (method.signature.stackPops, method.signature.hasResult) := by
    obtain ⟨_, _, final⟩ := except_bind_eq_ok.mp signed
    cases final
    rw [stackPops_of_instance (by simpa using isInstance)]
    rfl
  cases kind with
  | call =>
      simp only [signature] at signed
      split at signed
      · rename_i isStatic
        cases signed
        simp [effect, MethodDef.signature, MethodSignature.stackPops, MethodSignature.hasResult,
          isStatic]
      · rename_i isInstance
        exact withReceiver isInstance signed
  | virtual =>
      simp only [signature] at signed
      split at signed
      · cases signed
      · rename_i isInstance
        exact withReceiver isInstance signed
  | constrained constraint =>
      simp only [signature] at signed
      split at signed
      · cases signed
      · rename_i isInstance
        obtain ⟨_, _, final⟩ := except_bind_eq_ok.mp signed
        cases final
        rw [effect, stackPops_of_instance (by simpa using isInstance)]
        rfl
  | construct =>
      simp only [signature] at signed
      split at signed
      · obtain ⟨result, typed, final⟩ := except_bind_eq_ok.mp signed
        cases final
        simp [effect, Module.typeSig_ne_void typed]
      · cases signed
  | functionPointer =>
      cases signed
      rfl
  | virtualFunctionPointer =>
      simp only [signature] at signed
      split at signed
      · cases signed
      · cases signed
        rfl

end StubKind

/-- A stub takes and leaves what its call takes and leaves. -/
theorem Stub.effect_native {module : Module} {stub : Stub} {native : Native}
    (made : stub.native module = .ok native) :
    (native.params.length, native.returnType != .void) = stub.kind.effect stub.target := by
  obtain ⟨⟨params, returnType⟩, signed, final⟩ := except_bind_eq_ok.mp made
  cases final
  exact StubKind.effect_signature signed

/-- A stub was made for a kind of call of a method of an identity. -/
def Native.MadeFor (kind : StubKind) (identity : MethodIdentity) (native : Native) : Prop :=
  ∃ module id target, target.identity = identity ∧
    Stub.native module ⟨id, kind, target⟩ = .ok native

/-- A stub takes and leaves what the calls of the methods that it was made for do. -/
theorem Native.MadeFor.effect {kind : StubKind} {method : MethodDef} {native : Native}
    (made : native.MadeFor kind method.identity) :
    (native.params.length, native.returnType != .void) = kind.effect method := by
  obtain ⟨_, _, target, same, made⟩ := made
  rw [Stub.effect_native made, StubKind.effect_congr same]

/-- A stub makes calls of the kind and of a method of the identity that it was made for. -/
theorem Native.MadeFor.body {kind : StubKind} {identity : MethodIdentity} {native : Native}
    (made : native.MadeFor kind identity) :
    ∃ site, native.body = .stub site ∧ site.kind = kind ∧ site.target.identity = identity := by
  obtain ⟨_, id, target, same, made⟩ := made
  obtain ⟨_, _, final⟩ := except_bind_eq_ok.mp made
  cases final
  exact ⟨_, rfl, rfl, same⟩

/-! ## Remembered stubs -/

namespace IsolationRun

/-- Every remembered stub was made for a method of the identity that it is remembered under. -/
def StubsMade (run : IsolationRun) : Prop :=
  ∀ kind identity native, run.stub? kind identity = some native →
    ∃ module id target, target.identity = identity ∧
      Stub.native module ⟨id, kind, target⟩ = .ok native

theorem stubsMade_start (shims : List Shim) (config : IsolationConfig) :
    StubsMade { shims, config } :=
  fun _ _ _ found => by cases found

theorem stubOf_run (module : Module) (id : Nat) (kind : StubKind) (target : MethodDef)
    (run : IsolationRun) :
    stubOf module id kind target run =
      match run.stub? kind target.identity with
      | some native => .ok native run
      | none =>
        match Stub.native module ⟨id, kind, target⟩ with
        | .ok native =>
          .ok native { run with stubs := ((kind, target.identity), native) :: run.stubs }
        | .error error => .error error run := by
  unfold stubOf
  rw [get_bind_run]
  cases run.stub? kind target.identity with
  | some native => rfl
  | none => cases Stub.native module ⟨id, kind, target⟩ <;> rfl

/-- The stub for a call was made for methods of the identity of the called one. -/
theorem madeFor_of_stubOf {module : Module} {id : Nat} {kind : StubKind} {target : MethodDef}
    {run final : IsolationRun} {native : Native} (stubs : run.StubsMade)
    (ran : stubOf module id kind target run = .ok native final) :
    native.MadeFor kind target.identity := by
  rw [stubOf_run] at ran
  split at ran
  · rename_i known
    cases ran
    exact stubs _ _ _ known
  · split at ran
    · rename_i made
      cases ran
      exact ⟨module, id, target, rfl, made⟩
    · cases ran

theorem keeps_stubsMade_stubOf (module : Module) (id : Nat) (kind : StubKind)
    (target : MethodDef) : Keeps StubsMade (stubOf module id kind target) := by
  intro run stubs
  rw [stubOf_run]
  split
  · exact stubs
  split
  · rename_i native made
    intro otherKind identity other found
    change (((kind, target.identity), native) :: run.stubs).lookup (otherKind, identity) =
      some other at found
    rw [List.lookup_cons] at found
    split at found
    · rename_i same
      obtain ⟨rfl, rfl⟩ := Prod.mk.inj (beq_iff_eq.mp same)
      cases found
      exact ⟨module, id, target, rfl, made⟩
    · exact stubs otherKind identity other found
  · exact stubs

end IsolationRun

end Cil
