import Cil.Isolation.Dispatch
import Cil.Isolation.Shim
import Cil.Proofs.Isolation.Stubs

/-!
# What shims are called with

A shim is accepted by the signature of its replacement and later called with the arguments of
the replaced call, behind the target that was given with it.  The two agree, so that the
replacement gets as many values as it takes, unless a target was given for a static method: the
signature leaves the target out, as it does for an instance method, and the call passes it.
The result is there where the call expects one, unless the shim is for a setter that returns a
value.
-/

namespace Cil

open Stateful
open MonadExcept (ofExcept)

namespace Replacement

/-- The signature that a replacement declares. -/
def declared (module : Module) : Replacement → Except Error MethodSignature
  | native provided => .ok provided.signature
  | managed method _ => do return (← module.method method).signature

/-- What a replacement is called with for the arguments of a call. -/
def passed (arguments : List Value) : Replacement → List Value
  | native _ => arguments
  | managed _ target? => target?.toList ++ arguments

/-- Whether the replacement is a static method that a target was given for. -/
def bindsStatic (module : Module) : Replacement → Bool
  | native _ => false
  | managed method target? =>
    target?.isSome && (module.method method).toOption.any (·.isStatic)

end Replacement

/-- Whether the shim is for a setter that returns a value. -/
def ShimTarget.returnsFromSetter (target : ShimTarget) : Bool :=
  target.isSetter && !target.method.isConstructor && target.method.signature.hasResult

/-- Whether calls of the kind are the ones that shims of a method replace. -/
def StubKind.Replaces (kind : StubKind) (method : MethodDef) : Prop :=
  if method.isConstructor then kind = .construct else kind = .call ∨ kind = .virtual

instance (kind : StubKind) (method : MethodDef) : Decidable (kind.Replaces method) :=
  inferInstanceAs (Decidable
    (if method.isConstructor then kind = .construct else kind = .call ∨ kind = .virtual))

/-- A call of a replacement with values for all that it takes. -/
def Exec.callReplacement (run : Runner) (replacement : Replacement) (values : List Value) :
    Exec Value := do
  match replacement with
  | .native provided => run (.native provided values)
  | .managed token _ =>
    let method ← ofExcept ((← module).method token)
    if !method.isStatic && method.isVirtual then callVirtual run method values
    else callMethod run method values

theorem Replacement.length_passed (replacement : Replacement) (arguments : List Value) :
    (replacement.passed arguments).length = (replacement.passed []).length + arguments.length := by
  cases replacement <;> simp [passed]

theorem Exec.runReplacement_eq (run : Runner) (replacement : Replacement)
    (arguments : List Value) :
    runReplacement run replacement arguments =
      callReplacement run replacement (replacement.passed arguments) := by
  cases replacement <;> rfl

variable {module : Module}

/-! ## Signatures -/

/-- The signature that a shim is accepted by has a parameter for each value that the
replacement takes and is not given, and one too many for a static method with a target. -/
theorem Replacement.signature_eq_ok {replacement : Replacement} {params : List TypeSig}
    {returnType : TypeSig} (signed : replacement.signature module = .ok (params, returnType)) :
    ∃ signature, replacement.declared module = .ok signature ∧
      signature.returnType = returnType ∧
      (replacement.passed []).length + params.length =
        signature.stackPops + (replacement.bindsStatic module).toNat := by
  cases replacement with
  | native provided =>
      cases signed
      exact ⟨_, rfl, rfl, by simp [passed, bindsStatic, MethodSignature.stackPops,
        Native.signature]⟩
  | managed token target? =>
      obtain ⟨method, known, signed⟩ := except_bind_eq_ok.mp signed
      refine ⟨method.signature, by rw [declared, known]; rfl, ?_⟩
      simp only [passed, bindsStatic, known, Except.toOption, Option.any_some,
        MethodDef.signature, MethodSignature.stackPops]
      cases isStatic : method.isStatic with
      | true =>
          rw [isStatic] at signed
          cases signed
          cases target? <;> simp [Nat.add_comm]
      | false =>
          cases target? with
          | none =>
              rw [isStatic] at signed
              obtain ⟨receiver, _, signed⟩ := except_bind_eq_ok.mp signed
              cases signed
              simp
          | some target =>
              rw [isStatic] at signed
              cases signed
              simp [Nat.add_comm]

/-! ## Accepted shims -/

namespace ShimTarget

variable {target : ShimTarget} {replacement : Replacement} {shim : Shim}

/-- The checks that an accepted shim has passed. -/
theorem replaceBy_eq_ok (accepted : target.replaceBy module replacement = .ok shim) :
    shim.replacement = replacement ∧
      ∃ params returnType others, replacement.signature module = .ok (params, returnType) ∧
        target.checkResult module returnType = .ok () ∧
        target.checkReceiver module params = .ok others ∧ target.checkParams others = .ok () := by
  unfold replaceBy at accepted
  by_cases refused : (target.lacksReceiver && target.receiver != .any) = true
  · rw [if_pos refused] at accepted
    cases accepted
  · rw [if_neg refused] at accepted
    obtain ⟨⟨params, returnType⟩, signed, accepted⟩ := except_bind_eq_ok.mp accepted
    obtain ⟨_, result, accepted⟩ := except_bind_eq_ok.mp accepted
    obtain ⟨others, receiver, accepted⟩ := except_bind_eq_ok.mp accepted
    obtain ⟨_, rest, accepted⟩ := except_bind_eq_ok.mp accepted
    cases accepted
    exact ⟨rfl, params, returnType, others, signed, result, receiver, rest⟩

theorem length_of_checkReceiver {params others : List TypeSig}
    (checked : target.checkReceiver module params = .ok others) :
    params.length = others.length + (!target.lacksReceiver).toNat := by
  unfold checkReceiver at checked
  cases lacks : target.lacksReceiver with
  | true =>
      rw [lacks, if_pos rfl] at checked
      cases checked
      rfl
  | false =>
      rw [lacks, if_neg (by decide)] at checked
      dsimp only at checked
      split at checked
      · cases checked
      · obtain ⟨expected, _, checked⟩ := except_bind_eq_ok.mp checked
        cases params with
        | nil => cases checked
        | cons receiver rest =>
            dsimp only at checked
            split at checked
            · cases checked
            · cases checked
              rfl

theorem length_of_checkParams {params : List TypeSig}
    (checked : target.checkParams params = .ok ()) :
    params.length = target.method.params.length := by
  unfold checkParams at checked
  by_cases same : params.length = target.method.params.length
  · exact same
  · rw [if_pos same] at checked
    cases checked

theorem not_isAssignable_void {target : TypeSig} (notVoid : target ≠ .void) :
    module.isAssignable target .void = false := by
  cases target <;> simp_all [Module.isAssignable]

/-- A call that expects a result gets one, but for the setters that return a value. -/
theorem hasResult_of_checkResult {returnType : TypeSig}
    (checked : target.checkResult module returnType = .ok ()) :
    (returnType != .void) =
      (target.method.isConstructor ||
        target.method.signature.hasResult && !target.returnsFromSetter) := by
  unfold checkResult at checked
  dsimp only at checked
  cases isConstructor : target.method.isConstructor with
  | true =>
      rw [isConstructor, if_pos rfl] at checked
      obtain ⟨base, typed, checked⟩ := except_bind_eq_ok.mp checked
      rw [Bool.true_or, bne_iff_ne]
      rintro rfl
      rw [not_isAssignable_void (Module.typeSig_ne_void typed)] at checked
      cases checked
  | false =>
      rw [isConstructor, if_neg (by decide)] at checked
      have same : (if target.isSetter then .void else target.method.returnType) = returnType :=
        Decidable.byContradiction fun different => by
          rw [if_pos different] at checked
          cases checked
      rw [← same, returnsFromSetter, MethodSignature.hasResult, MethodDef.signature]
      cases target.isSetter <;> simp [isConstructor]

end ShimTarget

/-! ## Calls of shims -/

/-- The call site of a method passes the arguments of the method, with a receiver unless the
method has none or makes it. -/
theorem StubKind.Replaces.effect {kind : StubKind} {method : MethodDef}
    (replaces : kind.Replaces method) :
    kind.effect method =
      (method.params.length + (!(method.isStatic || method.isConstructor)).toNat,
        method.isConstructor || method.signature.hasResult) := by
  unfold Replaces at replaces
  cases isConstructor : method.isConstructor with
  | true =>
      rw [isConstructor, if_pos rfl] at replaces
      subst replaces
      simp [StubKind.effect]
  | false =>
      rw [isConstructor, if_neg (by decide)] at replaces
      rcases replaces with rfl | rfl <;>
        simp [StubKind.effect, MethodDef.signature, MethodSignature.stackPops]

/-- What replaces a call gets as many values as it takes, unless it is a static method with a
target, and it returns a value where the call expects one, unless the call is of a setter that
returns a value. -/
theorem ShimTarget.replaceBy_passes_iff {target : ShimTarget} {replacement : Replacement}
    {shim : Shim} (accepted : target.replaceBy module replacement = .ok shim) {kind : StubKind}
    (replaces : kind.Replaces target.method) {params : List TypeSig} {returnType : TypeSig}
    (signed : kind.signature module target.method = .ok (params, returnType))
    {arguments : List Value} (given : arguments.length = params.length) :
    ∃ signature, shim.replacement.declared module = .ok signature ∧
      (∀ run, Exec.runReplacement run shim.replacement arguments =
        Exec.callReplacement run shim.replacement (shim.replacement.passed arguments)) ∧
      ((shim.replacement.passed arguments).length = signature.stackPops ↔
        shim.replacement.bindsStatic module = false) ∧
      (signature.hasResult = (returnType != .void) ↔ target.returnsFromSetter = false) := by
  obtain ⟨rfl, provided, provides, others, providedSigned, result, receiver, rest⟩ :=
    replaceBy_eq_ok accepted
  obtain ⟨signature, declared, rfl, balance⟩ := Replacement.signature_eq_ok providedSigned
  obtain ⟨paramsEq, resultEq⟩ := Prod.mk.inj
    ((StubKind.effect_signature signed).trans replaces.effect)
  refine ⟨signature, declared, fun run => Exec.runReplacement_eq run _ _, ?_, ?_⟩
  · have taken : (shim.replacement.passed arguments).length =
        signature.stackPops + (shim.replacement.bindsStatic module).toNat := by
      rw [← balance, Replacement.length_passed, given, paramsEq,
        length_of_checkReceiver receiver, length_of_checkParams rest]
      rfl
    rw [taken]
    cases shim.replacement.bindsStatic module <;> simp
  · rw [resultEq, MethodSignature.hasResult, hasResult_of_checkResult result, returnsFromSetter]
    cases target.method.isConstructor <;> cases target.isSetter <;>
      cases target.method.signature.hasResult <;> decide

namespace Binding

def target (method : Token) : ShimTarget :=
  { method := ((Module.initial.method method).toOption).getD default }

def bound (method : Token) : Replacement := .managed method (some .null)

theorem exists_shim {target : ShimTarget} {replacement : Replacement}
    (accepted : (target.replaceBy Module.initial replacement).isOk) :
    ∃ shim, target.replaceBy Module.initial replacement = .ok shim := by
  cases made : target.replaceBy Module.initial replacement with
  | ok shim => exact ⟨shim, rfl⟩
  | error error => simp [made, Except.isOk, Except.toBool] at accepted

/-- A method of an object that takes a text can stand in for the output of a text. -/
theorem receiver_and_text_passed :
    ∃ shim signature,
      (target Core.writeLineString).replaceBy Module.initial
        (bound Core.exceptionConstructorMessage) = .ok shim ∧
      shim.replacement.declared Module.initial = .ok signature ∧
      (shim.replacement.passed [.null]).length = signature.stackPops ∧
      signature.hasResult = false := by
  obtain ⟨shim, accepted⟩ := @exists_shim (target Core.writeLineString)
    (bound Core.exceptionConstructorMessage) (by decide +kernel)
  obtain ⟨signature, declared, _, passes, returns⟩ :=
    @ShimTarget.replaceBy_passes_iff Module.initial _ _ shim accepted .call
      (by decide +kernel) [.string] .void rfl [.null] rfl
  have isBound := (ShimTarget.replaceBy_eq_ok accepted).1
  refine ⟨shim, signature, accepted, declared, passes.mpr ?_, returns.mpr (by decide +kernel)⟩
  rw [isBound]
  decide +kernel

/-- A static method with a target gets a value more than it takes. -/
theorem static_overfilled :
    ¬ ∀ (module : Module) (target : ShimTarget) (replacement : Replacement) (shim : Shim)
      (kind : StubKind) (params : List TypeSig) (returnType : TypeSig) (arguments : List Value),
      target.replaceBy module replacement = .ok shim → kind.Replaces target.method →
      kind.signature module target.method = .ok (params, returnType) →
      arguments.length = params.length →
      ∃ signature, shim.replacement.declared module = .ok signature ∧
        (shim.replacement.passed arguments).length = signature.stackPops ∧
        signature.hasResult = (returnType != .void) := by
  intro fits
  obtain ⟨shim, accepted⟩ := @exists_shim (target Core.stringConcat) (bound Core.stringConcat)
    (by decide +kernel)
  obtain ⟨signature, declared, passed, _⟩ := fits Module.initial _ _ shim .call
    [.string, .string] .string [.null, .null] accepted (by decide +kernel) rfl rfl
  rw [(ShimTarget.replaceBy_eq_ok accepted).1] at declared passed
  cases declared
  exact absurd passed (by decide +kernel)

end Binding

end Cil
