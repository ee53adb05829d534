import Cil.Machine.CoreLibrary
import Cil.Proofs.Code.Bodies
import Cil.Proofs.Metadata.Growth
import Cil.Proofs.Metadata.Zeros

/-!
# Known methods

A method that a module knows is told from the others by its token, and belongs to a type of the
module.  The methods of the core library have no body that can be read, whatever a module declares
besides.
-/

namespace Cil

open Stateful

/-- The execution engine provides every method of the core library. -/
private theorem Core.isInternalCall_of_mem :
    ∀ method ∈ Core.methods, method.isInternalCall = true := by
  decide

private theorem Core.exists_method_of_native :
    ∀ entry ∈ Core.natives, ∃ method ∈ Core.methods, method.token = entry.1 := by
  decide

namespace Module

variable {module : Module}

section Tokens

variable (tables : module.Tables) (fits : module.methods.size < Token.rowBound)
  {method other : MethodDef}

include tables fits

/-- The token of a known method names it. -/
theorem Tables.method_of_knows (knows : module.Knows method) :
    module.method method.token = .ok method := by
  rcases knows with declared | ⟨token, named⟩
  · obtain ⟨index, named, place⟩ := tables.token_of_mem fits declared
    rw [(Token.eq_ofRow_of_indexIn? named).1]
    exact method_of_methodDef place (Token.eq_ofRow_of_indexIn? named).2
  · rw [tables.token_of_method named]
    exact named

theorem Tables.eq_of_knows (knows : module.Knows method) (otherKnown : module.Knows other)
    (same : other.token = method.token) : other = method := by
  have named := tables.method_of_knows fits otherKnown
  rw [same, tables.method_of_knows fits knows] at named
  exact (Except.ok.inj named).symm

end Tokens

/-- No method has a dynamic token. -/
theorem isDynamic_of_method {token : Token} {method : MethodDef}
    (named : module.method token = .ok method) : token.isDynamic = false := by
  by_contra isDynamic
  rw [Bool.not_eq_false, Token.isDynamic, beq_iff_eq] at isDynamic
  have noSpec : token.tableId? ≠ some .methodSpec := by
    rw [Token.tableId?, isDynamic]
    decide
  have noRow : token.indexIn? .methodDef = none := by
    rw [Token.indexIn?, isDynamic, if_neg fun both => absurd both.1 (by decide)]
  rw [Module.method, if_neg noSpec, methodDef, row?, noRow] at named
  cases named

/-- A method of the core library is still provided by the execution engine. -/
theorem Reachable.isInternalCall_of_native (reachable : module.Reachable)
    (fits : module.methods.size < Token.rowBound) {method : MethodDef}
    (knows : module.Knows method) {operation : CoreNative}
    (listed : (method.token, operation) ∈ Core.natives) : method.isInternalCall = true := by
  obtain ⟨row, inCore, same⟩ := Core.exists_method_of_native _ listed
  obtain ⟨index, inside, rfl⟩ := List.getElem_of_mem inCore
  have place : Module.initial.methods[index]? = some Core.methods[index] :=
    (List.getElem?_toArray ..).trans (List.getElem?_eq_getElem inside)
  obtain ⟨later, laterPlace, body?, became, _⟩ :=
    ((Grows.stable Module.initial).of_reachable (.refl _) reachable).method place
  -- The row of the core library may have received a body, but nothing else.
  obtain rfl : later = method := by
    refine reachable.tables.eq_of_knows fits knows (.inl (Array.mem_of_getElem? laterPlace)) ?_
    rw [became]
    exact same
  rw [became]
  exact Core.isInternalCall_of_mem Core.methods[index] inCore

/-- Methods belong to types of the module. -/
def Housed (module : Module) : Prop :=
  ∀ method ∈ module.methods, ∃ known, module.typeDef method.declaringType = .ok known

theorem Housed.stable : Stable Housed where
  type housed _ _ _ method member :=
    have ⟨known, found⟩ := housed method member
    ⟨known, typeDef_push found _⟩
  method {module method} housed _ _ known other member := by
    rcases Array.mem_push.mp member with old | rfl
    · exact housed other old
    · exact known
  field housed _ := housed
  string _ housed := housed
  signature _ housed := housed
  instantiation _ housed := housed
  body {module token definition} bytes housed _ _ method member := by
    obtain ⟨index, place⟩ := Array.mem_iff_getElem?.mp member
    rw [Array.getElem?_modify] at place
    split at place
    · obtain ⟨original, found, rfl⟩ := Option.map_eq_some_iff.mp place
      exact housed original (Array.mem_of_getElem? found)
    · exact housed method (Array.mem_of_getElem? place)

theorem Housed.initial : Housed Module.initial := by
  have known : Module.initial.methods.all
      (Module.initial.typeDef ·.declaringType |>.toOption.isSome) := by
    decide +kernel
  intro method member
  have present := Array.all_eq_true_iff_forall_mem.mp known method member
  cases found : Module.initial.typeDef method.declaringType with
  | ok type => exact ⟨type, rfl⟩
  | error error =>
      rw [found] at present
      cases present

/-- A method that a token names is a row of the table, or an instance of one. -/
theorem declaringType_of_method {token : Token} {method : MethodDef}
    (named : module.method token = .ok method) :
    ∃ definition ∈ module.methods, definition.declaringType = method.declaringType := by
  have listed {token : Token} {definition : MethodDef}
      (found : module.methodDef token = .ok definition) : definition ∈ module.methods := by
    obtain ⟨index, _, place⟩ := methodDef_eq_ok.mp found
    exact Array.mem_of_getElem? place
  unfold Module.method at named
  split at named
  · split at named
    · obtain ⟨definition, found, named⟩ := except_bind_eq_ok.mp named
      refine ⟨definition, listed found, ?_⟩
      unfold MethodDef.instantiate at named
      split at named
      · cases named
      · split at named
        · cases named
        · cases named
          rfl
    · cases named
  · exact ⟨method, listed named, rfl⟩

/-- A known method belongs to a type of the module. -/
theorem Reachable.typeDef_of_knows (reachable : module.Reachable) {method : MethodDef}
    (knows : module.Knows method) : ∃ type, module.typeDef method.declaringType = .ok type := by
  have housed := Housed.stable.of_reachable Housed.initial reachable
  rcases knows with declared | ⟨token, named⟩
  · exact housed method declared
  · obtain ⟨definition, declared, same⟩ := declaringType_of_method named
    exact same ▸ housed definition declared

theorem ofMethod_of_isInternalCall {method : MethodDef}
    (isInternal : method.isInternalCall = true) :
    MethodCode.ofMethod module method = .error (.unreadableMethodBody method.token) := by
  unfold MethodCode.ofMethod
  cases module.bodyOf? method with
  | none => rfl
  | some bytes =>
      dsimp only
      rw [isInternal, Bool.or_true, Bool.true_or]
      rfl

end Module

namespace Machine

/-- The native methods of a new machine are those of the core library. -/
theorem native?_ofModule {module : Module} {limits : Limits} {token : Token} {native : Native}
    (found : (ofModule module limits).native? token = some native) :
    ∃ operation, (token, operation) ∈ Core.natives ∧ native.body = .core operation := by
  obtain ⟨before, after, split, _⟩ := List.lookup_eq_some_iff.mp found
  have listed : (token, native) ∈ (ofModule module limits).natives := by
    rw [split]
    simp
  obtain ⟨⟨method, operation⟩, inCore, made⟩ := List.mem_filterMap.mp listed
  dsimp only at made
  split at made
  · rename_i provided isNative
    cases made
    obtain ⟨definition, _, isNative⟩ := except_bind_eq_ok.mp isNative
    dsimp only at isNative
    split at isNative
    · cases isNative
      exact ⟨operation, inCore, rfl⟩
    · obtain ⟨_, _, isNative⟩ := except_bind_eq_ok.mp isNative
      cases isNative
      exact ⟨operation, inCore, rfl⟩
  · cases made

end Machine

end Cil
