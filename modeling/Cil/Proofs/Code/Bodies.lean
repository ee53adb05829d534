import Cil.Proofs.Code.Failures
import Cil.Proofs.Metadata.Slots

/-!
# Methods without a body

A method without a body runs no code of the module itself.  A virtual call of it may still
run code, if the receiver resolves it to a method that has a body.
-/

namespace Cil

open Stateful

namespace Module

variable {module : Module}

/-- A method has no body that can be read. -/
def LacksBody (module : Module) (method : MethodDef) : Prop :=
  ∃ error, MethodCode.ofMethod module method = .error error ∧ error.blamesBody

/-- Virtual calls of a method run no body of the module. -/
def Hollow (module : Module) (method : MethodDef) : Prop :=
  ∀ type target, module.resolveVirtual type method = .ok target → module.LacksBody target

/-- The method itself or, where the receiver chooses it, what runs for it. -/
def LeadsTo (module : Module) (isVirtual : Bool) (method target : MethodDef) : Prop :=
  target = method ∨ isVirtual = true ∧ ∃ type, module.resolveVirtual type method = .ok target

/-- A function pointer to a virtual method without a body leads to no body when it is called,
which chooses the method anew. -/
def PointsSafely (module : Module) (isVirtual : Bool) (method : MethodDef) : Prop :=
  ∀ target, module.LeadsTo isVirtual method target → module.LacksBody target →
    target.isVirtual → module.Hollow target

/-- The module declares the method, or a token names it. -/
def Knows (module : Module) (method : MethodDef) : Prop :=
  method ∈ module.methods ∨ ∃ token, module.method token = .ok method

/-- Some method of the module has the instruction in its code. -/
def Contains (module : Module) (instruction : Instruction) : Prop :=
  ∃ method code, module.Knows method ∧ MethodCode.ofMethod module method = .ok code ∧
    instruction ∈ code.instructions.toList

theorem lacksBody_of_bodyOf?_eq_none {method : MethodDef} (noBody : module.bodyOf? method = none) :
    module.LacksBody method := by
  refine ⟨.unreadableMethodBody method.token, ?_, rfl⟩
  unfold MethodCode.ofMethod
  rw [noBody]
  rfl

/-- What a walk finds is an instance method of the module, if it is not the wanted method. -/
theorem declared_of_resolveWithin {wanted target : MethodDef} {throughInterface : Bool}
    {steps : Nat} {type : Token} {found? : Option MethodDef}
    (declared : ∀ found, found? = some found → found ∈ module.methods ∧ found.isStatic = false)
    (resolved : module.resolveWithin wanted throughInterface steps type found? = .ok target) :
    target = wanted ∨ target ∈ module.methods ∧ target.isStatic = false := by
  have ended {found? : Option MethodDef}
      (declared : ∀ found, found? = some found → found ∈ module.methods ∧ found.isStatic = false) :
      found?.getD wanted = wanted ∨
        found?.getD wanted ∈ module.methods ∧ (found?.getD wanted).isStatic = false := by
    cases found? with
    | none => exact Or.inl rfl
    | some found => exact Or.inr (declared found rfl)
  -- What was found further down is declared by the module, and so is what a step adds to it.
  induction steps generalizing type found? with
  | zero =>
      cases resolved
      exact ended declared
  | succ steps ih =>
      unfold resolveWithin at resolved
      split at resolved
      · cases resolved
        exact ended declared
      dsimp only at resolved
      split at resolved
      · rename_i found
        cases resolved
        have holds := List.find?_some found
        simp only [Bool.and_eq_true, Bool.not_eq_true'] at holds
        exact Or.inr ⟨mem_methods_of_mem_methodsOf (List.mem_of_find?_eq_some found),
          holds.1.2⟩
      have next : ∀ found, (if throughInterface then found?
          else (slotStep wanted (module.methodsOf type)).apply found?) = some found →
          found ∈ module.methods ∧ found.isStatic = false := by
        intro found isFound
        split at isFound
        · exact declared found isFound
        · cases here : slotStep wanted (module.methodsOf type) with
          | unchanged => exact declared found (by rw [here] at isFound; exact isFound)
          | hidden => rw [here] at isFound; cases isFound
          | filled candidate =>
              rw [here] at isFound
              cases found? with
              | some earlier => exact declared found isFound
              | none =>
                  cases isFound
                  obtain ⟨member, isInstance, _⟩ := slotStep_filled here
                  exact ⟨mem_methods_of_mem_methodsOf member, isInstance⟩
      obtain ⟨definition, _, resolved⟩ := except_bind_eq_ok.mp resolved
      split at resolved
      · exact ih next resolved
      · cases resolved
        exact ended next

/-- An instance method resolves to one. -/
theorem isInstance_of_resolveVirtual {method target : MethodDef} {type : Token}
    (isInstance : method.isStatic = false)
    (resolved : module.resolveVirtual type method = .ok target) : target.isStatic = false := by
  unfold resolveVirtual at resolved
  split at resolved
  · cases resolved
    exact isInstance
  · rcases declared_of_resolveWithin (by simp) resolved with rfl | ⟨_, found⟩
    · exact isInstance
    · exact found

/-- What a virtual call of a known method runs is known, too. -/
theorem Knows.of_resolveVirtual {method target : MethodDef} {type : Token}
    (knows : module.Knows method) (resolved : module.resolveVirtual type method = .ok target) :
    module.Knows target := by
  unfold resolveVirtual at resolved
  split at resolved
  · cases resolved
    exact knows
  · rcases declared_of_resolveWithin (by simp) resolved with rfl | ⟨declared, _⟩
    · exact knows
    · exact Or.inl declared

def declaredCode (module : Module) : List Instruction :=
  module.methods.toList.flatMap fun method =>
    match MethodCode.ofMethod module method with
    | .ok code => code.instructions.toList
    | .error _ => []

theorem mem_methods_of_methodDef {token : Token} {method : MethodDef}
    (known : module.methodDef token = .ok method) : method ∈ module.methods := by
  unfold methodDef row? at known
  split at known
  · rename_i found
    cases known
    obtain ⟨index, _, listed⟩ := Option.bind_eq_some_iff.mp found
    exact Array.mem_of_getElem? listed
  · cases known

/-- Without instantiations the known methods are the declared ones. -/
theorem mem_methods_of_knows (plain : module.instantiations = #[]) {method : MethodDef}
    (knows : module.Knows method) : method ∈ module.methods := by
  rcases knows with declared | ⟨token, known⟩
  · exact declared
  · unfold Module.method row? at known
    rw [plain] at known
    split at known
    · simp at known
    · exact mem_methods_of_methodDef known

/-- Without instantiations all code is that of the declared methods. -/
theorem mem_declaredCode (plain : module.instantiations = #[]) {instruction : Instruction}
    (contains : module.Contains instruction) : instruction ∈ module.declaredCode := by
  obtain ⟨method, code, knows, read, member⟩ := contains
  have declared := mem_methods_of_knows plain knows
  refine List.mem_flatMap.mpr ⟨method, Array.mem_toList_iff.mpr declared, ?_⟩
  rw [read]
  exact member

theorem PointsSafely.of_leadsTo {isVirtual : Bool} {method target : MethodDef}
    (points : module.PointsSafely isVirtual method)
    (leads : module.LeadsTo isVirtual method target) : module.PointsSafely false target := by
  rintro other (rfl | ⟨impossible, _⟩)
  · exact points other leads
  · cases impossible

end Module

end Cil
