import Mathlib
import Cil.Proofs.Metadata.SlotTables

/-!
# Generic methods in slots

The walk of a virtual call compares names and parameters and looks through the tables, where
generic methods stand as definitions.  This file says without a walk which method takes the place
of the called one.  The call keeps the type arguments of an instantiation exactly where no method
does.
-/

namespace Cil

namespace Module

/-! ## Definitions -/

/-- The rows of the method table have no type arguments. -/
def Open (module : Module) : Prop :=
  ∀ method ∈ module.methods, method.genericArguments = []

theorem Open.stable : Stable Open where
  type isOpen _ _ _ := isOpen
  method isOpen _ noArguments _ other member := by
    rcases Array.mem_push.mp member with old | rfl
    · exact isOpen other old
    · exact noArguments
  field isOpen _ := isOpen
  string _ isOpen := isOpen
  signature _ isOpen := isOpen
  instantiation _ isOpen := isOpen
  body {module} _ _ bytes isOpen _ _ other member := by
    obtain ⟨index, place⟩ := Array.mem_iff_getElem?.mp member
    rw [Array.getElem?_modify] at place
    split at place
    · obtain ⟨original, found, rfl⟩ := Option.map_eq_some_iff.mp place
      exact isOpen original (Array.mem_of_getElem? found)
    · exact isOpen other (Array.mem_of_getElem? place)

theorem Open.initial : Open Module.initial := by
  unfold Open
  decide

end Module

/-- Whether two methods take the same number of type arguments and are given the same ones. -/
def MethodDef.sameGenerics (first second : MethodDef) : Bool :=
  first.genericArity == second.genericArity && first.genericArguments == second.genericArguments

/-! ## What the types below say -/

namespace Module.SlotStep

def filled? : SlotStep → Option MethodDef
  | filled method => some method
  | unchanged | hidden => none

def hides : SlotStep → Bool
  | hidden => true
  | unchanged | filled _ => false

/-- The walk finds the nearest method that fills the slot and that nothing further up hides. -/
theorem foldl_apply (steps : List SlotStep) :
    steps.foldl (fun found? step => step.apply found?) none =
      (steps.reverse.takeWhile (!·.hides)).reverse.findSome? filled? := by
  induction steps using List.reverseRecOn with
  | nil => rfl
  | append_singleton steps step ih =>
      rw [List.foldl_append, ih, List.reverse_append]
      cases step with
      | hidden => rfl
      | unchanged => simp [hides, apply, filled?, List.findSome?_append]
      | filled method =>
          have onTop : ([filled method].reverse ++ steps.reverse).takeWhile (!·.hides) =
              filled method :: steps.reverse.takeWhile (!·.hides) := rfl
          rw [onTop, List.reverse_cons, List.findSome?_append]
          cases List.findSome? filled? (steps.reverse.takeWhile (!·.hides)).reverse <;> rfl

end Module.SlotStep

namespace Module

variable {module : Module}

/-- The types from a type on, up to the one that declares a method. -/
def typesBelow (module : Module) (type : Token) (method : MethodDef) : List Token :=
  (module.baseChain type).takeWhile (· ≠ method.declaringType)

/-- The method of a type that implements a method of an interface. -/
def implementation? (module : Module) (method : MethodDef) (type : Token) : Option MethodDef :=
  (module.methodsOf type).find? fun candidate =>
    !candidate.isStatic && candidate.sameShape method

/-- The method that takes the place of a method on instances of a type: the nearest
implementation of a method of an interface, and the nearest override of a method of a class that
no new slot further up hides. -/
def overrider? (module : Module) (type : Token) (method : MethodDef) : Option MethodDef :=
  if method.isStatic || (!method.isVirtual && !method.isAbstract) then none
  else if module.isInterface method.declaringType then
    (module.typesBelow type method).findSome? (module.implementation? method)
  else
    let steps := (module.typesBelow type method).map fun owner =>
      slotStep method (module.methodsOf owner)
    (steps.reverse.takeWhile (!·.hides)).reverse.findSome? SlotStep.filled?

theorem Tables.typesBelow_eq (tables : module.Tables) (type : Token) (method : MethodDef) :
    module.typesBelow type method =
      if type = method.declaringType then []
      else type :: ((module.baseOf? type).map (module.typesBelow · method)).getD [] := by
  unfold typesBelow
  rw [tables.baseChain_eq, List.takeWhile_cons]
  by_cases ended : type = method.declaringType
  · simp [ended]
  · simp only [ended, ne_eq, not_false_eq_true, decide_true, if_true, if_false]
    cases module.baseOf? type <;> rfl

theorem Tables.baseOf?_known (tables : module.Tables) {type base : Token}
    (baseEq : module.baseOf? type = some base) :
    ∃ definition, module.typeDef base = .ok definition := by
  obtain ⟨_, known, isBase⟩ := baseOf?_eq_some.mp baseEq
  exact tables.parent_known known (base_mem_parents isBase)

/-- The walk for a method of a class goes through what the types below say. -/
theorem Tables.resolveFrom_class (tables : module.Tables) {method : MethodDef} {type : Token}
    {definition : TypeDef} (known : module.typeDef type = .ok definition)
    (found? : Option MethodDef) :
    module.resolveFrom method false type found? =
      .ok ((((module.typesBelow type method).map fun owner =>
        slotStep method (module.methodsOf owner)).foldl
          (fun found? step => step.apply found?) found?).getD method) := by
  induction type using tables.baseInduction generalizing definition found? with
  | step type baseHolds => ?_
  rw [tables.typesBelow_eq]
  by_cases ended : type = method.declaringType
  · rw [tables.resolveFrom_eq, if_pos ended, if_pos ended]
    rfl
  rw [if_neg ended]
  cases baseEq : module.baseOf? type with
  | some base =>
      obtain ⟨baseDef, baseKnown⟩ := tables.baseOf?_known baseEq
      rw [tables.resolveFrom_base ended baseEq, baseHolds base baseEq baseKnown]
      rfl
  | none =>
      have isRoot : definition.base? = none := by
        simpa [baseOf?, known] using baseEq
      have noSearch : (module.methodsOf type).find? (fun candidate =>
          false && !candidate.isStatic && candidate.sameShape method) = none :=
        List.find?_eq_none.mpr fun _ _ => by simp
      rw [tables.resolveFrom_eq, if_neg ended, noSearch]
      simp [known, isRoot, Except.bind]

/-- The walk for a method of an interface ends at the first implementation. -/
theorem Tables.resolveFrom_interface (tables : module.Tables) {method : MethodDef}
    {type : Token} {definition : TypeDef} (known : module.typeDef type = .ok definition) :
    module.resolveFrom method true type none =
      .ok (((module.typesBelow type method).findSome? (module.implementation? method)).getD
        method) := by
  induction type using tables.baseInduction generalizing definition with
  | step type baseHolds => ?_
  rw [tables.resolveFrom_eq, tables.typesBelow_eq]
  by_cases ended : type = method.declaringType
  · rw [if_pos ended, if_pos ended]
    rfl
  simp only [if_neg ended, Bool.true_and, List.findSome?_cons, implementation?]
  cases (module.methodsOf type).find? fun candidate =>
      !candidate.isStatic && candidate.sameShape method with
  | some implementation => rfl
  | none =>
      simp only [if_true, known, Except.bind]
      cases baseEq : module.baseOf? type with
      | some base =>
          obtain ⟨baseDef, baseKnown⟩ := tables.baseOf?_known baseEq
          have isBase : definition.base? = some base := by
            simpa [baseOf?, known] using baseEq
          rw [isBase]
          exact baseHolds base baseEq baseKnown
      | none =>
          have isRoot : definition.base? = none := by
            simpa [baseOf?, known] using baseEq
          rw [isRoot]
          rfl

/-- A virtual call runs the method that takes the place of the called one, or the called one. -/
theorem Tables.resolveVirtual_eq_overrider? (tables : module.Tables) {type : Token}
    {definition : TypeDef} (known : module.typeDef type = .ok definition) (method : MethodDef) :
    module.resolveVirtual type method =
      .ok ((module.overrider? type method).getD method) := by
  unfold overrider?
  by_cases isPlain : method.isStatic || (!method.isVirtual && !method.isAbstract)
  · rw [if_pos isPlain, resolveVirtual, if_pos isPlain]
    rfl
  rw [if_neg isPlain, resolveVirtual, if_neg isPlain]
  cases isInterface : module.isInterface method.declaringType with
  | true => exact tables.resolveFrom_interface known
  | false =>
      rw [← SlotStep.foldl_apply]
      exact tables.resolveFrom_class known none

/-- What takes the place of a method is a definition. -/
theorem Open.overrider (isOpen : module.Open) {type : Token} {method overrider : MethodDef}
    (found : module.overrider? type method = some overrider) :
    overrider.genericArguments = [] := by
  refine isOpen overrider ?_
  unfold overrider? at found
  split at found
  · cases found
  · split at found
    · obtain ⟨owner, _, implements⟩ := List.exists_of_findSome?_eq_some found
      exact mem_methods_of_mem_methodsOf (List.mem_of_find?_eq_some implements)
    · obtain ⟨step, inSteps, isFilled⟩ := List.exists_of_findSome?_eq_some found
      have ofStep := (List.takeWhile_sublist _).mem (List.mem_reverse.mp inSteps)
      obtain ⟨owner, _, rfl⟩ := List.mem_map.mp (List.mem_reverse.mp ofStep)
      cases filled : slotStep method (module.methodsOf owner) with
      | filled candidate =>
          rw [filled] at isFilled
          cases isFilled
          exact mem_methods_of_mem_methodsOf (slotStep_filled filled).1
      | unchanged | hidden =>
          rw [filled] at isFilled
          cases isFilled

/-- A virtual call keeps arity and type arguments of the called method, unless a method takes its
place: that one is a definition, and only another definition of its arity has the same ones. -/
theorem Reachable.resolveVirtual_sameGenerics_iff (reachable : module.Reachable) {type : Token}
    {definition : TypeDef} (known : module.typeDef type = .ok definition) (method : MethodDef) :
    ∃ resolved, module.resolveVirtual type method = .ok resolved ∧
      resolved = (module.overrider? type method).getD method ∧
      (module.overrider? type method ≠ none → resolved.isInstantiation = false) ∧
      (resolved.sameGenerics method ↔
        ∀ overrider, module.overrider? type method = some overrider →
          method.isInstantiation = false ∧ overrider.genericArity = method.genericArity) := by
  have isOpen := Open.stable.of_reachable Open.initial reachable
  refine ⟨_, reachable.tables.resolveVirtual_eq_overrider? known method, rfl, ?_⟩
  cases found : module.overrider? type method with
  | none => simp [MethodDef.sameGenerics]
  | some overrider =>
      have noArguments := isOpen.overrider found
      refine ⟨fun _ => by simp [MethodDef.isInstantiation, noArguments], ?_⟩
      simp only [Option.getD_some, MethodDef.sameGenerics, noArguments, Bool.and_eq_true,
        beq_iff_eq, Option.some.injEq, forall_eq', MethodDef.isInstantiation,
        Bool.not_eq_false', List.isEmpty_iff]
      rw [and_comm, @eq_comm _ []]

end Module

namespace Getters

open Stateful

def base : Token := .ofRow .typeDef 18
def derived : Token := .ofRow .typeDef 19
def plain : Token := .ofRow .typeDef 20

/-- A generic virtual method that gives a value of its type argument. -/
def get : MethodDeclaration :=
  { name := "Get", flags := MethodModifiers.isVirtual, returnType := .parameter 0
    genericArity := 1 }

/-- A class with a generic method, two classes below it of which the first has the method, too, and
an instantiation of the method of the class. -/
def module : Module :=
  finalState (Module.instantiateMethod (.ofRow .methodDef 26) [.int32] (finalState
    (Module.declareMethod derived get (finalState (Module.declareMethod base get (finalState
      (Module.declareType { space := "Demo", name := "Plain", base? := some base } (finalState
        (Module.declareType { space := "Demo", name := "Derived", base? := some base } (finalState
          (Module.declareType { space := "Demo", name := "Base" } Module.initial)))))))))))

theorem module_reachable : module.Reachable :=
  .instantiateMethod _ _ (.declareMethod _ _ (.declareMethod _ _ (.declareType _ (.declareType _
    (.declareType _ .initial)))))

def method (token : Token) : MethodDef :=
  (module.method token).toOption.getD default

def type (token : Token) : TypeDef :=
  (module.typeDef token).toOption.getD default

/-- The instantiation of the method of the base class at `int32`. -/
def getInt32 : MethodDef := method (.ofRow .methodSpec 1)

/-- Where the method is not overridden, the call runs the instantiation. -/
theorem plain_keeps_argument :
    module.Reachable ∧ module.typeDef plain = .ok (type plain) ∧
      module.resolveVirtual plain getInt32 = .ok getInt32 ∧
      getInt32.genericArguments = [.int32] ∧ getInt32.returnType = .int32 := by
  have known : module.typeDef plain = .ok (type plain) := by cbv
  have alone : module.overrider? plain getInt32 = none := by cbv
  obtain ⟨resolved, resolves, resolvedEq, -, -⟩ :=
    module_reachable.resolveVirtual_sameGenerics_iff known getInt32
  rw [alone, Option.getD_none] at resolvedEq
  rw [resolvedEq] at resolves
  exact ⟨module_reachable, known, resolves, by cbv⟩

/-- The definition in the derived class takes the place of the instantiation. -/
theorem derived_loses_argument :
    module.Reachable ∧ module.method (.ofRow .methodSpec 1) = .ok getInt32 ∧
      getInt32.genericArguments = [.int32] ∧
      module.resolveVirtual derived getInt32 = .ok (method (.ofRow .methodDef 27)) ∧
      (method (.ofRow .methodDef 27)).sameGenerics getInt32 = false ∧
      (method (.ofRow .methodDef 27)).returnType = .parameter 0 :=
  ⟨module_reachable, by cbv⟩

end Getters

end Cil
