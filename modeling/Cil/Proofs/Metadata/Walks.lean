import Cil.Metadata.Hierarchy
import Cil.Proofs.Metadata.Tables

/-!
# Walks of the type hierarchy

The walks along base types and interfaces count down from a bound.  In well-formed tables
the bound never decides: every type stands behind the types it builds on, so a walk
satisfies the equation of the unbounded recursion.
-/

namespace Cil

namespace Module

variable {module : Module}

/-- A property of all types follows from the property of the types they build on. -/
theorem Tables.induction (tables : module.Tables) {property : Token → Prop}
    (step : ∀ type, (∀ definition, module.typeDef type = .ok definition →
      ∀ parent ∈ definition.parents, property parent) → property type)
    (type : Token) : property type := by
  have bounded : ∀ bound type, (∀ index, type.indexIn? .typeDef = some index → index < bound) →
      property type := by
    intro bound
    induction bound with
    | zero =>
        intro type small
        refine step type fun definition known => ?_
        obtain ⟨index, named, _⟩ := typeDef_eq_ok.mp known
        exact absurd (small index named) (by omega)
    | succ bound ih =>
        intro type small
        refine step type fun definition known parent member => ih parent fun index named => ?_
        obtain ⟨place, placeNamed, present⟩ := typeDef_eq_ok.mp known
        obtain ⟨earlier, less, earlierNamed⟩ := tables.parent_index present parent member
        have placeSmall := small place placeNamed
        rw [earlierNamed] at named
        cases named
        omega
  cases named : type.indexIn? .typeDef with
  | none => exact bounded 0 type fun index found => by simp [named] at found
  | some place =>
      exact bounded (place + 1) type fun index found => by
        rw [named] at found
        cases found
        omega

theorem Tables.parent_known (tables : module.Tables) {type parent : Token}
    {definition : TypeDef} (known : module.typeDef type = .ok definition)
    (member : parent ∈ definition.parents) :
    ∃ parentDef, module.typeDef parent = .ok parentDef := by
  obtain ⟨place, _, present⟩ := typeDef_eq_ok.mp known
  obtain ⟨earlier, less, named⟩ := tables.parent_index present parent member
  have inside : earlier < module.types.size :=
    Nat.lt_trans less (Array.getElem?_eq_some_iff.mp present).1
  exact ⟨module.types[earlier], typeDef_eq_ok.mpr
    ⟨earlier, named, Array.getElem?_eq_getElem inside⟩⟩

/-- A number of steps is enough for a type if it exceeds the row of the type. -/
def Enough (module : Module) (steps : Nat) (type : Token) : Prop :=
  0 < steps ∧ ∀ definition, module.typeDef type = .ok definition →
    ∀ index, type.indexIn? .typeDef = some index → index < steps

theorem enough_walkBound (type : Token) : module.Enough module.walkBound type := by
  refine ⟨Nat.succ_pos _, fun definition known index named => ?_⟩
  obtain ⟨place, placeNamed, present⟩ := typeDef_eq_ok.mp known
  rw [placeNamed] at named
  cases named
  exact Nat.lt_succ_of_lt (Array.getElem?_eq_some_iff.mp present).1

/-- One step less is enough for the types that a type builds on. -/
theorem Tables.enough_parent (tables : module.Tables) {steps : Nat} {type parent : Token}
    {definition : TypeDef} (enough : module.Enough (steps + 1) type)
    (known : module.typeDef type = .ok definition) (member : parent ∈ definition.parents) :
    module.Enough steps parent := by
  obtain ⟨place, named, present⟩ := typeDef_eq_ok.mp known
  obtain ⟨earlier, less, earlierNamed⟩ := tables.parent_index present parent member
  have small := enough.2 definition known place named
  refine ⟨by omega, fun _ _ index found => ?_⟩
  rw [earlierNamed] at found
  cases found
  omega

theorem base_mem_parents {definition : TypeDef} {base : Token}
    (baseEq : definition.base? = some base) : base ∈ definition.parents := by
  simp [TypeDef.parents, baseEq]

theorem interface_mem_parents {definition : TypeDef} {interface : Token}
    (member : interface ∈ definition.interfaces) : interface ∈ definition.parents := by
  simp [TypeDef.parents, member]

theorem Tables.isSubtypeWithin_eq (tables : module.Tables) {base derived : Token}
    {steps more : Nat} (enough : module.Enough steps derived) (le : steps ≤ more) :
    module.isSubtypeWithin base more derived = module.isSubtypeWithin base steps derived := by
  induction steps generalizing more derived with
  | zero => exact absurd enough.1 (by omega)
  | succ steps ih =>
      obtain ⟨more, rfl⟩ : ∃ fewer, more = fewer + 1 := ⟨more - 1, by omega⟩
      simp only [isSubtypeWithin]
      cases known : module.typeDef derived with
      | error error => rfl
      | ok definition =>
          have parentEq (parent : Token) (member : parent ∈ definition.parents) :
              module.isSubtypeWithin base more parent =
                module.isSubtypeWithin base steps parent :=
            ih (tables.enough_parent enough known member) (by omega)
          have interfacesEq :
              definition.interfaces.any (module.isSubtypeWithin base more) =
                definition.interfaces.any (module.isSubtypeWithin base steps) := by
            rw [Bool.eq_iff_iff, List.any_eq_true, List.any_eq_true]
            exact exists_congr fun interface => and_congr_right fun member => by
              rw [parentEq interface (interface_mem_parents member)]
          cases baseEq : definition.base? with
          | none => simp only [interfacesEq, baseEq]
          | some next =>
              simp only [interfacesEq, baseEq, parentEq next (base_mem_parents baseEq)]

/-- A type is a subtype of itself and of what the types it builds on are subtypes of. -/
theorem Tables.isSubtypeOf_of_parent (tables : module.Tables) {base derived parent : Token}
    {definition : TypeDef} (known : module.typeDef derived = .ok definition)
    (member : parent ∈ definition.parents) (subtype : module.isSubtypeOf parent base) :
    module.isSubtypeOf derived base := by
  have enough := module.enough_walkBound derived
  have parentEnough := tables.enough_parent enough known member
  unfold isSubtypeOf walkBound at subtype ⊢
  rw [tables.isSubtypeWithin_eq parentEnough (Nat.le_succ _)] at subtype
  simp only [isSubtypeWithin, known, Bool.or_eq_true, beq_iff_eq]
  rcases List.mem_append.mp member with inBase | inInterfaces
  · have baseEq := Option.mem_toList.mp inBase
    simp only [baseEq, subtype, or_true]
  · exact Or.inr (Or.inl (List.any_eq_true.mpr ⟨parent, inInterfaces, subtype⟩))

@[simp]
theorem isSubtypeOf_self (type : Token) : module.isSubtypeOf type type = true := by
  simp [isSubtypeOf, walkBound, isSubtypeWithin]

def baseOf? (module : Module) (type : Token) : Option Token :=
  match module.typeDef type with
  | .ok definition => definition.base?
  | .error _ => none

theorem baseOf?_eq_some {type base : Token} :
    module.baseOf? type = some base ↔
      ∃ definition, module.typeDef type = .ok definition ∧ definition.base? = some base := by
  unfold baseOf?
  cases module.typeDef type <;> simp

theorem baseChainWithin_succ (steps : Nat) (type : Token) :
    module.baseChainWithin (steps + 1) type =
      type :: ((module.baseOf? type).map (module.baseChainWithin steps)).getD [] := by
  simp only [baseChainWithin, baseOf?]
  cases module.typeDef type with
  | error error => rfl
  | ok definition =>
      obtain ⟨token, space, name, flags, base?, interfaces, isValueType⟩ := definition
      cases base? <;> rfl

theorem Tables.baseChainWithin_eq (tables : module.Tables) {type : Token}
    {steps more : Nat} (enough : module.Enough steps type) (le : steps ≤ more) :
    module.baseChainWithin more type = module.baseChainWithin steps type := by
  induction steps generalizing more type with
  | zero => exact absurd enough.1 (by omega)
  | succ steps ih =>
      obtain ⟨more, rfl⟩ : ∃ fewer, more = fewer + 1 := ⟨more - 1, by omega⟩
      simp only [baseChainWithin_succ]
      cases baseEq : module.baseOf? type with
      | none => rfl
      | some base =>
          obtain ⟨definition, known, isBase⟩ := baseOf?_eq_some.mp baseEq
          have parentEnough := tables.enough_parent enough known (base_mem_parents isBase)
          simp only [Option.map_some, Option.getD_some,
            ih parentEnough (Nat.le_of_succ_le_succ le)]

/-- The chain of a type goes on with the chain of its base type. -/
theorem Tables.baseChain_eq (tables : module.Tables) (type : Token) :
    module.baseChain type =
      type :: ((module.baseOf? type).map module.baseChain).getD [] := by
  unfold baseChain
  rw [walkBound, baseChainWithin_succ]
  cases baseEq : module.baseOf? type with
  | none => rfl
  | some base =>
      obtain ⟨definition, known, isBase⟩ := baseOf?_eq_some.mp baseEq
      have parentEnough := tables.enough_parent (module.enough_walkBound type) known
        (base_mem_parents isBase)
      simp only [Option.map_some, Option.getD_some,
        tables.baseChainWithin_eq parentEnough (Nat.le_succ _)]

/-- A property of all types follows from the property of their base types. -/
theorem Tables.baseInduction (tables : module.Tables) {property : Token → Prop}
    (step : ∀ type, (∀ base, module.baseOf? type = some base → property base) →
      property type)
    (type : Token) : property type := by
  refine tables.induction (fun type parentsHold => step type fun base baseEq => ?_) type
  obtain ⟨definition, known, isBase⟩ := baseOf?_eq_some.mp baseEq
  exact parentsHold definition known base (base_mem_parents isBase)

/-- The types on the chain of base types are supertypes. -/
theorem Tables.isSubtypeOf_of_mem_baseChain (tables : module.Tables) {type base : Token}
    (member : base ∈ module.baseChain type) : module.isSubtypeOf type base := by
  induction type using tables.baseInduction with | step type baseHolds => ?_
  rw [tables.baseChain_eq] at member
  rcases List.mem_cons.mp member with rfl | further
  · exact isSubtypeOf_self base
  · cases baseEq : module.baseOf? type with
    | none => simp [baseEq] at further
    | some next =>
        rw [baseEq] at further
        obtain ⟨definition, known, isBase⟩ := baseOf?_eq_some.mp baseEq
        exact tables.isSubtypeOf_of_parent known (base_mem_parents isBase)
          (baseHolds next baseEq further)

end Module

end Cil
