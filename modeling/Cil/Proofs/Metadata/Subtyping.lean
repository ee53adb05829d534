import Mathlib.Logic.Relation
import Mathlib.Order.Defs.Unbundled
import Cil.Proofs.Metadata.Slots

/-!
# The order of subtypes

A type builds on its base type and its interfaces, which all stand in earlier rows.  So no
walk along them goes on forever, being a subtype is a partial order, and the conversions
of references that follow it are a preorder.
-/

namespace Cil

namespace Module

variable {module : Module}

/-! ## What a type builds on -/

/-- The edges of the type hierarchy: from a type to its base type and its interfaces. -/
def BuildsOn (module : Module) (derived parent : Token) : Prop :=
  ∃ definition, module.typeDef derived = .ok definition ∧ parent ∈ definition.parents

theorem Tables.row_lt (tables : module.Tables) {derived parent : Token}
    (edge : module.BuildsOn derived parent) : parent.row < derived.row := by
  obtain ⟨definition, known, member⟩ := edge
  obtain ⟨place, named, present⟩ := typeDef_eq_ok.mp known
  obtain ⟨earlier, less, earlierNamed⟩ := tables.parent_index present parent member
  have derivedRow := (Token.indexIn?_eq_some.mp named).2
  have parentRow := (Token.indexIn?_eq_some.mp earlierNamed).2
  omega

theorem Tables.row_lt_of_transGen (tables : module.Tables) {derived base : Token}
    (path : Relation.TransGen module.BuildsOn derived base) : base.row < derived.row := by
  induction path with
  | single edge => exact tables.row_lt edge
  | tail _ edge ih => exact Nat.lt_trans (tables.row_lt edge) ih

theorem Tables.wellFounded_buildsOn (tables : module.Tables) :
    WellFounded fun parent derived => module.BuildsOn derived parent :=
  Subrelation.wf tables.row_lt (InvImage.wf Token.row Nat.lt_wfRel.wf)

/-- What the walks of the hierarchy find within a number of steps is what they find at
all. -/
structure Settled (module : Module) (steps : Nat) : Prop where
  subtype (derived base : Token) :
    module.isSubtypeWithin base steps derived = module.isSubtypeOf derived base
  chain (type : Token) : module.baseChainWithin steps type = module.baseChain type
  slot (wanted : MethodDef) (throughInterface : Bool) (type : Token)
      (found? : Option MethodDef) :
    module.resolveWithin wanted throughInterface steps type found? =
      module.resolveFrom wanted throughInterface type found?

/-- The bound of the walks never decides. -/
theorem Tables.settled (tables : module.Tables) {steps : Nat}
    (enough : module.walkBound ≤ steps) : module.Settled steps where
  subtype derived _ := tables.isSubtypeWithin_eq (module.enough_walkBound derived) enough
  chain type := tables.baseChainWithin_eq (module.enough_walkBound type) enough
  slot _ _ type _ := tables.resolveWithin_eq (module.enough_walkBound type) enough

/-! ## Subtypes -/

theorem reflTransGen_of_isSubtypeWithin {steps : Nat} {derived base : Token}
    (subtype : module.isSubtypeWithin base steps derived) :
    Relation.ReflTransGen module.BuildsOn derived base := by
  induction steps generalizing derived with
  | zero => simp [isSubtypeWithin] at subtype
  | succ steps ih =>
      have through {parent : Token} (edge : module.BuildsOn derived parent)
          (rest : module.isSubtypeWithin base steps parent) :
          Relation.ReflTransGen module.BuildsOn derived base :=
        .head edge (ih rest)
      simp only [isSubtypeWithin, Bool.or_eq_true, beq_iff_eq] at subtype
      rcases subtype with rfl | further
      · exact .refl
      · cases known : module.typeDef derived with
        | error error => simp [known] at further
        | ok definition =>
            simp only [known, Bool.or_eq_true, List.any_eq_true] at further
            rcases further with ⟨interface, member, rest⟩ | further
            · exact through ⟨definition, known, interface_mem_parents member⟩ rest
            · cases isBase : definition.base? with
              | none => simp [isBase] at further
              | some next =>
                  rw [isBase] at further
                  exact through ⟨definition, known, base_mem_parents isBase⟩ further

/-- A type is a subtype of what a path along base types and interfaces leads to. -/
theorem Tables.isSubtypeOf_iff (tables : module.Tables) {derived base : Token} :
    module.isSubtypeOf derived base ↔
      Relation.ReflTransGen module.BuildsOn derived base := by
  constructor
  · exact reflTransGen_of_isSubtypeWithin
  · intro path
    induction path using Relation.ReflTransGen.head_induction_on with
    | refl => exact isSubtypeOf_self base
    | head edge _ ih =>
        obtain ⟨definition, known, member⟩ := edge
        exact tables.isSubtypeOf_of_parent known member ih

theorem Tables.isSubtypeOf_trans (tables : module.Tables) {first second third : Token}
    (lower : module.isSubtypeOf first second) (upper : module.isSubtypeOf second third) :
    module.isSubtypeOf first third :=
  tables.isSubtypeOf_iff.mpr
    ((tables.isSubtypeOf_iff.mp lower).trans (tables.isSubtypeOf_iff.mp upper))

/-- A subtype that is another type stands in a later row. -/
theorem Tables.row_lt_of_isSubtypeOf (tables : module.Tables) {derived base : Token}
    (subtype : module.isSubtypeOf derived base) (apart : base ≠ derived) :
    base.row < derived.row := by
  rcases Relation.reflTransGen_iff_eq_or_transGen.mp (tables.isSubtypeOf_iff.mp subtype) with
    same | path
  · exact absurd same apart
  · exact tables.row_lt_of_transGen path

theorem Tables.isPartialOrder_isSubtypeOf (tables : module.Tables) :
    IsPartialOrder Token fun derived base => module.isSubtypeOf derived base = true where
  refl := isSubtypeOf_self
  trans _ _ _ := tables.isSubtypeOf_trans
  antisymm first second lower upper := by
    by_cases same : first = second
    · exact same
    · have below := tables.row_lt_of_isSubtypeOf lower (Ne.symm same)
      have above := tables.row_lt_of_isSubtypeOf upper same
      omega

/-! ## Assignable types -/

/-- The class that a slot of classes is declared with. -/
def classToken? : TypeSig → Option Token
  | .reference type => some type
  | .string => some Core.string
  | _ => none

/-- Whether a reference to any object can stand for a value of the type. -/
def isHeldAsObject (source : TypeSig) : Bool :=
  !source.isByRef && !source.isValueType && source != .void

/-- The ways in which a slot of one type can hold a value of another. -/
inductive Accepts (module : Module) : (target source : TypeSig) → Prop
  | same (type : TypeSig) : Accepts module type type
  | asObject {source : TypeSig} : isHeldAsObject source → Accepts module .object source
  | asBase {target source : TypeSig} {base derived : Token} :
      classToken? target = some base → classToken? source = some derived →
      module.isSubtypeOf derived base → Accepts module target source
  | asElements {target source : TypeSig} : source.isValueType = false →
      Accepts module target source → Accepts module (.array target) (.array source)

theorem accepts_of_isAssignable {target source : TypeSig}
    (assignable : module.isAssignable target source) : module.Accepts target source := by
  induction target generalizing source with
  | array target ih =>
      cases source with
      | array source =>
          simp only [isAssignable, Bool.or_eq_true, beq_iff_eq, Bool.and_eq_true,
            Bool.not_eq_true'] at assignable
          rcases assignable with same | ⟨notValue, elements⟩
          · exact same ▸ .same _
          · exact .asElements notValue (ih elements)
      | _ => simp [isAssignable] at assignable
  | object =>
      simp only [isAssignable, Bool.or_eq_true, beq_iff_eq] at assignable
      rcases assignable with rfl | held
      · exact .same _
      · exact .asObject held
  | reference base | string =>
      cases source with
      | reference | string =>
          rw [isAssignable, Bool.or_eq_true] at assignable
          rcases assignable with same | subtype
          · exact eq_of_beq same ▸ .same _
          · exact .asBase rfl rfl subtype
      | _ => simp [isAssignable] at assignable
  | _ =>
      simp only [isAssignable, Bool.or_false, beq_iff_eq] at assignable
      exact assignable ▸ .same _

theorem isAssignable_of_classToken? {target source : TypeSig} {base derived : Token}
    (targetEq : classToken? target = some base) (sourceEq : classToken? source = some derived)
    (subtype : module.isSubtypeOf derived base) : module.isAssignable target source := by
  cases target <;> cases targetEq <;> cases source <;> cases sourceEq <;>
    simp [isAssignable, conversionToken?, subtype]

theorem isAssignable_iff {target source : TypeSig} :
    module.isAssignable target source ↔ module.Accepts target source := by
  constructor
  · exact accepts_of_isAssignable
  · intro accepts
    induction accepts with
    | same type => unfold isAssignable; simp
    | asObject held => unfold isAssignable; simpa [isHeldAsObject] using Or.inr held
    | asBase targetEq sourceEq subtype =>
        exact isAssignable_of_classToken? targetEq sourceEq subtype
    | asElements notValue _ ih => unfold isAssignable; simp [notValue, ih]

theorem isHeldAsObject_of_classToken? {source : TypeSig} {type : Token}
    (classEq : classToken? source = some type) : isHeldAsObject source := by
  cases source <;> simp [classToken?] at classEq <;> rfl

theorem Tables.accepts_trans (tables : module.Tables) {first second third : TypeSig}
    (upper : module.Accepts first second) (lower : module.Accepts second third) :
    module.Accepts first third := by
  induction upper generalizing third with
  | same type => exact lower
  | asObject held =>
      cases lower with
      | same => exact .asObject held
      | asObject heldBelow => exact .asObject heldBelow
      | asBase _ sourceEq _ => exact .asObject (isHeldAsObject_of_classToken? sourceEq)
      | asElements => exact .asObject rfl
  | asBase targetEq sourceEq subtype =>
      cases lower with
      | same => exact .asBase targetEq sourceEq subtype
      | asObject => simp [classToken?] at sourceEq
      | asBase middleEq lowerEq lowerSubtype =>
          rw [sourceEq] at middleEq
          cases middleEq
          exact .asBase targetEq lowerEq (tables.isSubtypeOf_trans lowerSubtype subtype)
      | asElements => simp [classToken?] at sourceEq
  | asElements notValue accepts ih =>
      cases lower with
      | same => exact .asElements notValue accepts
      | asBase middleEq => simp [classToken?] at middleEq
      | asElements notValueBelow below => exact .asElements notValueBelow (ih below)

theorem Tables.isPreorder_isAssignable (tables : module.Tables) :
    IsPreorder TypeSig fun target source => module.isAssignable target source = true where
  refl type := isAssignable_iff.mpr (.same type)
  trans _ _ _ upper lower :=
    isAssignable_iff.mpr
      (tables.accepts_trans (isAssignable_iff.mp upper) (isAssignable_iff.mp lower))

/-- In every module that declarations make, the hierarchy descends: each type builds on
known types in smaller rows, the bound of the walks never decides, being a subtype is a
partial order that paths of the hierarchy describe, and being assignable is a preorder. -/
theorem hierarchy_descends {module : Module} (reachable : module.Reachable) :
    (∀ {derived parent : Token}, module.BuildsOn derived parent →
      (∃ definition, module.typeDef parent = .ok definition) ∧ parent.row < derived.row) ∧
    (WellFounded fun parent derived => module.BuildsOn derived parent) ∧
    (∀ steps ≥ module.walkBound, module.Settled steps) ∧
    (IsPartialOrder Token fun derived base => module.isSubtypeOf derived base = true) ∧
    (∀ derived base : Token, module.isSubtypeOf derived base = true ↔
      Relation.ReflTransGen module.BuildsOn derived base) ∧
    IsPreorder TypeSig fun target source => module.isAssignable target source = true := by
  have tables := reachable.tables
  refine ⟨fun edge => ⟨?_, tables.row_lt edge⟩, tables.wellFounded_buildsOn,
    fun steps enough => tables.settled enough, tables.isPartialOrder_isSubtypeOf,
    fun derived base => tables.isSubtypeOf_iff, tables.isPreorder_isAssignable⟩
  obtain ⟨definition, known, member⟩ := edge
  exact tables.parent_known known member

end Module

namespace Shapes

open Stateful

def shape : Token := .ofRow .typeDef 18
def square : Token := .ofRow .typeDef 19

def module : Module :=
  finalState (Module.declareType
    { space := "Demo", name := "Square", interfaces := [shape] } (finalState
      (Module.declareType (TypeDeclaration.asInterface { space := "Demo", name := "IShape" })
        Module.initial)))

theorem square_buildsOn_shape : module.BuildsOn square shape :=
  ⟨module.types[18]?.getD default,
    Module.typeDef_eq_ok.mpr ⟨18, by decide, by decide +kernel⟩, by decide +kernel⟩

/-- The interface comes before the class that implements it, which is a subtype of it and
not the other way round. -/
theorem square_under_shape :
    module.Reachable ∧ module.BuildsOn square shape ∧ shape.row < square.row ∧
      module.isSubtypeOf square shape = true ∧ module.isSubtypeOf shape square = false := by
  have reachable : module.Reachable := .declareType _ (.declareType _ .initial)
  obtain ⟨edges, _, _, partialOrder, paths, _⟩ := Module.hierarchy_descends reachable
  have below := (paths square shape).mpr (.single square_buildsOn_shape)
  refine ⟨reachable, square_buildsOn_shape, (edges square_buildsOn_shape).2, below,
    Bool.eq_false_iff.mpr fun above => ?_⟩
  exact absurd (partialOrder.antisymm _ _ below above) (by decide)

end Shapes

end Cil
