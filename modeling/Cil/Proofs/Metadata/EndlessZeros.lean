import Mathlib
import Cil.Proofs.Metadata.Zeros

/-!
# Endless zeros

The search for the zero of a value type ends unless it comes to a value type that embeds itself,
and all zeros exist exactly where no value type does.  Nothing keeps a declaration from adding a
field that closes such a circle.
-/

namespace Cil

open Stateful

/-! ## Results of steps on a list -/

theorem mapM_eq_none_of_mem {α β : Type} {step : α → Option β} {items : List α} {item : α}
    (member : item ∈ items) (failed : step item = none) : items.mapM step = none := by
  induction items with
  | nil => cases member
  | cons first rest ih =>
      rw [List.mapM_cons]
      rcases List.mem_cons.mp member with rfl | further
      · simp [failed]
      · cases step first <;> simp [ih further]

theorem mapM_eq_some_mono {α β : Type} {step more : α → Option β} {items : List α}
    {values : List β} (mono : ∀ item value, step item = some value → more item = some value)
    (ran : items.mapM step = some values) : items.mapM more = some values := by
  induction items generalizing values with
  | nil => exact ran
  | cons item items ih =>
      simp only [List.mapM_cons, Option.bind_eq_bind, Option.bind_eq_some_iff] at ran ⊢
      obtain ⟨value, first, rest, restRan, made⟩ := ran
      exact ⟨value, mono _ _ first, rest, ih restRan, made⟩

theorem exists_mapM_eq_ok {ε α β : Type} {step : α → Except ε β} {items : List α}
    (each : ∀ item ∈ items, ∃ value, step item = .ok value) :
    ∃ values, items.mapM step = .ok values := by
  induction items with
  | nil => exact ⟨[], rfl⟩
  | cons item items ih =>
      obtain ⟨⟨value, first⟩, others⟩ := List.forall_mem_cons.mp each
      obtain ⟨values, rest⟩ := ih others
      exact ⟨value :: values, by rw [List.mapM_cons, first, rest]; rfl⟩

/-! ## Edges into a place -/

section Edges

variable {α : Type} {edge : α → α → Prop} {sources : α → Prop} {target : α}

/-- Edges to a target, added to others, close a cycle where the target leads back to where one of
them starts. -/
theorem transGen_or_into {first last : α}
    (leads : Relation.TransGen (fun a b => edge a b ∨ sources a ∧ b = target) first last) :
    Relation.TransGen edge first last ∨
      (Relation.ReflTransGen edge target last ∧ ∃ source, sources source ∧
        Relation.ReflTransGen edge first source) ∨
      ∃ source, sources source ∧ Relation.ReflTransGen edge target source := by
  induction leads with
  | single step =>
      rcases step with old | ⟨source, rfl⟩
      · exact .inl (.single old)
      · exact .inr (.inl ⟨.refl, _, source, .refl⟩)
  | tail _ step ih =>
      rcases ih with direct | ⟨onward, source⟩ | back
      · rcases step with old | ⟨source, rfl⟩
        · exact .inl (direct.tail old)
        · exact .inr (.inl ⟨.refl, _, source, direct.to_reflTransGen⟩)
      · rcases step with old | ⟨next, rfl⟩
        · exact .inr (.inl ⟨onward.tail old, source⟩)
        · exact .inr (.inr ⟨_, next, onward⟩)
      · exact .inr (.inr back)

theorem acyclic_or_into_iff :
    (∀ value, ¬Relation.TransGen (fun a b => edge a b ∨ sources a ∧ b = target) value value) ↔
      (∀ value, ¬Relation.TransGen edge value value) ∧
        ∀ source, sources source → ¬Relation.ReflTransGen edge target source := by
  constructor
  · intro acyclic
    refine ⟨fun value cycle => acyclic value (cycle.lift id fun _ _ => .inl),
      fun source isSource back => acyclic target ?_⟩
    exact .tail' (back.lift id fun _ _ => .inl) (.inr ⟨isSource, rfl⟩)
  · rintro ⟨acyclic, apart⟩ value cycle
    rcases transGen_or_into cycle with old | ⟨onward, source, isSource, back⟩ |
      ⟨source, isSource, back⟩
    · exact acyclic value old
    · exact apart source isSource (onward.trans back)
    · exact apart source isSource back

end Edges

namespace Module

variable {module : Module}

/-! ## The search for a zero -/

/-- The search for the zero of a value type, to a depth, fails exactly where it can go on. -/
theorem recordZeroWithin_eq_none_iff {steps : Nat} {type : Token} :
    module.recordZeroWithin steps type = none ↔ Walks module.Embeds steps type := by
  refine ⟨walks_of_recordZeroWithin, fun walks => ?_⟩
  induction steps generalizing type with
  | zero => rfl
  | succ steps ih =>
      obtain ⟨part, ⟨field, member, holds, named⟩, further⟩ := walks
      have deeper : zeroFrom (module.recordZeroWithin steps) field.signature = none := by
        rw [holds, zeroFrom, named]
        exact ih further
      unfold recordZeroWithin
      rw [mapM_eq_none_of_mem member (by rw [deeper]; rfl)]
      rfl

theorem zeroFrom_mono {ofType more : Token → Option Value}
    (mono : ∀ type value, ofType type = some value → more type = some value)
    {signature : TypeSig} {value : Value} (found : zeroFrom ofType signature = some value) :
    zeroFrom more signature = some value := by
  cases signature with
  | valueType part =>
      simp only [zeroFrom] at found ⊢
      cases named : Core.primitiveSig? part with
      | some primitive =>
          rw [named] at found
          exact found
      | none =>
          rw [named] at found
          exact mono part value found
  | _ => exact found

/-- A zero that is found at a depth is found at every greater depth. -/
theorem recordZeroWithin_mono {steps more : Nat} (le : steps ≤ more) {type : Token}
    {value : Value} (found : module.recordZeroWithin steps type = some value) :
    module.recordZeroWithin more type = some value := by
  induction steps generalizing more type value with
  | zero => cases found
  | succ steps ih =>
      obtain ⟨more, rfl⟩ : ∃ fewer, more = fewer + 1 := ⟨more - 1, by omega⟩
      unfold recordZeroWithin at found ⊢
      simp only [Option.bind_eq_bind, Option.bind_eq_some_iff] at found ⊢
      obtain ⟨fields, zeros, made⟩ := found
      refine ⟨fields, mapM_eq_some_mono (fun field entry zero => ?_) zeros, made⟩
      simp only [Option.bind_eq_some_iff] at zero ⊢
      obtain ⟨part, partZero, entryEq⟩ := zero
      exact ⟨part, zeroFrom_mono (fun _ _ => ih (by omega)) partZero, entryEq⟩

theorem zero_eq_ok {signature : TypeSig} {value : Value} :
    module.zero signature = .ok value ↔ module.zero? signature = some value := by
  unfold zero
  cases module.zero? signature <;> simp

theorem Circles.walks {type : Token} (circles : module.Circles type) (steps : Nat) :
    Walks module.Embeds steps type := by
  obtain ⟨value, reached, cycle⟩ := circles
  exact walks_of_cycle cycle steps (.trans_right reached cycle)

/-- The zeros that the machine asks for: those of locations, of the fields of instances, of the
slots of a frame, and of fields and types that tokens name. -/
structure HasZeros (module : Module) : Prop where
  location : ∀ signature, ∃ value, module.zero signature = .ok value
  object : ∀ type, ∃ fields, module.zeroFields type = .ok fields
  frame : ∀ slots : List LocalVariable, ∃ values,
    (slots.mapM fun slot => module.zero slot.signature) = .ok values
  field : ∀ token field, module.field token = .ok field →
    ∃ value, module.zeroOfField token = .ok value
  type : ∀ token signature, module.typeSig token = .ok signature →
    ∃ value, module.zeroOfType token = .ok value

theorem hasZeros_of_location
    (location : ∀ signature, ∃ value, module.zero signature = .ok value) : module.HasZeros where
  location := location
  object type := by
    refine exists_mapM_eq_ok fun field _ => ?_
    obtain ⟨value, zero⟩ := location field.signature
    exact ⟨(field.token, value), by rw [zero]; rfl⟩
  frame slots := exists_mapM_eq_ok fun slot _ => location slot.signature
  field token field known := by
    obtain ⟨value, zero⟩ := location field.signature
    exact ⟨value, except_bind_eq_ok.mpr ⟨field, known, zero⟩⟩
  type token signature known := by
    obtain ⟨value, zero⟩ := location signature
    exact ⟨value, except_bind_eq_ok.mpr ⟨signature, known, zero⟩⟩

/-- The search for the zero of a type, which goes from field to field without a bound, ends. -/
def SearchEnds (module : Module) (signature : TypeSig) : Prop :=
  ∃ steps, (zeroFrom (module.recordZeroWithin steps) signature).isSome

theorem Owned.searchEnds_iff (owned : module.Owned) {signature : TypeSig} :
    module.SearchEnds signature ↔
      ∀ part, signature = .valueType part → Core.primitiveSig? part = none →
        ¬module.Circles part := by
  constructor
  · rintro ⟨steps, found⟩ part holds named circles
    rw [holds, zeroFrom, named] at found
    dsimp only at found
    rw [recordZeroWithin_eq_none_iff.mpr (circles.walks steps)] at found
    cases found
  · intro apart
    refine ⟨module.walkBound, Option.isSome_iff_ne_none.mpr fun failed => ?_⟩
    obtain ⟨part, holds, named, deeper⟩ := zeroFrom_eq_none failed
    exact apart part holds named
      (owned.circles_of_walks (walks_of_recordZeroWithin deeper))

/-- The bound of the search is no limit: it finds what is found at any depth. -/
theorem Owned.zero_eq_ok_iff (owned : module.Owned) {signature : TypeSig} {value : Value} :
    module.zero signature = .ok value ↔
      ∃ steps, zeroFrom (module.recordZeroWithin steps) signature = some value := by
  rw [zero_eq_ok]
  refine ⟨fun found => ⟨_, found⟩, fun ⟨steps, found⟩ => ?_⟩
  have ends : module.SearchEnds signature := ⟨steps, by rw [found]; rfl⟩
  cases bounded : module.zero? signature with
  | none =>
      obtain ⟨part, holds, named, failed⟩ := zeroFrom_eq_none bounded
      exact absurd (owned.circles_of_walks (walks_of_recordZeroWithin failed))
        (owned.searchEnds_iff.mp ends part holds named)
  | some other =>
      have deep (more : Nat) (le : steps ≤ more) :
          zeroFrom (module.recordZeroWithin more) signature = some value :=
        zeroFrom_mono (fun _ _ => recordZeroWithin_mono le) found
      have bounded := zeroFrom_mono (fun _ _ => recordZeroWithin_mono
        (Nat.le_max_right steps module.walkBound)) bounded
      rw [deep _ (Nat.le_max_left _ _)] at bounded
      exact bounded.symm

/-- Every search for a zero ends, and everything that the machine asks for has one, exactly where no
value type embeds itself.  A single search ends unless it comes to such a type. -/
theorem Reachable.searchEnds_iff_acyclic (reachable : module.Reachable) :
    ((∀ signature, module.SearchEnds signature) ↔
      ∀ type, ¬Relation.TransGen module.Embeds type type) ∧
    (module.HasZeros ↔ ∀ type, ¬Relation.TransGen module.Embeds type type) ∧
    ∀ signature,
      (module.SearchEnds signature ↔ ∀ part, signature = .valueType part →
        Core.primitiveSig? part = none → ¬module.Circles part) ∧
      (module.SearchEnds signature ↔ ∃ value, module.zero signature = .ok value) := by
  have owned := Owned.stable.of_reachable .initial reachable
  have ends_iff (signature : TypeSig) :
      module.SearchEnds signature ↔ ∃ value, module.zero signature = .ok value := by
    simp only [owned.zero_eq_ok_iff, SearchEnds, Option.isSome_iff_exists]
    exact exists_comm
  have acyclic_iff : (∀ signature, module.SearchEnds signature) ↔
      ∀ type, ¬Relation.TransGen module.Embeds type type := by
    constructor
    · intro ends type cycle
      obtain ⟨before, _, field, _, holds, named⟩ := Relation.TransGen.tail'_iff.mp cycle
      exact owned.searchEnds_iff.mp (ends field.signature) type holds named ⟨type, .refl, cycle⟩
    · intro acyclic signature
      exact owned.searchEnds_iff.mpr fun _ _ _ ⟨value, _, cycle⟩ => acyclic value cycle
  refine ⟨acyclic_iff, ?_, fun signature => ⟨owned.searchEnds_iff, ends_iff signature⟩⟩
  rw [← acyclic_iff]
  exact ⟨fun zeros signature => (ends_iff signature).mpr (zeros.location signature),
    fun ends => hasZeros_of_location fun signature => (ends_iff signature).mp (ends signature)⟩

/-! ## Fields that close a circle -/

/-- A new field closes a circle: it holds a value type that leads to one whose instances get
the field. -/
def Closes (module : Module) (field : FieldDef) : Prop :=
  ∃ part, (field.isStatic = false ∧ field.signature = .valueType part ∧
      Core.primitiveSig? part = none) ∧
    ∃ type, field.declaringType ∈ module.baseChain type ∧
      Relation.ReflTransGen module.Embeds part type

theorem mem_instanceFields {type : Token} {field : FieldDef} :
    field ∈ module.instanceFields type ↔
      field ∈ module.fields ∧ field.declaringType ∈ module.baseChain type ∧
        field.isStatic = false := by
  simp [instanceFields, fieldsOf]
  tauto

theorem baseChain_push_field (field : FieldDef) (type : Token) :
    baseChain { module with fields := module.fields.push field } type =
      module.baseChain type := by
  have within (steps : Nat) :
      baseChainWithin { module with fields := module.fields.push field } steps type =
        module.baseChainWithin steps type := by
    induction steps generalizing type with
    | zero => rfl
    | succ steps ih =>
        rw [baseChainWithin_succ, baseChainWithin_succ, funext ih]
        rfl
  exact within _

theorem embeds_push_field_iff {field : FieldDef} {type part : Token} :
    Embeds { module with fields := module.fields.push field } type part ↔
      module.Embeds type part ∨ field.declaringType ∈ module.baseChain type ∧
        field.isStatic = false ∧ field.signature = .valueType part ∧
        Core.primitiveSig? part = none := by
  simp only [Embeds, mem_instanceFields, baseChain_push_field, Array.mem_push]
  constructor
  · rintro ⟨other, ⟨old | rfl, inChain, isInstance⟩, holds, named⟩
    · exact .inl ⟨other, ⟨old, inChain, isInstance⟩, holds, named⟩
    · exact .inr ⟨inChain, isInstance, holds, named⟩
  · rintro (⟨other, ⟨old, inChain, isInstance⟩, holds, named⟩ |
      ⟨inChain, isInstance, holds, named⟩)
    · exact ⟨other, ⟨.inl old, inChain, isInstance⟩, holds, named⟩
    · exact ⟨field, ⟨.inr rfl, inChain, isInstance⟩, holds, named⟩

theorem acyclic_push_field_iff {field : FieldDef} :
    (∀ type, ¬Relation.TransGen (Embeds { module with fields := module.fields.push field })
        type type) ↔
      (∀ type, ¬Relation.TransGen module.Embeds type type) ∧ ¬module.Closes field := by
  by_cases embeds : ∃ part, field.isStatic = false ∧ field.signature = .valueType part ∧
      Core.primitiveSig? part = none
  · obtain ⟨part, isInstance, holds, named⟩ := embeds
    have edges : Embeds { module with fields := module.fields.push field } =
        fun type other => module.Embeds type other ∨
          field.declaringType ∈ module.baseChain type ∧ other = part := by
      funext type other
      rw [embeds_push_field_iff, holds, TypeSig.valueType.injEq]
      refine propext (or_congr_right (and_congr_right fun _ => ⟨fun ⟨_, same, _⟩ => same.symm, ?_⟩))
      rintro rfl
      exact ⟨isInstance, rfl, named⟩
    rw [edges, acyclic_or_into_iff, Closes]
    simp [isInstance, holds, named]
  · have edges : Embeds { module with fields := module.fields.push field } = module.Embeds := by
      funext type part
      rw [embeds_push_field_iff]
      exact propext (or_iff_left fun ⟨_, isPart⟩ => embeds ⟨part, isPart⟩)
    rw [edges]
    exact (and_iff_left fun ⟨part, isPart, _⟩ => embeds ⟨part, isPart⟩).symm

/-- The declaration of a field checks the owner only: whether zeros go on to exist is up to the
field that is added. -/
theorem declareField_keeps_acyclic_iff {owner token : Token} {declaration : FieldDeclaration}
    {after : Module} (declared : declareField owner declaration module = .ok token after) :
    ∃ field : FieldDef, field.declaringType = owner ∧ field.signature = declaration.signature ∧
      field.flags = declaration.flags ∧
      ((∀ type, ¬Relation.TransGen after.Embeds type type) ↔
        (∀ type, ¬Relation.TransGen module.Embeds type type) ∧ ¬module.Closes field) := by
  unfold declareField at declared
  obtain ⟨_, _, read, declared⟩ := bind_eq_ok.mp declared
  obtain ⟨rfl, rfl⟩ := get_eq_ok.mp read
  obtain ⟨_, _, checked, added⟩ := bind_eq_ok.mp declared
  cases known : module.typeDef owner with
  | error error =>
      rw [known] at checked
      cases checked
  | ok definition =>
      rw [known] at checked
      cases checked
      obtain ⟨rfl, rfl⟩ := modifyGet_eq_ok.mp added
      exact ⟨_, rfl, rfl, rfl, acyclic_push_field_iff⟩

end Module

namespace Crates

def box : Token := .ofRow .typeDef 18
def crate : Token := .ofRow .typeDef 19

def withType (name : String) (module : Module) : Module :=
  finalState (Module.declareType
    ({ space := "Demo", name } : TypeDeclaration).asValueType module)

def withContent (type : Token) (content : TypeSig) (module : Module) : Module :=
  finalState (Module.declareField type { name := "content", signature := content } module)

/-- Two value types, of which the second holds the first in place. -/
def nested : Module :=
  withContent crate (.valueType box) (withType "Crate"
    (withContent box .int32 (withType "Box" .initial)))

/-- A value type that holds itself in place. -/
def endless : Module :=
  withContent box (.valueType box) (withType "Box" .initial)

theorem withType_reachable {module : Module} (reachable : module.Reachable) (name : String) :
    (withType name module).Reachable :=
  .declareType _ reachable

theorem withContent_reachable {module : Module} (reachable : module.Reachable) (type : Token)
    (content : TypeSig) : (withContent type content module).Reachable :=
  .declareField _ _ reachable

theorem nested_reachable : nested.Reachable :=
  withContent_reachable (withType_reachable (withContent_reachable
    (withType_reachable .initial _) _ _) _) _ _

/-- A value type within another has a zero, and so both come to no circle. -/
theorem nested_zero :
    nested.Reachable ∧ (∃ value, nested.zero (.valueType crate) = .ok value) ∧
      ¬nested.Circles crate := by
  have ends : nested.SearchEnds (.valueType crate) := ⟨2, by cbv⟩
  obtain ⟨-, -, single⟩ := nested_reachable.searchEnds_iff_acyclic
  obtain ⟨noCircle, found⟩ := single (.valueType crate)
  exact ⟨nested_reachable, found.mp ends, noCircle.mp ends crate rfl (by decide)⟩

/-- The field that holds its own type is declared like any other, and no depth is enough for the
zero of the type. -/
theorem endless_zero :
    endless.Reachable ∧
      (∃ token, Module.declareField box { name := "content", signature := .valueType box }
        (withType "Box" .initial) = .ok token endless) ∧
      Relation.TransGen endless.Embeds box box ∧ ¬endless.SearchEnds (.valueType box) := by
  have embeds : endless.Embeds box box := by
    have content : ((endless.instanceFields box).any fun field =>
        field.signature == .valueType box) = true := by
      cbv
    obtain ⟨field, member, holds⟩ := List.any_eq_true.mp content
    exact ⟨field, member, eq_of_beq holds, by decide⟩
  have reachable : endless.Reachable :=
    withContent_reachable (withType_reachable .initial _) _ _
  refine ⟨reachable, ⟨_, rfl⟩, .single embeds, fun ends => ?_⟩
  exact (Module.Owned.stable.of_reachable .initial reachable).searchEnds_iff.mp ends box rfl
    (by decide) ⟨box, .refl, .single embeds⟩

end Crates

end Cil
