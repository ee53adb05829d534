import Cil.Machine.Zero
import Cil.Proofs.LongWalks
import Cil.Proofs.Metadata.Walks

/-!
# Zeros

Every type has a zero, unless a value type embeds itself.  A search for a zero that goes
deeper than there are types would lead from one value type to another and back.
-/

namespace Cil

open Stateful

namespace Module

variable {module : Module}

/-- A type has an instance field that holds a named value type in place. -/
def Embeds (module : Module) (type part : Token) : Prop :=
  ∃ field ∈ module.instanceFields type,
    field.signature = .valueType part ∧ Core.primitiveSig? part = none

/-- Where no field holds a named value type, no value type embeds itself. -/
theorem acyclic_of_fields
    (plain : module.fields.all fun field =>
      match field.signature with
      | .valueType part => (Core.primitiveSig? part).isSome
      | _ => true) (type : Token) : ¬Relation.TransGen module.Embeds type type := by
  intro cycle
  obtain ⟨part, ⟨field, member, holds, named⟩, _⟩ := Relation.TransGen.head'_iff.mp cycle
  obtain ⟨owner, _, own⟩ := List.mem_flatMap.mp member
  have listed : field ∈ module.fields :=
    Array.mem_toList_iff.mp (List.mem_filter.mp (List.mem_filter.mp own).1).1
  have primitive := Array.all_eq_true_iff_forall_mem.mp plain field listed
  rw [holds] at primitive
  dsimp only at primitive
  rw [named] at primitive
  cases primitive

/-! ## Owners of fields -/

/-- Fields belong to types of the module. -/
def Owned (module : Module) : Prop :=
  ∀ field ∈ module.fields, ∃ known, module.typeDef field.declaringType = .ok known

theorem typeDef_push {type : Token} {known : TypeDef} (found : module.typeDef type = .ok known)
    (next : TypeDef) :
    typeDef { module with types := module.types.push next } type = .ok known := by
  obtain ⟨index, named, place⟩ := typeDef_eq_ok.mp found
  refine typeDef_eq_ok.mpr ⟨index, named, ?_⟩
  have inside := (Array.getElem?_eq_some_iff.mp place).1
  rw [Array.getElem?_push, if_neg (by omega), place]

theorem Owned.stable : Stable Owned where
  type owned _ _ _ field member :=
    have ⟨known, found⟩ := owned field member
    ⟨known, typeDef_push found _⟩
  method owned _ _ _ := owned
  field {module field} owned known other member := by
    rcases Array.mem_push.mp member with old | rfl
    · exact owned other old
    · exact known
  string _ owned := owned
  signature _ owned := owned
  instantiation _ owned := owned
  body _ owned _ _ := owned

theorem Owned.initial : Owned Module.initial := by
  have known : Module.initial.fields.all
      (Module.initial.typeDef ·.declaringType |>.toOption.isSome) := by
    decide +kernel
  intro field member
  have present := Array.all_eq_true_iff_forall_mem.mp known field member
  cases found : Module.initial.typeDef field.declaringType with
  | ok type => exact ⟨type, rfl⟩
  | error error => rw [found] at present; cases present

/-- Only types of the module embed something. -/
theorem Owned.embeds_known (owned : module.Owned) {type part : Token}
    (embeds : module.Embeds type part) : ∃ known, module.typeDef type = .ok known := by
  obtain ⟨field, member, _⟩ := embeds
  cases found : module.typeDef type with
  | ok known => exact ⟨known, rfl⟩
  | error error =>
      -- A type that is not there has no base types, so the field is its own.
      simp only [instanceFields, baseChain, walkBound, baseChainWithin, found,
        List.reverse_singleton, List.flatMap_singleton, List.mem_filter, fieldsOf,
        beq_iff_eq] at member
      obtain ⟨⟨present, rfl⟩, _⟩ := member
      obtain ⟨known, same⟩ := owned field (Array.mem_toList_iff.mp present)
      rw [found] at same
      cases same

theorem Owned.place_of_embeds (owned : module.Owned) {type part : Token}
    (embeds : module.Embeds type part) :
    type = .ofRow .typeDef (type.row - 1 + 1) ∧ type.row - 1 < module.types.size := by
  obtain ⟨known, found⟩ := owned.embeds_known embeds
  obtain ⟨index, named, place⟩ := typeDef_eq_ok.mp found
  have row : type.row - 1 = index := by
    rw [(Token.indexIn?_eq_some.mp named).2, Nat.add_sub_cancel]
  rw [row, ← (Token.eq_ofRow_of_indexIn? named).1]
  exact ⟨rfl, (Array.getElem?_eq_some_iff.mp place).1⟩

/-! ## The search for a zero -/

theorem scalarZero?_primitive {type : Token} {primitive : TypeSig}
    (isPrimitive : Core.primitiveSig? type = some primitive) :
    primitive.scalarZero?.isSome := by
  unfold Core.primitiveSig? at isPrimitive
  split at isPrimitive <;> grind [TypeSig.scalarZero?]

/-- The zero of a value type is found by its name. -/
theorem Tables.zeroOfType_eq (tables : module.Tables) {type : Token}
    (isValueType : module.isValueType type) :
    module.zeroOfType type = module.zero (.valueType type) := by
  unfold zeroOfType typeSig
  cases isPrimitive : Core.primitiveSig? type with
  | some primitive =>
      have scalar (ofType : Token → Option Value) :
          zeroFrom ofType primitive = zeroFrom ofType (.valueType type) := by
        simp only [zeroFrom, isPrimitive]
        cases primitive with
        | valueType part => cases scalarZero?_primitive isPrimitive
        | _ => rfl
      change module.zero primitive = _
      rw [zero, zero, zero?, zero?, scalar]
  | none =>
      rw [Module.isValueType] at isValueType
      cases found : module.typeDef type with
      | error error => simp [found] at isValueType
      | ok definition =>
          obtain ⟨index, named, place⟩ := typeDef_eq_ok.mp found
          have token : definition.token = type := by
            rw [tables.type_token place, (Token.eq_ofRow_of_indexIn? named).1]
          rw [found] at isValueType
          change module.zero definition.signature = _
          rw [TypeDef.signature, if_pos isValueType, token]

/-- Only named value types can lack a zero. -/
theorem zeroFrom_eq_none {ofType : Token → Option Value} {signature : TypeSig}
    (failed : zeroFrom ofType signature = none) :
    ∃ part, signature = .valueType part ∧ Core.primitiveSig? part = none ∧
      ofType part = none := by
  cases signature with
  | valueType part =>
      simp only [zeroFrom] at failed
      split at failed
      · rename_i primitive isPrimitive
        have present := scalarZero?_primitive isPrimitive
        rw [failed] at present
        cases present
      · exact ⟨part, rfl, ‹_›, failed⟩
  | _ => simp [zeroFrom, TypeSig.scalarZero?] at failed

theorem exists_eq_none_of_mapM {α β : Type} {step : α → Option β} {items : List α}
    (failed : items.mapM step = none) : ∃ item ∈ items, step item = none := by
  induction items with
  | nil => cases failed
  | cons item items ih =>
      rw [List.mapM_cons] at failed
      cases found : step item with
      | none => exact ⟨item, by simp, found⟩
      | some value =>
          cases rest : items.mapM step with
          | none =>
              obtain ⟨other, member, none⟩ := ih rest
              exact ⟨other, by simp [member], none⟩
          | some values => simp [found, rest] at failed

/-- A search that fails has gone from value type to value type. -/
theorem walks_of_recordZeroWithin {steps : Nat} {type : Token}
    (failed : module.recordZeroWithin steps type = none) :
    Walks module.Embeds steps type := by
  induction steps generalizing type with
  | zero => trivial
  | succ steps ih =>
      cases zeros : (module.instanceFields type).mapM fun field => do
        return (field.token, ← zeroFrom (module.recordZeroWithin steps) field.signature) with
      | some fields =>
          unfold recordZeroWithin at failed
          rw [zeros] at failed
          cases failed
      | none =>
          obtain ⟨field, member, zero⟩ := exists_eq_none_of_mapM zeros
          obtain ⟨part, holds, named, deeper⟩ : ∃ part, field.signature = .valueType part ∧
              Core.primitiveSig? part = none ∧ module.recordZeroWithin steps part = none := by
            refine zeroFrom_eq_none ?_
            cases found : zeroFrom (module.recordZeroWithin steps) field.signature with
            | none => rfl
            | some value => simp [found] at zero
          exact ⟨part, ⟨field, member, holds, named⟩, ih deeper⟩

/-- A value type leads to one that embeds itself. -/
def Circles (module : Module) (type : Token) : Prop :=
  ∃ value, Relation.ReflTransGen module.Embeds type value ∧
    Relation.TransGen module.Embeds value value

/-- Walks along embeddings that are longer than the type table come to a circle. -/
theorem Owned.circles_of_walks (owned : module.Owned) {type : Token}
    (walks : Walks module.Embeds module.walkBound type) : module.Circles type := by
  have inside (type part : Token) (embeds : module.Embeds type part) :
      type.row - 1 < module.types.size :=
    (owned.place_of_embeds embeds).2
  have apart (type part other after : Token) (embeds : module.Embeds type part)
      (otherEmbeds : module.Embeds other after) (same : type.row - 1 = other.row - 1) :
      type = other := by
    rw [(owned.place_of_embeds embeds).1, (owned.place_of_embeds otherEmbeds).1, same]
  exact cycle_of_walks inside apart walks

/-- Where no value type embeds itself, every type has a zero. -/
theorem Reachable.exists_zero (reachable : module.Reachable)
    (acyclic : ∀ type, ¬Relation.TransGen module.Embeds type type) (signature : TypeSig) :
    ∃ value, module.zero signature = .ok value := by
  have owned := Owned.stable.of_reachable .initial reachable
  unfold zero
  cases searched : module.zero? signature with
  | some value => exact ⟨value, rfl⟩
  | none =>
      obtain ⟨part, _, _, failed⟩ := zeroFrom_eq_none searched
      obtain ⟨type, _, cycle⟩ := owned.circles_of_walks (walks_of_recordZeroWithin failed)
      exact absurd cycle (acyclic type)

end Module

end Cil
