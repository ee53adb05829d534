import Cil.Metadata.Module

/-!
# The type hierarchy

Subtyping, assignability, inherited fields and virtual method slots.

A type is declared after the types it builds on, so every walk along base types
and interfaces visits ever smaller rows.  The walks count down from the number of
types, which is more than any chain of base types needs.
-/

namespace Cil

namespace Module

/-- Whether `base` is reached from `derived` within a number of steps along base
types and interfaces. -/
def isSubtypeWithin (module : Module) (base : Token) : (steps : Nat) → (derived : Token) → Bool
  | 0, _ => false
  | steps + 1, derived =>
    derived == base ||
      match module.typeDef derived with
      | .error _ => false
      | .ok type =>
        type.interfaces.any (module.isSubtypeWithin base steps) ||
          match type.base? with
          | none => false
          | some next => module.isSubtypeWithin base steps next

/-- More steps than any walk through the types of the module needs. -/
def walkBound (module : Module) : Nat :=
  module.types.size + 1

/-- Whether one type is another, derives from it or implements it. -/
def isSubtypeOf (module : Module) (derived base : Token) : Bool :=
  module.isSubtypeWithin base module.walkBound derived

/-- The type token that takes part in reference conversions. -/
def conversionToken? : TypeSig → Option Token
  | .object => some Core.object
  | .string => some Core.string
  | .reference type | .valueType type => some type
  | _ => none

/-- Whether a slot of type `target` can hold a value of type `source`. -/
def isAssignable (module : Module) (target source : TypeSig) : Bool :=
  target == source ||
    match target, source with
    | .object, source => !source.isByRef && !source.isValueType && source != .void
    | .reference _, .reference _ | .reference _, .string
    | .string, .reference _ | .string, .string =>
      match conversionToken? target, conversionToken? source with
      | some base, some derived => module.isSubtypeOf derived base
      | _, _ => false
    | .array target, .array source => !source.isValueType && module.isAssignable target source
    | _, _ => false

/-- A type and its base types, nearest first, within a number of steps. -/
def baseChainWithin (module : Module) : (steps : Nat) → (type : Token) → List Token
  | 0, _ => []
  | steps + 1, type =>
    type :: match module.typeDef type with
      | .ok { base? := some base, .. } => module.baseChainWithin steps base
      | _ => []

/-- A type and its base types, nearest first. -/
def baseChain (module : Module) (type : Token) : List Token :=
  module.baseChainWithin module.walkBound type

/-- The instance fields of a type, those of its base types first. -/
def instanceFields (module : Module) (type : Token) : List FieldDef :=
  (module.baseChain type).reverse.flatMap fun owner =>
    (module.fieldsOf owner).filter (!·.isStatic)

/-- What the methods of one type say about a slot. -/
inductive SlotStep
  /-- The type says nothing about the slot. -/
  | unchanged
  /-- The type fills the slot. -/
  | filled (method : MethodDef)
  /-- The type hides the slot behind one of its own, so that methods found further
  down do not fill it. -/
  | hidden

/-- The first virtual method of the wanted shape decides. -/
def slotStep (wanted : MethodDef) (methods : List MethodDef) : SlotStep :=
  match methods.find? fun candidate =>
    !candidate.isStatic && candidate.sameShape wanted && candidate.isVirtual with
  | none => .unchanged
  | some candidate =>
    if candidate.flags.contains MethodModifiers.newSlot then .hidden else .filled candidate

/-- The method found further down, after a type higher up had its say. -/
def SlotStep.apply (found? : Option MethodDef) : SlotStep → Option MethodDef
  | .unchanged => found?
  | .hidden => none
  | .filled candidate => some (found?.getD candidate)

/-- The walk of `resolveVirtual` from a type towards the type that declares the
method, which ends the walk. -/
def resolveWithin (module : Module) (wanted : MethodDef) (throughInterface : Bool) :
    (steps : Nat) → (type : Token) → (found? : Option MethodDef) → Except Error MethodDef
  | 0, _, found? => .ok (found?.getD wanted)
  | steps + 1, type, found? =>
    if type = wanted.declaringType then .ok (found?.getD wanted)
    else
      let methods := module.methodsOf type
      match methods.find? fun candidate =>
        throughInterface && !candidate.isStatic && candidate.sameShape wanted with
      | some implementation => .ok implementation
      | none => do
        let found? := if throughInterface then found? else (slotStep wanted methods).apply found?
        match (← module.typeDef type).base? with
        | some base => module.resolveWithin wanted throughInterface steps base found?
        | none => return found?.getD wanted

/-- The method that a virtual call runs on an instance of a given type.

A method of an interface is implemented by the nearest method of its shape.  The
slot of a virtual method of a class is filled by the nearest override that no new
slot hides. -/
def resolveVirtual (module : Module) (runtimeType : Token) (method : MethodDef) :
    Except Error MethodDef :=
  if method.isStatic || (!method.isVirtual && !method.isAbstract) then .ok method
  else
    module.resolveWithin method (module.isInterface method.declaringType) module.walkBound
      runtimeType none

/-- Whether a method takes over the slot of another. -/
def overrides (module : Module) (candidate slot : MethodDef) : Bool :=
  candidate.token != slot.token && (slot.isVirtual || slot.isAbstract) &&
    !candidate.isStatic && candidate.sameShape slot &&
    module.isSubtypeOf candidate.declaringType slot.declaringType &&
    match module.resolveVirtual candidate.declaringType slot with
    | .ok resolved => resolved.token == candidate.token
    | .error _ => false

end Module

end Cil
