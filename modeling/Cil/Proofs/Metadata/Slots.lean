import Cil.Proofs.Metadata.Walks

/-!
# Slots along the base types

What a virtual call resolves to: the called method itself, or a method that fills its slot
on the chain of base types.  The method that a call resolves to is also what the call
resolves to on the type that declares it, and it overrides the called method if that type
derives from or implements the type of the called method.
-/

namespace Cil

namespace Module

variable {module : Module}

/-! ## Resolving virtual calls -/

/-- The walk of a virtual call from a type on, with what it has found further down. -/
def resolveFrom (module : Module) (wanted : MethodDef) (throughInterface : Bool)
    (type : Token) (found? : Option MethodDef) : Except Error MethodDef :=
  module.resolveWithin wanted throughInterface module.walkBound type found?

theorem Tables.resolveWithin_eq (tables : module.Tables) {wanted : MethodDef}
    {throughInterface : Bool} {type : Token} {found? : Option MethodDef} {steps more : Nat}
    (enough : module.Enough steps type) (le : steps ≤ more) :
    module.resolveWithin wanted throughInterface more type found? =
      module.resolveWithin wanted throughInterface steps type found? := by
  induction steps generalizing more type found? with
  | zero => exact absurd enough.1 (by omega)
  | succ steps ih =>
      obtain ⟨more, rfl⟩ : ∃ fewer, more = fewer + 1 := ⟨more - 1, by omega⟩
      simp only [resolveWithin]
      split
      · rfl
      · split
        · rfl
        · cases known : module.typeDef type with
          | error error => rfl
          | ok definition =>
              cases baseEq : definition.base? with
              | none => simp only [bind, Except.bind, baseEq]
              | some base =>
                  have parentEnough :=
                    tables.enough_parent enough known (base_mem_parents baseEq)
                  simp only [bind, Except.bind, baseEq,
                    ih parentEnough (Nat.le_of_succ_le_succ le)]

/-- The walk at one type: it ends at the declaring type, at an implementation of an
interface method, and at a type without a base type; else it goes on at the base type with
what the type says about the slot. -/
theorem Tables.resolveFrom_eq (tables : module.Tables) (wanted : MethodDef)
    (throughInterface : Bool) (type : Token) (found? : Option MethodDef) :
    module.resolveFrom wanted throughInterface type found? =
      if type = wanted.declaringType then .ok (found?.getD wanted)
      else
        match (module.methodsOf type).find? fun candidate =>
          throughInterface && !candidate.isStatic && candidate.sameShape wanted with
        | some implementation => .ok implementation
        | none =>
          let found? := if throughInterface then found?
            else (slotStep wanted (module.methodsOf type)).apply found?
          (module.typeDef type).bind fun definition =>
            match definition.base? with
            | some base => module.resolveFrom wanted throughInterface base found?
            | none => .ok (found?.getD wanted) := by
  unfold resolveFrom
  rw [walkBound, resolveWithin]
  by_cases ended : type = wanted.declaringType
  · rw [if_pos ended, if_pos ended]
  · rw [if_neg ended, if_neg ended]
    dsimp only
    cases (module.methodsOf type).find? fun candidate =>
        throughInterface && !candidate.isStatic && candidate.sameShape wanted with
    | some implementation => rfl
    | none =>
        generalize (if throughInterface then found?
          else (slotStep wanted (module.methodsOf type)).apply found?) = further?
        cases known : module.typeDef type with
        | error error => rfl
        | ok definition =>
            cases baseEq : definition.base? with
            | none => simp only [bind, Except.bind, baseEq, pure, Except.pure]
            | some base =>
                have parentEnough := tables.enough_parent (module.enough_walkBound type) known
                  (base_mem_parents baseEq)
                simp only [bind, Except.bind, baseEq,
                  tables.resolveWithin_eq parentEnough (Nat.le_succ _)]

theorem resolveVirtual_eq {method : MethodDef} (isInstance : method.isStatic = false)
    (isSlot : method.isVirtual || method.isAbstract) (type : Token) :
    module.resolveVirtual type method =
      module.resolveFrom method (module.isInterface method.declaringType) type none := by
  unfold resolveVirtual resolveFrom
  rw [if_neg]
  cases virtualEq : method.isVirtual <;> cases abstractEq : method.isAbstract <;>
    simp_all

/-- What a walk has found so far either stands, or it is hidden further up and makes no
difference. -/
theorem Tables.resolveFrom_found (tables : module.Tables) (wanted : MethodDef)
    (throughInterface : Bool) (type : Token) :
    (∀ found, module.resolveFrom wanted throughInterface type (some found) = .ok found) ∨
      ∀ found, module.resolveFrom wanted throughInterface type (some found) =
        module.resolveFrom wanted throughInterface type none := by
  induction type using tables.baseInduction with | step type baseHolds => ?_
  by_cases ended : type = wanted.declaringType
  · exact Or.inl fun found => by rw [tables.resolveFrom_eq, if_pos ended, Option.getD_some]
  simp only [tables.resolveFrom_eq wanted throughInterface type, if_neg ended]
  cases (module.methodsOf type).find? fun candidate =>
      throughInterface && !candidate.isStatic && candidate.sameShape wanted with
  | some implementation => exact Or.inr fun _ => rfl
  | none =>
      cases known : module.typeDef type with
      | error error => exact Or.inr fun _ => rfl
      | ok definition =>
          simp only [Except.bind]
          cases isBase : definition.base? with
          | none =>
              cases throughInterface with
              | true => exact Or.inl fun found => rfl
              | false =>
                  cases slotStep wanted (module.methodsOf type) with
                  | unchanged => exact Or.inl fun found => rfl
                  | hidden => exact Or.inr fun found => rfl
                  | filled candidate => exact Or.inl fun found => rfl
          | some base =>
              have above := baseHolds base (baseOf?_eq_some.mpr ⟨definition, known, isBase⟩)
              cases throughInterface with
              | true => exact above
              | false =>
                  cases slotStep wanted (module.methodsOf type) with
                  | unchanged => exact above
                  | hidden => exact Or.inr fun found => rfl
                  | filled candidate =>
                      rcases above with stands | hides
                      · exact Or.inl stands
                      · exact Or.inr fun found => (hides found).trans (hides candidate).symm

/-- How a method that a walk from a type finds stands to the wanted method: it fills the
slot on a type of the chain, and from there a walk finds it at once. -/
structure Fills (module : Module) (wanted : MethodDef) (throughInterface : Bool)
    (type : Token) (filler : MethodDef) : Prop where
  member : filler ∈ module.methodsOf filler.declaringType
  isInstance : filler.isStatic = false
  sameShape : filler.sameShape wanted
  apart : filler.declaringType ≠ wanted.declaringType
  resolves :
    module.resolveFrom wanted throughInterface filler.declaringType none = .ok filler
  onChain : filler.declaringType ∈ module.baseChain type
  /-- It stands below the type that declares the wanted method, if that is on the chain. -/
  below : wanted.declaringType ∈ module.baseChain type →
    wanted.declaringType ∈ module.baseChain filler.declaringType

theorem slotStep_filled {wanted candidate : MethodDef} {methods : List MethodDef}
    (filled : slotStep wanted methods = .filled candidate) :
    candidate ∈ methods ∧ candidate.isStatic = false ∧ candidate.sameShape wanted := by
  unfold slotStep at filled
  split at filled
  · cases filled
  · rename_i found
    split at filled
    · cases filled
    · cases filled
      have holds := List.find?_some found
      simp only [Bool.and_eq_true, Bool.not_eq_true'] at holds
      exact ⟨List.mem_of_find?_eq_some found, holds.1.1, holds.1.2⟩

theorem declaringType_of_mem_methodsOf {type : Token} {method : MethodDef}
    (member : method ∈ module.methodsOf type) : method.declaringType = type := by
  simpa using (List.mem_filter.mp member).2

theorem mem_methods_of_mem_methodsOf {type : Token} {method : MethodDef}
    (member : method ∈ module.methodsOf type) : method ∈ module.methods :=
  Array.mem_toList_iff.mp (List.mem_filter.mp member).1

/-- A method found at the start of a walk fills the slot there. -/
theorem Tables.fills_here (tables : module.Tables) {wanted filler : MethodDef}
    {throughInterface : Bool} {type : Token} (member : filler ∈ module.methodsOf type)
    (isInstance : filler.isStatic = false) (sameShape : filler.sameShape wanted)
    (apart : type ≠ wanted.declaringType)
    (resolves : module.resolveFrom wanted throughInterface type none = .ok filler) :
    module.Fills wanted throughInterface type filler := by
  have owner := declaringType_of_mem_methodsOf member
  subst owner
  exact ⟨member, isInstance, sameShape, apart, resolves,
    tables.baseChain_eq filler.declaringType ▸ List.mem_cons_self, id⟩

/-- A method that a walk from the base type finds fills the slot for the derived type. -/
theorem Tables.fills_of_base (tables : module.Tables) {wanted filler : MethodDef}
    {throughInterface : Bool} {type base : Token} (baseEq : module.baseOf? type = some base)
    (apart : type ≠ wanted.declaringType)
    (fills : module.Fills wanted throughInterface base filler) :
    module.Fills wanted throughInterface type filler where
  member := fills.member
  isInstance := fills.isInstance
  sameShape := fills.sameShape
  apart := fills.apart
  resolves := fills.resolves
  onChain := by
    rw [tables.baseChain_eq, baseEq]
    exact List.mem_cons_of_mem _ fills.onChain
  below declared := by
    rw [tables.baseChain_eq, baseEq] at declared
    exact fills.below ((List.mem_cons.mp declared).resolve_left fun same => apart same.symm)

/-- A walk gives the wanted method itself or a method that fills its slot. -/
theorem Tables.resolveFrom_cases (tables : module.Tables) {wanted resolved : MethodDef}
    {throughInterface : Bool} {type : Token}
    (walk : module.resolveFrom wanted throughInterface type none = .ok resolved) :
    resolved = wanted ∨ module.Fills wanted throughInterface type resolved := by
  induction type using tables.baseInduction with | step type baseHolds => ?_
  by_cases ended : type = wanted.declaringType
  · rw [tables.resolveFrom_eq, if_pos ended] at walk
    cases walk
    exact Or.inl rfl
  have above (base : Token) (baseEq : module.baseOf? type = some base)
      (found : module.resolveFrom wanted throughInterface base none = .ok resolved) :
      resolved = wanted ∨ module.Fills wanted throughInterface type resolved :=
    (baseHolds base baseEq found).imp_right (tables.fills_of_base baseEq ended)
  have unfolded := walk
  rw [tables.resolveFrom_eq, if_neg ended] at unfolded
  cases found : (module.methodsOf type).find? fun candidate =>
      throughInterface && !candidate.isStatic && candidate.sameShape wanted with
  | some implementation =>
      rw [found] at unfolded
      cases unfolded
      have holds := List.find?_some found
      simp only [Bool.and_eq_true, Bool.not_eq_true'] at holds
      exact Or.inr (tables.fills_here (List.mem_of_find?_eq_some found) holds.1.2 holds.2
        ended walk)
  | none =>
      rw [found] at unfolded
      cases known : module.typeDef type with
      | error error =>
          rw [known] at unfolded
          cases unfolded
      | ok definition =>
          rw [known] at unfolded
          simp only [Except.bind] at unfolded
          -- A method that the slot of this type names is found here or hidden further up.
          have fillsHere (candidate : MethodDef)
              (filled : slotStep wanted (module.methodsOf type) = .filled candidate)
              (equal : candidate = resolved) :
              Fills module wanted throughInterface type resolved := by
            subst equal
            obtain ⟨member, isInstance, sameShape⟩ := slotStep_filled filled
            exact tables.fills_here member isInstance sameShape ended walk
          -- Without a base type the walk ends with what this type says about the slot.
          cases isBase : definition.base? with
          | none =>
              rw [isBase] at unfolded
              cases throughInterface with
              | true => exact Or.inl (Except.ok.inj unfolded).symm
              | false =>
                  cases slot : slotStep wanted (module.methodsOf type) with
                  | unchanged =>
                      rw [slot] at unfolded
                      exact Or.inl (Except.ok.inj unfolded).symm
                  | hidden =>
                      rw [slot] at unfolded
                      exact Or.inl (Except.ok.inj unfolded).symm
                  | filled candidate =>
                      rw [slot] at unfolded
                      exact Or.inr (fillsHere candidate slot (Except.ok.inj unfolded))
          | some base =>
              have baseEq := baseOf?_eq_some.mpr ⟨definition, known, isBase⟩
              rw [isBase] at unfolded
              cases throughInterface with
              | true => exact above base baseEq unfolded
              | false =>
                  cases slot : slotStep wanted (module.methodsOf type) with
                  | unchanged =>
                      rw [slot] at unfolded
                      exact above base baseEq unfolded
                  | hidden =>
                      rw [slot] at unfolded
                      exact above base baseEq unfolded
                  | filled candidate =>
                      rw [slot] at unfolded
                      -- Further up the candidate stands, or a new slot hides it.
                      rcases tables.resolveFrom_found wanted false base with stands | hides
                      · exact Or.inr (fillsHere candidate slot
                          (Except.ok.inj ((stands candidate).symm.trans unfolded)))
                      · exact above base baseEq ((hides candidate).symm.trans unfolded)

/-- A virtual call resolves on every known type. -/
theorem Tables.resolveFrom_total (tables : module.Tables) (wanted : MethodDef)
    (throughInterface : Bool) {type : Token} {definition : TypeDef}
    (known : module.typeDef type = .ok definition) (found? : Option MethodDef) :
    ∃ resolved, module.resolveFrom wanted throughInterface type found? = .ok resolved := by
  induction type using tables.baseInduction generalizing definition found? with
  | step type baseHolds => ?_
  rw [tables.resolveFrom_eq]
  split
  · exact ⟨_, rfl⟩
  · split
    · exact ⟨_, rfl⟩
    · dsimp only
      rw [known]
      cases isBase : definition.base? with
      | none => simp [Except.bind, isBase]
      | some base =>
          obtain ⟨baseDef, baseKnown⟩ := tables.parent_known known (base_mem_parents isBase)
          simpa [Except.bind, isBase] using
            baseHolds base (baseOf?_eq_some.mpr ⟨definition, known, isBase⟩) baseKnown _

/-- A virtual call resolves on every type that derives from or implements the type of the
method. -/
theorem Tables.resolveVirtual_total (tables : module.Tables) {type : Token}
    {method : MethodDef} (subtype : module.isSubtypeOf type method.declaringType) :
    ∃ resolved, module.resolveVirtual type method = .ok resolved := by
  by_cases isSlot : method.isStatic = false ∧ (method.isVirtual || method.isAbstract)
  · rw [resolveVirtual_eq isSlot.1 isSlot.2]
    cases known : module.typeDef type with
    | ok definition => exact tables.resolveFrom_total _ _ known none
    | error error =>
        have same : type = method.declaringType := by
          simpa [isSubtypeOf, walkBound, isSubtypeWithin, known] using subtype
        exact ⟨method, by rw [tables.resolveFrom_eq, if_pos same, Option.getD_none]⟩
  · refine ⟨method, ?_⟩
    unfold resolveVirtual
    rw [if_pos]
    cases isStatic : method.isStatic <;> simp_all

/-! ## Overrides -/

theorem Tables.token_of_mem (tables : module.Tables) {method : MethodDef}
    (fits : module.methods.size < Token.rowBound) (member : method ∈ module.methods) :
    ∃ index, method.token.indexIn? .methodDef = some index ∧
      module.methods[index]? = some method := by
  obtain ⟨index, inside, rfl⟩ := Array.getElem_of_mem member
  have place := Array.getElem?_eq_getElem inside
  refine ⟨index, ?_, place⟩
  rw [tables.method_token place]
  exact Token.indexIn?_ofRow (by omega)

theorem Tables.token_of_method (tables : module.Tables) {token : Token} {method : MethodDef}
    (known : module.method token = .ok method) : method.token = token := by
  unfold Module.method at known
  split at known
  · split at known
    · rename_i definition arguments _
      cases found : module.methodDef definition with
      | error error => simp [found, bind, Except.bind] at known
      | ok generic =>
          simp only [found, bind, Except.bind, MethodDef.instantiate] at known
          split at known
          · cases known
          · split at known
            · cases known
            · cases known
              rfl
    · cases known
  · obtain ⟨index, named, place⟩ := methodDef_eq_ok.mp known
    rw [tables.method_token place, (Token.eq_ofRow_of_indexIn? named).1]

/-- A definition with the token of a known method is this method. -/
theorem Tables.eq_of_token (tables : module.Tables) {token : Token}
    {method definition : MethodDef} (fits : module.methods.size < Token.rowBound)
    (known : module.method token = .ok method) (member : definition ∈ module.methods)
    (same : definition.token = method.token) : definition = method := by
  obtain ⟨index, named, place⟩ := tables.token_of_mem fits member
  rw [same, tables.token_of_method known] at named
  have isDefinition : token.tableId? ≠ some .methodSpec := by
    rw [Token.tableId?, (Token.indexIn?_eq_some.mp named).1, TableId.ofCode?_code]
    decide
  rw [Module.method, if_neg isDefinition] at known
  obtain ⟨other, otherNamed, otherPlace⟩ := methodDef_eq_ok.mp known
  rw [named] at otherNamed
  cases otherNamed
  exact Option.some.inj (place.symm.trans otherPlace)

end Module

/-- Methods of one identity have one shape and are called in the same ways. -/
theorem MethodDef.of_identity {first second : MethodDef}
    (same : first.identity = second.identity) :
    first.token = second.token ∧ first.declaringType = second.declaringType ∧
      first.name = second.name ∧ first.params = second.params ∧
      first.isStatic = second.isStatic ∧ first.isAbstract = second.isAbstract ∧
      first.isVirtual = second.isVirtual := by
  simp only [identity, MethodIdentity.mk.injEq] at same
  obtain ⟨token, declaringType, name, params, _, flags, _, _⟩ := same
  refine ⟨token, declaringType, name, params, ?_⟩
  revert flags
  cases first.isStatic <;> cases first.isConstructor <;> cases first.isAbstract <;>
    cases first.isVirtual <;> cases second.isStatic <;> cases second.isConstructor <;>
    cases second.isAbstract <;> cases second.isVirtual <;> decide

namespace Module

variable {module : Module}

/-- A walk looks only at the shape of the wanted method and at its declaring type. -/
theorem resolveWithin_congr {wanted other resolved : MethodDef} {throughInterface : Bool}
    (declaringType : other.declaringType = wanted.declaringType)
    (name : other.name = wanted.name) (params : other.params = wanted.params)
    {steps : Nat} {type : Token} {found? : Option MethodDef}
    (walk : module.resolveWithin wanted throughInterface steps type found? = .ok resolved) :
    resolved = wanted ∨
      module.resolveWithin other throughInterface steps type found? = .ok resolved := by
  have shape (candidate : MethodDef) :
      candidate.sameShape other = candidate.sameShape wanted := by
    simp only [MethodDef.sameShape, name, params]
  have found (found? : Option MethodDef)
      (result : (.ok (found?.getD wanted) : Except Error MethodDef) = .ok resolved) :
      resolved = wanted ∨
        (.ok (found?.getD other) : Except Error MethodDef) = .ok resolved := by
    cases found? with
    | none => exact Or.inl (Except.ok.inj result).symm
    | some candidate => exact Or.inr result
  induction steps generalizing type found? with
  | zero => exact found found? walk
  | succ steps ih =>
      simp only [resolveWithin, slotStep, shape, declaringType] at walk ⊢
      split
      · rw [if_pos ‹_›] at walk
        exact found found? walk
      · rw [if_neg ‹_›] at walk
        split
        · rename_i implementation first
          rw [first] at walk
          exact Or.inr walk
        · rename_i none
          rw [none] at walk
          dsimp only at walk
          cases known : module.typeDef type with
          | error error =>
              rw [known] at walk
              cases walk
          | ok definition =>
              rw [known] at walk
              simp only [bind, Except.bind, pure, Except.pure] at walk ⊢
              cases isBase : definition.base? with
              | none =>
                  rw [isBase] at walk
                  exact found _ walk
              | some base =>
                  rw [isBase] at walk
                  exact ih walk

/-- A method belongs to a module if its token names a method of its identity there. -/
def Declares (module : Module) (method : MethodDef) : Prop :=
  ∃ current, module.method method.token = .ok current ∧ current.identity = method.identity

/-- What a virtual call resolves to overrides the called method, if its type derives from or
implements the type of the called method. -/
theorem Tables.overrides_of_resolveVirtual (tables : module.Tables)
    (fits : module.methods.size < Token.rowBound) {type : Token}
    {method slot resolved : MethodDef} (declared : module.Declares method)
    (isInstance : method.isStatic = false) (isSlot : method.isVirtual || method.isAbstract)
    (same : slot.identity = method.identity)
    (resolves : module.resolveVirtual type method = .ok resolved)
    (subtype : module.isSubtypeOf resolved.declaringType method.declaringType) :
    resolved = method ∨ module.overrides resolved slot := by
  rw [resolveVirtual_eq isInstance isSlot] at resolves
  rcases tables.resolveFrom_cases resolves with itself | fills
  · exact Or.inl itself
  · obtain ⟨tokenEq, declaringType, name, params, isStatic, isAbstract, isVirtual⟩ :=
      MethodDef.of_identity same
    have apart : resolved ≠ method := fun equal => fills.apart (by rw [equal])
    have tokenNe : resolved.token ≠ slot.token := by
      intro tokenSame
      obtain ⟨current, known, sameCurrent⟩ := declared
      have isCurrent : resolved = current := tables.eq_of_token fits known
        (Array.mem_toList_iff.mp (List.mem_filter.mp fills.member).1)
        (by rw [tokenSame, tokenEq, tables.token_of_method known])
      exact fills.apart (by rw [isCurrent, (MethodDef.of_identity sameCurrent).2.1])
    have shape : resolved.sameShape slot := by
      simpa only [MethodDef.sameShape, name, params] using fills.sameShape
    have resolvesSlot : module.resolveVirtual resolved.declaringType slot = .ok resolved := by
      rw [resolveVirtual_eq (isStatic.trans isInstance)
        (by simpa only [isVirtual, isAbstract] using isSlot), declaringType]
      exact (resolveWithin_congr declaringType name params fills.resolves).resolve_left apart
    have slotIsSlot : (slot.isVirtual || slot.isAbstract) = true := by
      simpa only [isVirtual, isAbstract] using isSlot
    refine Or.inr ?_
    unfold overrides
    simp [tokenNe, slotIsSlot, fills.isInstance, shape, declaringType, subtype, resolvesSlot]

/-- A method of a type on the chain of base types resolves to a method of a type that still
derives from that type. -/
theorem Tables.isSubtypeOf_of_resolveVirtual (tables : module.Tables) {type : Token}
    {method resolved : MethodDef} (isInstance : method.isStatic = false)
    (isSlot : method.isVirtual || method.isAbstract)
    (resolves : module.resolveVirtual type method = .ok resolved)
    (onChain : method.declaringType ∈ module.baseChain type) :
    module.isSubtypeOf resolved.declaringType method.declaringType := by
  rw [resolveVirtual_eq isInstance isSlot] at resolves
  rcases tables.resolveFrom_cases resolves with rfl | fills
  · exact isSubtypeOf_self _
  · exact tables.isSubtypeOf_of_mem_baseChain (fills.below onChain)

end Module

end Cil
