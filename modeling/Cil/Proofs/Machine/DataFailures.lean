import Cil.Machine.Memory
import Cil.Proofs.Code.BoundedReads
import Cil.Proofs.Code.Failures

/-!
# What reading data fails with

That no instruction starts at an offset is found out by looking for one.  Values, objects, the
tables of a module and method bodies are read without looking for an instruction, and so
reading them fails in other ways.
-/

namespace Cil

open Stateful
open MonadExcept (ofExcept)

/-- Whether an error says that no instruction starts at an offset. -/
def Error.isStray : Error → Bool
  | .malformed (.noInstructionAt _) => true
  | _ => false

/-- A property of all errors but those that say that no instruction starts at an offset. -/
def AllowsOthers (failure : Error → Prop) : Prop :=
  ∀ error : Error, error.isStray = false → failure error

variable {failure : Error → Prop}

/-! ## Values, objects and tables -/

namespace AllowsOthers

variable {α : Type} (others : AllowsOthers failure)

include others

theorem errs_asObject (value : Value) : ErrsOnly failure value.asObject := by
  cases value with
  | object reference => exact .ok _
  | null => exact .ok _
  | _ => exact .error (others _ rfl)

theorem errs_asPointer (value : Value) : ErrsOnly failure value.asPointer := by
  cases value with
  | pointer target => exact .ok _
  | _ => exact .error (others _ rfl)

theorem errs_asInt32 (value : Value) : ErrsOnly failure value.asInt32 := by
  cases value with
  | int32 number | int64 number | nativeInt number => exact .ok _
  | _ => exact .error (others _ rfl)

theorem errs_asInt64 (value : Value) : ErrsOnly failure value.asInt64 := by
  cases value with
  | int32 number | int64 number | nativeInt number => exact .ok _
  | _ => exact .error (others _ rfl)

theorem errs_fieldOfValue (value : Value) (field : Token) :
    ErrsOnly failure (value.field field) := by
  cases value with
  | record type fields =>
      unfold Value.field
      dsimp only
      split
      · exact .ok _
      · exact .error (others _ rfl)
  | _ => exact .error (others _ rfl)

theorem errs_setFieldOfValue (value : Value) (field : Token) (new : Value) :
    ErrsOnly failure (value.setField field new) := by
  cases value with
  | record type fields =>
      unfold Value.setField
      dsimp only
      split
      · exact .ok _
      · exact .error (others _ rfl)
  | _ => exact .error (others _ rfl)

/-! ### The heap -/

section Heap

variable (heap : Heap) (reference : HeapRef)

theorem errs_get : ErrsOnly failure (heap.get reference) := by
  unfold Heap.get
  split
  · exact .ok _
  · exact .error (others _ rfl)

theorem errs_typeOf : ErrsOnly failure (heap.typeOf reference) :=
  .bind (others.errs_get _ _) fun _ => .ok _

theorem errs_asArray (object : HeapObject) : ErrsOnly failure object.asArray := by
  cases object with
  | array elementType elements => exact .ok _
  | _ => exact .error (others _ rfl)

theorem errs_length : ErrsOnly failure (heap.length reference) :=
  .bind (others.errs_get _ _) fun _ => .bind (others.errs_asArray _) fun _ => .ok _

theorem errs_element (index : Nat) : ErrsOnly failure (heap.element reference index) :=
  .bind (others.errs_get _ _) fun _ => .bind (others.errs_asArray _) fun _ => .ok _

theorem errs_unbox : ErrsOnly failure (heap.unbox reference) := by
  refine .bind (others.errs_get _ _) fun object => ?_
  cases object with
  | boxed type value => exact .ok _
  | _ => exact .error (others _ rfl)

theorem errs_fieldOfObject (key : Token) (default : Value) :
    ErrsOnly failure (heap.field reference key default) := by
  refine .bind (others.errs_get _ _) fun object => ?_
  cases object with
  | object type fields => exact .ok _
  | boxed type value => exact others.errs_fieldOfValue _ _
  | _ => exact .error (others _ rfl)

theorem failsOnly_allocate (object : HeapObject) : FailsOnly failure (Heap.allocate object) := by
  refine .bind .get fun heap => ?_
  split
  · exact .throw_bind (others _ rfl)
  · exact .modifyGet _

theorem failsOnly_update {change : HeapObject → Except Error HeapObject}
    (changes : ∀ object, ErrsOnly failure (change object)) :
    FailsOnly failure (Heap.update reference change) :=
  .bind .get fun _ => .bind (.ofExcept (others.errs_get _ _)) fun _ =>
    .bind (.ofExcept (changes _)) fun _ => .modifyGet _

theorem failsOnly_setField (key : Token) (new : Value) :
    FailsOnly failure (Heap.setField reference key new) := by
  refine others.failsOnly_update _ fun object => ?_
  cases object with
  | object type fields => exact .ok _
  | boxed type value => exact .bind (others.errs_setFieldOfValue _ _ _) fun _ => .ok _
  | _ => exact .error (others _ rfl)

theorem failsOnly_setBoxed (new : Value) : FailsOnly failure (Heap.setBoxed reference new) := by
  refine others.failsOnly_update _ fun object => ?_
  cases object with
  | boxed type value => exact .ok _
  | _ => exact .error (others _ rfl)

theorem failsOnly_setElement (index : Nat) (new : Value) :
    FailsOnly failure (Heap.setElement reference index new) := by
  have changes (object : HeapObject) : ErrsOnly failure (object.setElement index new) := by
    cases object with
    | array elementType elements => exact .ite (.ok _) (.ok _)
    | _ => exact .error (others _ rfl)
  refine .bind .get fun _ => .bind (.ofExcept (others.errs_get _ _)) fun _ =>
    .bind (.ofExcept (changes _)) fun changed? => ?_
  cases changed? with
  | some object => exact .bind (.modifyGet _) fun _ => .pure _
  | none => exact .pure _

end Heap

/-! ### Modules -/

section Module

variable (module : Module) (token : Token)

theorem errs_typeDef : ErrsOnly failure (module.typeDef token) := by
  unfold Module.typeDef
  split
  · exact .ok _
  · exact .error (others _ rfl)

theorem errs_field : ErrsOnly failure (module.field token) := by
  unfold Module.field
  split
  · exact .ok _
  · exact .error (others _ rfl)

theorem errs_userString : ErrsOnly failure (module.userString token) := by
  unfold Module.userString
  split
  · exact .ok _
  · exact .error (others _ rfl)

theorem errs_standAloneSignature : ErrsOnly failure (module.standAloneSignature token) := by
  unfold Module.standAloneSignature
  split
  · exact .ok _
  · exact .error (others _ rfl)

theorem errs_methodDef : ErrsOnly failure (module.methodDef token) := by
  unfold Module.methodDef
  split
  · exact .ok _
  · exact .error (others _ rfl)

theorem errs_instantiate (method : MethodDef) (arguments : List TypeSig) :
    ErrsOnly failure (method.instantiate token arguments) :=
  .ite (.error (others _ rfl)) (.ite (.error (others _ rfl)) (.ok _))

theorem errs_method : ErrsOnly failure (module.method token) := by
  unfold Module.method
  split
  · split
    · exact .bind (others.errs_methodDef _ _) fun _ => others.errs_instantiate _ _ _
    · exact .error (others _ rfl)
  · exact others.errs_methodDef _ _

theorem errs_typeSig : ErrsOnly failure (module.typeSig token) := by
  unfold Module.typeSig
  split
  · exact .ok _
  · exact .bind (others.errs_typeDef _ _) fun _ => .ok _

theorem errs_zero (signature : TypeSig) : ErrsOnly failure (module.zero signature) := by
  unfold Module.zero
  split
  · exact .ok _
  · exact .error (others _ rfl)

theorem errs_zeroFields : ErrsOnly failure (module.zeroFields token) :=
  .mapM fun _ => .bind (others.errs_zero _ _) fun _ => .ok _

theorem errs_zeroOfField : ErrsOnly failure (module.zeroOfField token) :=
  .bind (others.errs_field _ _) fun _ => others.errs_zero _ _

theorem errs_zeroOfType : ErrsOnly failure (module.zeroOfType token) :=
  .bind (others.errs_typeSig _ _) fun _ => others.errs_zero _ _

theorem errs_resolveWithin (wanted : MethodDef) (throughInterface : Bool) (steps : Nat)
    (type : Token) (found? : Option MethodDef) :
    ErrsOnly failure (module.resolveWithin wanted throughInterface steps type found?) := by
  induction steps generalizing type found? with
  | zero => exact .ok _
  | succ steps ih =>
      unfold Module.resolveWithin
      split
      · exact .ok _
      dsimp only
      split
      · exact .ok _
      · refine .bind (others.errs_typeDef _ _) fun definition => ?_
        split
        · exact ih _ _
        · exact .ok _

theorem errs_resolveVirtual (type : Token) (method : MethodDef) :
    ErrsOnly failure (module.resolveVirtual type method) :=
  .ite (.ok _) (others.errs_resolveWithin _ _ _ _ _ _)

end Module

/-! ### Method bodies -/

theorem errs_bodyOfBytes (data : List UInt8) : ErrsOnly failure (Body.ofBytes data) := by
  cases data with
  | nil => exact .error (others _ rfl)
  | cons first rest =>
      refine .ite (.ite (.error (others _ rfl)) (.ok _)) (.ite ?_ (.error (others _ rfl)))
      rcases Body.ofFatBytes_cases (first :: rest) with ⟨body, read, _⟩ | ⟨size, read⟩ | read
      · rw [read]; exact .ok _
      · rw [read]; exact .error (others _ rfl)
      · rw [read]; exact .error (others _ rfl)

theorem errs_codeOfBytes (bytes : List UInt8) (locals : List LocalVariable)
    (clauses : List Clause) (maxStack : Nat) (initLocals : Bool) :
    ErrsOnly failure (MethodCode.ofBytes bytes locals clauses maxStack initLocals) := by
  refine .bind (Instruction.errsOnly_decodeAll (others _ rfl) (fun _ _ => others _ rfl) _)
    fun instructions => ?_
  unfold MethodCode.validate
  split
  · exact .error (others _ rfl)
  · split
    · exact .error (others _ rfl)
    · exact .ok _

theorem errs_locals (module : Module) (token? : Option Token) :
    ErrsOnly failure (module.locals token?) := by
  cases token? with
  | none => exact .ok _
  | some token =>
      refine .bind (others.errs_standAloneSignature _ _) fun signature => ?_
      cases signature with
      | locals slots => exact .ok _
      | method site => exact .error (others _ rfl)

theorem errs_codeOfMethod (module : Module) (method : MethodDef) :
    ErrsOnly failure (MethodCode.ofMethod module method) := by
  have code (bytes : List UInt8) (body : Body) : ErrsOnly failure (body.code bytes) :=
    .ite (.ok _) (.error (others _ rfl))
  unfold MethodCode.ofMethod
  split
  · dsimp only
    split
    · exact .error (others _ rfl)
    · exact .bind (others.errs_bodyOfBytes _) fun _ => .bind (code _ _) fun _ =>
        .bind (others.errs_locals _ _) fun _ => others.errs_codeOfBytes _ _ _ _ _
  · exact .error (others _ rfl)

end AllowsOthers

end Cil
