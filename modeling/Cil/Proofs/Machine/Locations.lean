import Cil.Proofs.Machine.Running
import Cil.Proofs.Stateful

/-!
# Locations

What a location holds, what a write makes of the machine, and that the two belong together:
a location that can be read can be written, and it then holds what was written.  An object
that is allocated later is in no location's way.
-/

namespace Cil

open Stateful
open MonadExcept (ofExcept)

/-! ## Fields by key -/

namespace Value

variable {fields changed : List (Token × Value)} {key : Token} {old new : Value}

theorem exists_replaceField? (found : fields.lookup key = some old) (new : Value) :
    ∃ changed, replaceField? fields key new = some changed := by
  induction fields with
  | nil => cases found
  | cons entry rest ih =>
    obtain ⟨other, value⟩ := entry
    by_cases same : other = key
    · exact ⟨(other, new) :: rest, by simp [replaceField?, same]⟩
    · rw [List.lookup_cons, beq_false_of_ne (Ne.symm same)] at found
      obtain ⟨changed, replaced⟩ := ih found
      exact ⟨(other, value) :: changed, by simp [replaceField?, same, replaced]⟩

theorem lookup_of_replaceField? (replaced : replaceField? fields key new = some changed) :
    changed.lookup key = some new := by
  induction fields generalizing changed with
  | nil => cases replaced
  | cons entry rest ih =>
    obtain ⟨other, value⟩ := entry
    by_cases same : other = key
    · simp only [replaceField?, same, if_true, Option.some.injEq] at replaced
      subst replaced
      exact List.lookup_cons_self
    · simp only [replaceField?, same, if_false, Option.map_eq_some_iff] at replaced
      obtain ⟨behind, replaced, rfl⟩ := replaced
      rw [List.lookup_cons, beq_false_of_ne (Ne.symm same)]
      exact ih replaced

theorem lookup_insertField : (insertField fields key new).lookup key = some new := by
  unfold insertField
  cases replaced : replaceField? fields key new with
  | some changed => exact lookup_of_replaceField? replaced
  | none =>
    have missing : fields.lookup key = none := by
      cases known : fields.lookup key with
      | none => rfl
      | some old =>
        obtain ⟨changed, found⟩ := exists_replaceField? known new
        rw [replaced] at found
        cases found
    simp [List.lookup_append, missing]

theorem exists_setField {value : Value} (found : value.field key = .ok old) (new : Value) :
    ∃ changed, value.setField key new = .ok changed := by
  cases value with
  | record type fields =>
    cases known : fields.lookup key with
    | none => simp [field, known] at found
    | some old =>
      obtain ⟨changed, replaced⟩ := exists_replaceField? known new
      exact ⟨record type changed, by simp [setField, replaced]⟩
  | _ => cases found

theorem field_of_setField {value changed : Value}
    (changes : value.setField key new = .ok changed) : changed.field key = .ok new := by
  cases value with
  | record type fields =>
    cases replaced : replaceField? fields key new with
    | none => simp [setField, replaced] at changes
    | some others =>
      simp only [setField, replaced, Except.ok.injEq] at changes
      subst changes
      simp [field, lookup_of_replaceField? replaced]
  | _ => cases changes

end Value

/-! ## Objects -/

namespace HeapObject

variable {object changed : HeapObject} {key : Token} {default old new : Value}

theorem exists_setField (found : object.field key default = .ok old) (new : Value) :
    ∃ changed, object.setField key new = .ok changed := by
  cases object with
  | object type fields => exact ⟨_, rfl⟩
  | boxed type value =>
    obtain ⟨changed, changes⟩ := Value.exists_setField found new
    exact ⟨boxed type changed, by simp [setField, changes, bind, Except.bind, pure, Except.pure]⟩
  | _ => cases found

theorem field_of_setField (changes : object.setField key new = .ok changed) :
    changed.field key default = .ok new := by
  cases object with
  | object type fields =>
    cases changes
    simp [field, Value.lookup_insertField]
  | boxed type value =>
    obtain ⟨inside, insideChanges, made⟩ := except_bind_eq_ok.mp changes
    cases made
    exact Value.field_of_setField insideChanges
  | _ => cases changes

end HeapObject

namespace Heap

variable {heap : Heap} {reference : HeapRef} {object changed : HeapObject}

theorem get_eq_ok : heap.get reference = .ok object ↔ heap.object? reference = some object := by
  unfold Heap.get
  cases heap.object? reference <;> simp

theorem get_put (live : heap.get reference = .ok object) :
    (heap.put reference changed).get reference = .ok changed := by
  rw [get_eq_ok] at live ⊢
  obtain ⟨id⟩ := reference
  cases id with
  | zero => cases live
  | succ index =>
    obtain ⟨inside, _⟩ := Array.getElem?_eq_some_iff.mp live
    simp [object?, put, inside]

theorem get_put_of_lt {other : HeapRef} (apart : reference.id < other.id)
    (live : heap.get reference = .ok object) :
    (heap.put other changed).get reference = .ok object := by
  rw [get_eq_ok] at live ⊢
  obtain ⟨id⟩ := reference
  cases id with
  | zero => cases live
  | succ index =>
    have indexNe : other.id - 1 ≠ index := by
      simp only at apart
      omega
    simp only [object?, put] at live ⊢
    simp [indexNe, live]

theorem id_le_count (live : heap.get reference = .ok object) : reference.id ≤ heap.count := by
  rw [get_eq_ok] at live
  obtain ⟨id⟩ := reference
  cases id with
  | zero => cases live
  | succ index => exact (Array.getElem?_eq_some_iff.mp live).1

theorem get_push (live : heap.get reference = .ok object) :
    Heap.get { heap with objects := heap.objects.push changed } reference = .ok object := by
  rw [get_eq_ok] at live ⊢
  obtain ⟨id⟩ := reference
  cases id with
  | zero => cases live
  | succ index =>
    obtain ⟨inside, found⟩ := Array.getElem?_eq_some_iff.mp live
    simp [object?, Array.getElem?_push_lt inside, found]

theorem element_eq_ok {index : Nat} {held? : Option Value} :
    heap.element reference index = .ok held? ↔
      ∃ type elements, heap.get reference = .ok (.array type elements) ∧
        elements[index]? = held? := by
  unfold element
  constructor
  · intro known
    obtain ⟨object, live, rest⟩ := except_bind_eq_ok.mp known
    obtain ⟨elements, isArray, held⟩ := except_bind_eq_ok.mp rest
    cases object with
    | array type elements =>
      cases isArray
      exact ⟨type, elements, live, Except.ok.inj held⟩
    | _ => cases isArray
  · rintro ⟨type, elements, live, rfl⟩
    rw [live]
    rfl

theorem unbox_eq_ok {type : Token} {value : Value} :
    heap.unbox reference = .ok (type, value) ↔ heap.get reference = .ok (.boxed type value) := by
  unfold unbox
  constructor
  · intro known
    obtain ⟨object, live, isBoxed⟩ := except_bind_eq_ok.mp known
    cases object with
    | boxed boxedType inside =>
      cases isBoxed
      exact live
    | _ => cases isBoxed
  · intro live
    rw [live]
    rfl

theorem allocate_eq_ok {after : Heap} :
    Heap.allocate object heap = .ok reference after ↔
      ¬ (heap.limit ≠ 0 ∧ heap.limit ≤ heap.count) ∧ reference = ⟨heap.count + 1⟩ ∧
        after = { heap with objects := heap.objects.push object } := by
  unfold Heap.allocate
  simp only [bind_eq_ok, Stateful.get_eq_ok]
  constructor
  · rintro ⟨_, _, ⟨rfl, rfl⟩, ran⟩
    split at ran
    · cases ran
    · rename_i room
      cases ran
      exact ⟨room, rfl, rfl⟩
  · rintro ⟨room, rfl, rfl⟩
    refine ⟨_, _, ⟨rfl, rfl⟩, ?_⟩
    rw [if_neg room]
    rfl

theorem allocate_of_full (full : heap.limit ≠ 0 ∧ heap.limit ≤ heap.count) (object : HeapObject) :
    Heap.allocate object heap = .error (.notSupported (.heapFull heap.limit)) heap := by
  rw [Heap.allocate, get_bind_run, if_pos full]
  rfl

theorem update_eq_ok {change : HeapObject → Except Error HeapObject} {after : Heap} :
    Heap.update reference change heap = .ok ⟨⟩ after ↔
      ∃ object changed, heap.get reference = .ok object ∧ change object = .ok changed ∧
        after = heap.put reference changed := by
  unfold Heap.update
  simp only [bind_eq_ok, Stateful.get_eq_ok, ofExcept_eq_ok, modify_eq_ok]
  constructor
  · rintro ⟨_, _, ⟨rfl, rfl⟩, object, _, ⟨live, rfl⟩, changed, _, ⟨changes, rfl⟩, rfl⟩
    exact ⟨object, changed, live, changes, rfl⟩
  · rintro ⟨object, changed, live, changes, rfl⟩
    exact ⟨_, _, ⟨rfl, rfl⟩, object, _, ⟨live, rfl⟩, changed, _, ⟨changes, rfl⟩, rfl⟩

theorem setElement_eq_ok {index : Nat} {new : Value} {after : Heap} :
    Heap.setElement reference index new heap = .ok true after ↔
      ∃ type elements, heap.get reference = .ok (.array type elements) ∧
        index < elements.size ∧
        after = heap.put reference (.array type (elements.set! index new)) := by
  unfold Heap.setElement
  simp only [bind_eq_ok, Stateful.get_eq_ok, ofExcept_eq_ok]
  constructor
  · rintro ⟨_, _, ⟨rfl, rfl⟩, object, _, ⟨live, rfl⟩, changed?, _, ⟨changes, rfl⟩, answered⟩
    cases object with
    | array type elements =>
      by_cases inside : index < elements.size
      · simp only [HeapObject.setElement, inside, if_true, Except.ok.injEq] at changes
        subst changes
        cases answered
        exact ⟨type, elements, live, inside, rfl⟩
      · simp only [HeapObject.setElement, inside, if_false, Except.ok.injEq] at changes
        subst changes
        cases answered
    | _ => cases changes
  · rintro ⟨type, elements, live, inside, rfl⟩
    have changes : (HeapObject.array type elements).setElement index new =
        .ok (some (.array type (elements.set! index new))) := if_pos inside
    exact ⟨_, _, ⟨rfl, rfl⟩, _, _, ⟨live, rfl⟩, _, _, ⟨changes, rfl⟩, rfl⟩

end Heap

/-! ## Reading -/

/-- What a location holds. -/
inductive Machine.Holds (module : Module) (machine : Machine) : Pointer → Value → Prop
  | localSlot {frame index : Nat} {value : Value}
      (found : machine.frames[frame]?.bind (·.locals[index]?) = some value) :
      Holds module machine (.localSlot frame index) value
  | argument {frame index : Nat} {value : Value}
      (found : machine.frames[frame]?.bind (·.arguments[index]?) = some value) :
      Holds module machine (.argument frame index) value
  | element {array : HeapRef} {index : Nat} {type : TypeSig} {elements : Array Value}
      {value : Value} (live : machine.heap.get array = .ok (.array type elements))
      (found : elements[index]? = some value) :
      Holds module machine (.element array index) value
  | objectField {object : HeapRef} {field : Token} {zero value : Value} {found : HeapObject}
      (zeroOf : module.zeroOfField field = .ok zero) (live : machine.heap.get object = .ok found)
      (held : found.field field zero = .ok value) :
      Holds module machine (.objectField object field) value
  | staticField {field : Token} {value : Value} (found : machine.static? field = some value) :
      Holds module machine (.staticField field) value
  | untouched {field : Token} {value : Value} (missing : machine.static? field = none)
      (zeroOf : module.zeroOfField field = .ok value) :
      Holds module machine (.staticField field) value
  | boxed {object : HeapRef} {type : Token} {value : Value}
      (live : machine.heap.get object = .ok (.boxed type value)) :
      Holds module machine (.boxed object) value
  | valueField {parent : Pointer} {field : Token} {whole value : Value}
      (holds : Holds module machine parent whole) (held : whole.field field = .ok value) :
      Holds module machine (.valueField parent field) value

namespace Exec

variable {context : Context} {machine final : Machine} {pointer : Pointer} {value : Value}

theorem holds_of_load (ran : load pointer context machine = .ok value final) :
    machine.Holds context.module pointer value ∧ final = machine := by
  induction pointer generalizing value final with
  | localSlot frame index =>
    unfold load at ran
    rw [bind_of_ok get_run] at ran
    cases found : machine.frames[frame]?.bind (·.locals[index]?) with
    | some held =>
      rw [found] at ran
      cases ran
      exact ⟨.localSlot found, rfl⟩
    | none =>
      rw [found] at ran
      cases ran
  | argument frame index =>
    unfold load at ran
    rw [bind_of_ok get_run] at ran
    cases found : machine.frames[frame]?.bind (·.arguments[index]?) with
    | some held =>
      rw [found] at ran
      cases ran
      exact ⟨.argument found, rfl⟩
    | none =>
      rw [found] at ran
      cases ran
  | element array index =>
    unfold load at ran
    obtain ⟨held?, _, read, answered⟩ := bind_ok_iff.mp ran
    obtain ⟨known, rfl⟩ := readHeap_ok_iff.mp read
    obtain ⟨type, elements, live, rfl⟩ := Heap.element_eq_ok.mp known
    cases found : elements[index]? with
    | some held =>
      rw [found] at answered
      cases answered
      exact ⟨.element live found, rfl⟩
    | none =>
      rw [found] at answered
      exact absurd answered raise_ne_ok
  | objectField object field =>
    obtain ⟨_, _, isModule, ran⟩ := bind_ok_iff.mp ran
    cases isModule
    obtain ⟨zero, _, given, read⟩ := bind_ok_iff.mp ran
    obtain ⟨zeroOf, rfl⟩ := ofExcept_ok_iff.mp given
    obtain ⟨known, rfl⟩ := readHeap_ok_iff.mp read
    obtain ⟨found, live, held⟩ := except_bind_eq_ok.mp known
    exact ⟨.objectField zeroOf live held, rfl⟩
  | staticField field =>
    unfold load loadStatic at ran
    rw [bind_of_ok get_run] at ran
    cases found : machine.static? field with
    | some held =>
      rw [found] at ran
      cases ran
      exact ⟨.staticField found, rfl⟩
    | none =>
      rw [found] at ran
      obtain ⟨_, _, isModule, ran⟩ := bind_ok_iff.mp ran
      cases isModule
      obtain ⟨zeroOf, rfl⟩ := ofExcept_ok_iff.mp ran
      exact ⟨.untouched found zeroOf, rfl⟩
  | boxed object =>
    obtain ⟨⟨type, held⟩, _, read, answered⟩ := bind_ok_iff.mp ran
    obtain ⟨known, rfl⟩ := readHeap_ok_iff.mp read
    cases answered
    exact ⟨.boxed (Heap.unbox_eq_ok.mp known), rfl⟩
  | valueField parent field ih =>
    obtain ⟨whole, _, read, given⟩ := bind_ok_iff.mp ran
    obtain ⟨holds, rfl⟩ := ih read
    obtain ⟨held, rfl⟩ := ofExcept_ok_iff.mp given
    exact ⟨.valueField holds held, rfl⟩

theorem load_of_holds (holds : machine.Holds context.module pointer value) :
    load pointer context machine = .ok value machine := by
  induction holds with
  | localSlot found =>
    unfold load
    rw [bind_of_ok get_run, found]
    rfl
  | argument found =>
    unfold load
    rw [bind_of_ok get_run, found]
    rfl
  | element live found =>
    unfold load
    rw [bind_of_ok (readHeap_of_ok (Heap.element_eq_ok.mpr ⟨_, _, live, found⟩))]
    rfl
  | objectField zeroOf live held =>
    exact bind_ok_iff.mpr ⟨_, _, module_run, bind_ok_iff.mpr ⟨_, _,
      ofExcept_ok_iff.mpr ⟨zeroOf, rfl⟩,
      readHeap_of_ok (except_bind_eq_ok.mpr ⟨_, live, held⟩)⟩⟩
  | staticField found =>
    unfold load loadStatic
    rw [bind_of_ok get_run, found]
    rfl
  | untouched missing zeroOf =>
    unfold load loadStatic
    rw [bind_of_ok get_run, missing]
    exact bind_ok_iff.mpr ⟨_, _, module_run, ofExcept_ok_iff.mpr ⟨zeroOf, rfl⟩⟩
  | boxed live =>
    unfold load
    rw [bind_of_ok (readHeap_of_ok (Heap.unbox_eq_ok.mpr live))]
    rfl
  | valueField _ held ih => exact bind_ok_iff.mpr ⟨_, _, ih, ofExcept_ok_iff.mpr ⟨held, rfl⟩⟩

end Exec

/-! ## Writing -/

/-- What a write makes of a machine. -/
inductive Machine.Stores (module : Module) (machine : Machine) :
    Pointer → Value → Machine → Prop
  | localSlot {frame index : Nat} {value : Value}
      (present : (machine.frames[frame]?.bind (·.locals[index]?)).isSome) :
      Stores module machine (.localSlot frame index) value
        { machine with
          frames := machine.frames.modify frame fun slots =>
            { slots with locals := slots.locals.set! index value } }
  | argument {frame index : Nat} {value : Value}
      (present : (machine.frames[frame]?.bind (·.arguments[index]?)).isSome) :
      Stores module machine (.argument frame index) value
        { machine with
          frames := machine.frames.modify frame fun slots =>
            { slots with arguments := slots.arguments.set! index value } }
  | element {array : HeapRef} {index : Nat} {type : TypeSig} {elements : Array Value}
      {value : Value} (live : machine.heap.get array = .ok (.array type elements))
      (inside : index < elements.size) :
      Stores module machine (.element array index) value
        { machine with
          heap := machine.heap.put array (.array type (elements.set! index value)) }
  | objectField {object : HeapRef} {field : Token} {value : Value} {found changed : HeapObject}
      (live : machine.heap.get object = .ok found)
      (changes : found.setField field value = .ok changed) :
      Stores module machine (.objectField object field) value
        { machine with heap := machine.heap.put object changed }
  | staticField {field : Token} {value : Value} :
      Stores module machine (.staticField field) value (machine.setStatic field value)
  | boxed {object : HeapRef} {type : Token} {old value : Value}
      (live : machine.heap.get object = .ok (.boxed type old)) :
      Stores module machine (.boxed object) value
        { machine with heap := machine.heap.put object (.boxed type value) }
  | valueField {parent : Pointer} {field : Token} {whole changed value : Value}
      {final : Machine} (holds : machine.Holds module parent whole)
      (changes : whole.setField field value = .ok changed)
      (stores : Stores module machine parent changed final) :
      Stores module machine (.valueField parent field) value final

namespace Exec

variable {context : Context} {machine final : Machine} {pointer : Pointer} {value : Value}

theorem stores_of_store (ran : store pointer value context machine = .ok ⟨⟩ final) :
    machine.Stores context.module pointer value final := by
  induction pointer generalizing value final with
  | localSlot frame index =>
    unfold store at ran
    rw [bind_of_ok get_run] at ran
    by_cases present : (machine.frames[frame]?.bind (·.locals[index]?)).isSome
    · rw [if_pos present] at ran
      cases ran
      exact .localSlot present
    · rw [if_neg present] at ran
      cases ran
  | argument frame index =>
    unfold store at ran
    rw [bind_of_ok get_run] at ran
    by_cases present : (machine.frames[frame]?.bind (·.arguments[index]?)).isSome
    · rw [if_pos present] at ran
      cases ran
      exact .argument present
    · rw [if_neg present] at ran
      cases ran
  | element array index =>
    obtain ⟨inRange, _, changes, answered⟩ := bind_ok_iff.mp ran
    cases inRange with
    | true =>
      cases answered
      obtain ⟨heap, set, rfl⟩ := onHeap_ok_iff.mp changes
      obtain ⟨type, elements, live, inside, rfl⟩ := Heap.setElement_eq_ok.mp set
      exact .element live inside
    | false => exact absurd answered raise_ne_ok
  | objectField object field =>
    obtain ⟨heap, updated, rfl⟩ := onHeap_ok_iff.mp ran
    obtain ⟨found, changed, live, changes, rfl⟩ := Heap.update_eq_ok.mp updated
    exact .objectField live changes
  | staticField field =>
    cases ran
    exact .staticField
  | boxed object =>
    obtain ⟨heap, updated, rfl⟩ := onHeap_ok_iff.mp ran
    obtain ⟨found, changed, live, changes, rfl⟩ := Heap.update_eq_ok.mp updated
    cases found with
    | boxed type old =>
      cases changes
      exact .boxed live
    | _ => cases changes
  | valueField parent field ih =>
    obtain ⟨whole, _, read, rest⟩ := bind_ok_iff.mp ran
    obtain ⟨holds, rfl⟩ := holds_of_load read
    obtain ⟨changed, _, given, written⟩ := bind_ok_iff.mp rest
    obtain ⟨changes, rfl⟩ := ofExcept_ok_iff.mp given
    exact .valueField holds changes (ih written)

theorem store_of_stores (stores : machine.Stores context.module pointer value final) :
    store pointer value context machine = .ok ⟨⟩ final := by
  induction stores with
  | localSlot present =>
    unfold store
    rw [bind_of_ok get_run, if_pos present]
    rfl
  | argument present =>
    unfold store
    rw [bind_of_ok get_run, if_pos present]
    rfl
  | element live inside =>
    exact bind_ok_iff.mpr ⟨true, _,
      onHeap_ok_iff.mpr ⟨_, Heap.setElement_eq_ok.mpr ⟨_, _, live, inside, rfl⟩, rfl⟩, rfl⟩
  | objectField live changes =>
    exact onHeap_ok_iff.mpr ⟨_, Heap.update_eq_ok.mpr ⟨_, _, live, changes, rfl⟩, rfl⟩
  | staticField => rfl
  | boxed live =>
    exact onHeap_ok_iff.mpr ⟨_, Heap.update_eq_ok.mpr ⟨_, _, live, rfl, rfl⟩, rfl⟩
  | valueField holds changes _ ih =>
    exact bind_ok_iff.mpr ⟨_, _, load_of_holds holds, bind_ok_iff.mpr ⟨_, _,
      ofExcept_ok_iff.mpr ⟨changes, rfl⟩, ih⟩⟩

end Exec

/-! ## Reading what was written -/

namespace Machine

variable {module : Module} {machine final : Machine} {pointer : Pointer} {old new : Value}

/-- A location that can be read can be written. -/
theorem Holds.exists_stores (holds : machine.Holds module pointer old) (new : Value) :
    ∃ final, machine.Stores module pointer new final := by
  induction holds generalizing new with
  | localSlot found => exact ⟨_, .localSlot (by simp [found])⟩
  | argument found => exact ⟨_, .argument (by simp [found])⟩
  | element live found =>
    exact ⟨_, .element live (Array.getElem?_eq_some_iff.mp found).1⟩
  | objectField _ live held =>
    obtain ⟨changed, changes⟩ := HeapObject.exists_setField held new
    exact ⟨_, .objectField live changes⟩
  | staticField | untouched => exact ⟨_, .staticField⟩
  | boxed live => exact ⟨_, .boxed live⟩
  | valueField holds held ih =>
    obtain ⟨changed, changes⟩ := Value.exists_setField held new
    obtain ⟨final, stores⟩ := ih changed
    exact ⟨final, .valueField holds changes stores⟩

theorem Stores.holds_new (stores : machine.Stores module pointer new final)
    (holds : machine.Holds module pointer old) : final.Holds module pointer new := by
  induction stores generalizing old with
  | localSlot present =>
    obtain ⟨old, found⟩ := Option.isSome_iff_exists.mp present
    obtain ⟨slots, active, place⟩ := Option.bind_eq_some_iff.mp found
    obtain ⟨inside, _⟩ := Array.getElem?_eq_some_iff.mp place
    exact .localSlot (by simp [Array.getElem?_modify, active, inside])
  | argument present =>
    obtain ⟨old, found⟩ := Option.isSome_iff_exists.mp present
    obtain ⟨slots, active, place⟩ := Option.bind_eq_some_iff.mp found
    obtain ⟨inside, _⟩ := Array.getElem?_eq_some_iff.mp place
    exact .argument (by simp [Array.getElem?_modify, active, inside])
  | element live inside =>
    refine .element (Heap.get_put live) ?_
    simp [inside]
  | objectField live changes =>
    cases holds with
    | objectField zeroOf _ _ =>
      exact .objectField zeroOf (Heap.get_put live) (HeapObject.field_of_setField changes)
  | staticField => exact .staticField Value.lookup_insertField
  | boxed live => exact .boxed (Heap.get_put live)
  | valueField parentHolds changes _ ih =>
    exact .valueField (ih parentHolds) (Value.field_of_setField changes)

/-- A machine whose locations hold what those of another one hold. -/
structure Extends (first second : Machine) : Prop where
  frames : second.frames = first.frames
  statics : second.statics = first.statics
  objects : ∀ reference object, first.heap.get reference = .ok object →
    second.heap.get reference = .ok object

theorem Holds.extend {second : Machine} (holds : machine.Holds module pointer old)
    (extension : machine.Extends second) : second.Holds module pointer old := by
  induction holds with
  | localSlot found => exact .localSlot (by rw [extension.frames, found])
  | argument found => exact .argument (by rw [extension.frames, found])
  | element live found => exact .element (extension.objects _ _ live) found
  | objectField zeroOf live held => exact .objectField zeroOf (extension.objects _ _ live) held
  | staticField found => exact .staticField (by rw [static?, extension.statics, ← static?, found])
  | untouched missing zeroOf =>
    exact .untouched (by rw [static?, extension.statics, ← static?, missing]) zeroOf
  | boxed live => exact .boxed (extension.objects _ _ live)
  | valueField _ held ih => exact .valueField ih held

/-- Isolation runs do not matter to a write. -/
theorem Stores.withRuns (stores : machine.Stores module pointer new final)
    (runs : Array (Option IsolationRun)) :
    Stores module { machine with runs } pointer new { final with runs } := by
  induction stores with
  | localSlot present => exact .localSlot present
  | argument present => exact .argument present
  | element live inside => exact .element live inside
  | objectField live changes => exact .objectField live changes
  | staticField => exact .staticField
  | boxed live => exact .boxed live
  | valueField holds changes _ ih =>
    exact .valueField (holds.extend ⟨rfl, rfl, fun _ _ live => live⟩) changes ih

/-! ## Parts of a location -/

theorem extends_push (machine : Machine) (object : HeapObject) :
    machine.Extends
      { machine with
        heap := { machine.heap with objects := machine.heap.objects.push object } } where
  frames := rfl
  statics := rfl
  objects := fun _ _ live => Heap.get_push live

/-- What is written into a new box is in no location's way. -/
theorem Extends.store_fresh {middle : Machine} {reference : HeapRef}
    (extension : machine.Extends middle) (fresh : machine.heap.count < reference.id)
    (stores : middle.Stores module (.boxed reference) new final) : machine.Extends final := by
  cases stores with
  | boxed _ =>
    refine ⟨extension.frames, extension.statics, fun other object live => ?_⟩
    have older : other.id < reference.id := Nat.lt_of_le_of_lt (Heap.id_le_count live) fresh
    exact Heap.get_put_of_lt older (extension.objects _ _ live)

end Machine

/-- The location of a field of a field, and so on, inside the value at a location. -/
def Pointer.through (pointer : Pointer) (path : List Token) : Pointer :=
  path.foldl .valueField pointer

namespace Machine

variable {module : Module} {machine final : Machine} {pointer : Pointer} {value : Value}

theorem Holds.whole {path : List Token}
    (holds : machine.Holds module (pointer.through path) value) :
    ∃ whole, machine.Holds module pointer whole := by
  induction path generalizing pointer with
  | nil => exact ⟨value, holds⟩
  | cons field path ih =>
    obtain ⟨part, partHolds⟩ := ih holds
    cases partHolds with
    | valueField holds _ => exact ⟨_, holds⟩

/-- To write a part of a location, the whole of it is read. -/
theorem Stores.whole {path : List Token}
    (stores : machine.Stores module (pointer.through path) value final) :
    (∃ whole, machine.Holds module pointer whole) ∨
      path = [] ∧ machine.Stores module pointer value final := by
  induction path generalizing pointer with
  | nil => exact .inr ⟨rfl, stores⟩
  | cons field path ih =>
    rcases ih stores with ⟨part, partHolds⟩ | ⟨_, partStores⟩
    · cases partHolds with
      | valueField holds _ => exact .inl ⟨_, holds⟩
    · cases partStores with
      | valueField holds _ _ => exact .inl ⟨_, holds⟩

end Machine

end Cil
