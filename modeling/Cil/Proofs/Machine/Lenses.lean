import Cil.Proofs.Machine.Locations

/-!
# Pointers as lenses

Reading through a pointer gives what was last written through it, writing back what was read
changes nothing that can be read, and a write changes what is read only through pointers that
start at the same location.  A pointer into a value reaches the location at which its path
starts, so all of this is proved for such starts and carried along the path.  A write that fails
may leave a new exception on the heap, which is in no location's way.
-/

namespace Cil

open Stateful
open MonadExcept (ofExcept)

/-! ## Fields that are left alone -/

namespace Value

variable {fields changed : List (Token × Value)} {key other : Token} {old new : Value}

theorem lookup_replaceField?_of_ne (replaced : replaceField? fields key new = some changed)
    (apart : other ≠ key) : changed.lookup other = fields.lookup other := by
  induction fields generalizing changed with
  | nil => cases replaced
  | cons entry rest ih =>
    obtain ⟨first, value⟩ := entry
    by_cases same : first = key
    · simp only [replaceField?, same, if_true, Option.some.injEq] at replaced
      subst replaced same
      rw [List.lookup_cons, List.lookup_cons, beq_false_of_ne apart]
    · simp only [replaceField?, same, if_false, Option.map_eq_some_iff] at replaced
      obtain ⟨behind, replaced, rfl⟩ := replaced
      rw [List.lookup_cons, List.lookup_cons, ih replaced]

theorem lookup_insertField_of_ne (apart : other ≠ key) :
    (insertField fields key new).lookup other = fields.lookup other := by
  unfold insertField
  cases replaced : replaceField? fields key new with
  | some changed => exact lookup_replaceField?_of_ne replaced apart
  | none =>
    have absent : [(key, new)].lookup other = none := by
      rw [List.lookup_cons, beq_false_of_ne apart]
      rfl
    rw [Option.getD_none, List.lookup_append, absent, Option.or_none]

theorem replaceField?_self (found : fields.lookup key = some old) :
    replaceField? fields key old = some fields := by
  induction fields with
  | nil => cases found
  | cons entry rest ih =>
    obtain ⟨first, value⟩ := entry
    by_cases same : first = key
    · subst same
      rw [List.lookup_cons_self] at found
      cases found
      simp [replaceField?]
    · rw [List.lookup_cons, beq_false_of_ne (Ne.symm same)] at found
      simp [replaceField?, same, ih found]

theorem setField_self {value : Value} (found : value.field key = .ok old) :
    value.setField key old = .ok value := by
  cases value with
  | record type fields =>
    cases known : fields.lookup key with
    | none => simp [field, known] at found
    | some held =>
      simp only [field, known, Except.ok.injEq] at found
      subst found
      simp [setField, replaceField?_self known]
  | _ => cases found

end Value

theorem set!_of_getElem? {α : Type} {items : Array α} {index : Nat} {item : α}
    (found : items[index]? = some item) : items.set! index item = items := by
  obtain ⟨inside, rfl⟩ := Array.getElem?_eq_some_iff.mp found
  rw [Array.set!_eq_setIfInBounds, Array.setIfInBounds, dif_pos inside, Array.set_getElem_self]

/-! ## Locations -/

/-- Where the path of a pointer starts: a slot of a frame, an array element, a static field or an
object, be it one with fields or a box. -/
inductive Location
  | localSlot (frame index : Nat)
  | argument (frame index : Nat)
  | element (array : HeapRef) (index : Nat)
  | staticField (field : Token)
  | object (reference : HeapRef)
deriving DecidableEq, Repr

namespace Pointer

def location : Pointer → Location
  | localSlot frame index => .localSlot frame index
  | argument frame index => .argument frame index
  | element array index => .element array index
  | objectField object _ | boxed object => .object object
  | staticField field => .staticField field
  | valueField parent _ => parent.location

/-- The object that the path starts in, if it starts on the heap. -/
def object? : Pointer → Option HeapRef
  | element array _ => some array
  | objectField object _ | boxed object => some object
  | localSlot .. | argument .. | staticField _ | valueField .. => none

theorem location_root (pointer : Pointer) : pointer.root.location = pointer.location := by
  induction pointer with
  | valueField parent field ih => exact ih
  | _ => rfl

theorem root_root (pointer : Pointer) : pointer.root.root = pointer.root := by
  induction pointer with
  | valueField parent field ih => exact ih
  | _ => rfl

theorem root_ne_valueField (parent : Pointer) (field : Token) (pointer : Pointer) :
    pointer.root ≠ valueField parent field := by
  induction pointer with
  | valueField other otherField ih => exact ih
  | _ => exact nofun

end Pointer

/-- Whether a location is one of a machine: one on the heap lies in an object. -/
def Location.LiesIn (machine : Machine) : Location → Prop
  | element reference _ | object reference => ∃ object, machine.heap.get reference = .ok object
  | localSlot .. | argument .. | staticField _ => True

/-- What an object gives to a pointer that starts in it. -/
def HeapObject.Gives (module : Module) (object : HeapObject) (pointer : Pointer)
    (value : Value) : Prop :=
  match pointer with
  | .element _ index => ∃ type elements, object = .array type elements ∧
      elements[index]? = some value
  | .objectField _ field => ∃ zero, module.zeroOfField field = .ok zero ∧
      object.field field zero = .ok value
  | .boxed _ => ∃ type, object = .boxed type value
  | _ => False

namespace HeapObject

variable {module : Module} {object changed : HeapObject} {field : Token} {value new : Value}

theorem gives_element_iff {type : TypeSig} {elements : Array Value} {reference : HeapRef}
    {index : Nat} :
    (array type elements).Gives module (.element reference index) value ↔
      elements[index]? = some value :=
  ⟨fun ⟨_, _, same, found⟩ => by cases same; exact found, fun found => ⟨_, _, rfl, found⟩⟩

/-- Objects with fields have no elements. -/
theorem not_gives_element_of_setField {reference : HeapRef} {index : Nat}
    (changes : object.setField field new = .ok changed) :
    ¬object.Gives module (.element reference index) value ∧
      ¬changed.Gives module (.element reference index) value := by
  cases object with
  | object type fields =>
    cases changes
    exact ⟨nofun, nofun⟩
  | boxed type inside =>
    obtain ⟨_, _, made⟩ := except_bind_eq_ok.mp changes
    cases made
    exact ⟨nofun, nofun⟩
  | _ => cases changes

/-- To give a field the value that it has, or stands for if it is missing, changes nothing that
the object gives. -/
theorem gives_setField_iff {zero : Value} {pointer : Pointer}
    (zeroOf : module.zeroOfField field = .ok zero) (held : object.field field zero = .ok value)
    (changes : object.setField field value = .ok changed) :
    changed.Gives module pointer new ↔ object.Gives module pointer new := by
  cases object with
  | object type fields =>
    cases pointer with
    | objectField _ other =>
      cases changes
      refine exists_congr fun otherZero => and_congr_right fun otherZeroOf => ?_
      by_cases same : other = field
      · subst same
        cases zeroOf.symm.trans otherZeroOf
        rw [held, HeapObject.field, Value.lookup_insertField, Option.getD_some]
      · rw [HeapObject.field, HeapObject.field, Value.lookup_insertField_of_ne same]
    | element =>
      obtain ⟨before, after⟩ := not_gives_element_of_setField changes
      exact iff_of_false after before
    | boxed =>
      cases changes
      refine exists_congr fun _ => iff_of_false ?_ ?_
      · rintro ⟨⟩
      · rintro ⟨⟩
    | _ => exact Iff.rfl
  | boxed type inside =>
    obtain ⟨same, unchanged, made⟩ := except_bind_eq_ok.mp changes
    rw [Value.setField_self held] at unchanged
    cases unchanged
    cases made
    exact Iff.rfl
  | _ => cases changes

end HeapObject

theorem Heap.get_put_of_ne {heap : Heap} {reference other : HeapRef} {object changed : HeapObject}
    (live : heap.get other = .ok object) (apart : reference ≠ other) :
    (heap.put other changed).get reference = heap.get reference := by
  have positive : other.id ≠ 0 := fun zero => by
    rw [get_eq_ok, object?, zero] at live
    cases live
  obtain ⟨otherId⟩ := other
  obtain ⟨id⟩ := reference
  cases id with
  | zero => rfl
  | succ index =>
    have elsewhere : otherId - 1 ≠ index := fun same =>
      apart (congrArg HeapRef.mk (by rw [← same, Nat.sub_add_cancel (Nat.pos_of_ne_zero positive)]))
    simp only [Heap.get, object?, put, Array.set!_eq_setIfInBounds,
      Array.getElem?_setIfInBounds_ne elsewhere]

namespace Machine

variable {module : Module} {machine final second : Machine} {pointer other : Pointer}
  {value old new : Value}

/-! ## What a location holds, by its kind -/

theorem holds_localSlot_iff {frame index : Nat} :
    machine.Holds module (.localSlot frame index) value ↔
      machine.frames[frame]?.bind (·.locals[index]?) = some value :=
  ⟨fun | .localSlot found => found, .localSlot⟩

theorem holds_argument_iff {frame index : Nat} :
    machine.Holds module (.argument frame index) value ↔
      machine.frames[frame]?.bind (·.arguments[index]?) = some value :=
  ⟨fun | .argument found => found, .argument⟩

theorem holds_staticField_iff {field : Token} :
    machine.Holds module (.staticField field) value ↔
      machine.static? field = some value ∨
        machine.static? field = none ∧ module.zeroOfField field = .ok value :=
  ⟨fun
    | .staticField found => .inl found
    | .untouched missing zeroOf => .inr ⟨missing, zeroOf⟩,
    fun | .inl found => .staticField found | .inr ⟨missing, zeroOf⟩ => .untouched missing zeroOf⟩

theorem holds_object_iff {reference : HeapRef} (starts : pointer.object? = some reference) :
    machine.Holds module pointer value ↔
      ∃ object, machine.heap.get reference = .ok object ∧ object.Gives module pointer value := by
  cases pointer with
  | element array index =>
    cases starts
    exact ⟨fun | .element live found => ⟨_, live, _, _, rfl, found⟩,
      fun ⟨_, live, _, _, isArray, found⟩ => .element (isArray ▸ live) found⟩
  | objectField object field =>
    cases starts
    exact ⟨fun | .objectField zeroOf live held => ⟨_, live, _, zeroOf, held⟩,
      fun ⟨_, live, _, zeroOf, held⟩ => .objectField zeroOf live held⟩
  | boxed object =>
    cases starts
    exact ⟨fun | .boxed live => ⟨_, live, _, rfl⟩,
      fun ⟨_, live, _, isBoxed⟩ => .boxed (isBoxed ▸ live)⟩
  | _ => cases starts

theorem holds_valueField_iff {field : Token} :
    machine.Holds module (.valueField pointer field) value ↔
      ∃ whole, machine.Holds module pointer whole ∧ whole.field field = .ok value :=
  ⟨fun | .valueField holds held => ⟨_, holds, held⟩, fun ⟨_, holds, held⟩ => .valueField holds held⟩

/-- Where the starts of two paths hold the same, the paths lead to the same. -/
theorem holds_iff_of_root (same : ∀ whole,
      second.Holds module pointer.root whole ↔ machine.Holds module pointer.root whole) :
    second.Holds module pointer value ↔ machine.Holds module pointer value := by
  induction pointer generalizing value with
  | valueField parent field ih =>
    rw [holds_valueField_iff, holds_valueField_iff]
    exact exists_congr fun whole => and_congr_left fun _ => ih same
  | _ => exact same value

theorem Holds.unique (holds : machine.Holds module pointer old)
    (again : machine.Holds module pointer new) : old = new := by
  have first : Exec.load pointer ⟨module, machine.limits⟩ machine = .ok old machine :=
    Exec.load_of_holds holds
  have second : Exec.load pointer ⟨module, machine.limits⟩ machine = .ok new machine :=
    Exec.load_of_holds again
  rw [first] at second
  cases second
  rfl

/-- A write through a pointer writes where its path starts. -/
theorem Stores.root (stores : machine.Stores module pointer new final) :
    ∃ whole, machine.Stores module pointer.root whole final := by
  induction stores with
  | localSlot present => exact ⟨_, .localSlot present⟩
  | argument present => exact ⟨_, .argument present⟩
  | element live inside => exact ⟨_, .element live inside⟩
  | objectField live changes => exact ⟨_, .objectField live changes⟩
  | staticField => exact ⟨_, .staticField⟩
  | boxed live => exact ⟨_, .boxed live⟩
  | valueField holds changes _ ih => exact ih

/-! ## What a change leaves alone -/

/-- A change of an object matters to pointers that start in it and get something else from it. -/
theorem holds_put_iff {reference : HeapRef} {object changed : HeapObject}
    (live : machine.heap.get reference = .ok object) (isRoot : pointer.root = pointer)
    (same : pointer.object? = some reference →
      (changed.Gives module pointer value ↔ object.Gives module pointer value)) :
    Holds module { machine with heap := machine.heap.put reference changed } pointer value ↔
      machine.Holds module pointer value := by
  cases starts : pointer.object? with
  | some start =>
    rw [holds_object_iff starts, holds_object_iff starts]
    by_cases here : start = reference
    · subst here
      simp only [Heap.get_put live, live, Except.ok.injEq, exists_eq_left', same starts]
    · simp only [Heap.get_put_of_ne live here]
  | none =>
    cases pointer with
    | localSlot => rw [holds_localSlot_iff, holds_localSlot_iff]
    | argument => rw [holds_argument_iff, holds_argument_iff]
    | staticField =>
      rw [holds_staticField_iff, holds_staticField_iff]
      exact Iff.rfl
    | valueField parent field => exact absurd isRoot (Pointer.root_ne_valueField parent field _)
    | _ => cases starts

/-- A change of the slots of a frame matters to pointers to slots that it changes. -/
theorem holds_modify_iff {frame : Nat} {change : Frame → Frame} (isRoot : pointer.root = pointer)
    (same : ∀ slots, machine.frames[frame]? = some slots → ∀ index,
      (pointer = .localSlot frame index →
        (change slots).locals[index]? = slots.locals[index]?) ∧
      (pointer = .argument frame index →
        (change slots).arguments[index]? = slots.arguments[index]?)) :
    Holds module { machine with frames := machine.frames.modify frame change } pointer value ↔
      machine.Holds module pointer value := by
  have reads (place : Nat) (read : Frame → Option Value)
      (alike : ∀ slots, machine.frames[frame]? = some slots → place = frame →
        read (change slots) = read slots) :
      (machine.frames.modify frame change)[place]?.bind read =
        machine.frames[place]?.bind read := by
    rw [Array.getElem?_modify]
    by_cases here : frame = place
    · subst here
      cases active : machine.frames[frame]? with
      | none => simp
      | some slots => simp [alike slots active rfl]
    · rw [if_neg here]
  cases pointer with
  | localSlot place index =>
    rw [holds_localSlot_iff, holds_localSlot_iff, reads place (·.locals[index]?)]
    rintro slots active rfl
    exact (same slots active index).1 rfl
  | argument place index =>
    rw [holds_argument_iff, holds_argument_iff, reads place (·.arguments[index]?)]
    rintro slots active rfl
    exact (same slots active index).2 rfl
  | staticField =>
    rw [holds_staticField_iff, holds_staticField_iff]
    exact Iff.rfl
  | element | objectField | boxed => rw [holds_object_iff rfl, holds_object_iff rfl]
  | valueField parent field => exact absurd isRoot (Pointer.root_ne_valueField parent field _)

/-- A change of a static field matters to pointers to it. -/
theorem holds_setStatic_iff {field : Token} (isRoot : pointer.root = pointer)
    (same : pointer = .staticField field →
      ((machine.setStatic field new).Holds module pointer value ↔
        machine.Holds module pointer value)) :
    (machine.setStatic field new).Holds module pointer value ↔
      machine.Holds module pointer value := by
  cases pointer with
  | localSlot => rw [holds_localSlot_iff, holds_localSlot_iff]; rfl
  | argument => rw [holds_argument_iff, holds_argument_iff]; rfl
  | staticField place =>
    by_cases here : place = field
    · exact same (congrArg _ here)
    · have kept : (machine.setStatic field new).static? place = machine.static? place :=
        Value.lookup_insertField_of_ne here
      rw [holds_staticField_iff, holds_staticField_iff, kept]
  | element | objectField | boxed => rw [holds_object_iff rfl, holds_object_iff rfl]; rfl
  | valueField parent field => exact absurd isRoot (Pointer.root_ne_valueField parent field _)

/-! ## Writes elsewhere -/

/-- A write where a path starts leaves alone what other locations hold. -/
theorem Stores.holds_root_iff (stores : machine.Stores module pointer new final)
    (isRoot : pointer.root = pointer) (otherRoot : other.root = other)
    (apart : other.location ≠ pointer.location) :
    final.Holds module other value ↔ machine.Holds module other value := by
  cases stores with
  | @localSlot frame place =>
    refine holds_modify_iff otherRoot fun slots _ index => ⟨?_, fun _ => rfl⟩
    rintro rfl
    have elsewhere : place ≠ index := fun same => apart (same ▸ rfl)
    simp [elsewhere]
  | @argument frame place =>
    refine holds_modify_iff otherRoot fun slots _ index => ⟨fun _ => rfl, ?_⟩
    rintro rfl
    have elsewhere : place ≠ index := fun same => apart (same ▸ rfl)
    simp [elsewhere]
  | @element array place type elements _ live inside =>
    refine holds_put_iff live otherRoot fun starts => ?_
    cases other with
    | element _ index =>
      cases starts
      have elsewhere : place ≠ index := fun same => apart (same ▸ rfl)
      simp [HeapObject.gives_element_iff, elsewhere]
    | objectField => exact exists_congr fun zero => and_congr_right fun _ => iff_of_false nofun nofun
    | boxed => exact exists_congr fun type => iff_of_false nofun nofun
    | _ => cases starts
  | objectField live changes =>
    refine holds_put_iff live otherRoot fun starts => ?_
    cases other with
    | element =>
      obtain ⟨before, after⟩ := HeapObject.not_gives_element_of_setField changes
      exact iff_of_false after before
    | objectField | boxed =>
      cases starts
      exact absurd rfl apart
    | _ => cases starts
  | staticField => exact holds_setStatic_iff otherRoot fun same => absurd (same ▸ rfl) apart
  | boxed live =>
    refine holds_put_iff live otherRoot fun starts => ?_
    cases other with
    | element => exact iff_of_false nofun nofun
    | objectField | boxed =>
      cases starts
      exact absurd rfl apart
    | _ => cases starts
  | valueField holds changes stores => exact absurd isRoot (Pointer.root_ne_valueField _ _ _)

/-- A write leaves alone what is held at other locations, and in parts of them. -/
theorem Stores.holds_elsewhere_iff (stores : machine.Stores module pointer new final)
    (apart : other.location ≠ pointer.location) :
    final.Holds module other value ↔ machine.Holds module other value := by
  obtain ⟨whole, rootStores⟩ := stores.root
  rw [← other.location_root, ← pointer.location_root] at apart
  exact holds_iff_of_root fun _ =>
    rootStores.holds_root_iff pointer.root_root other.root_root apart

/-! ## Writing back -/

theorem Stores.restores_root (stores : machine.Stores module pointer old final)
    (holds : machine.Holds module pointer old) (isRoot : pointer.root = pointer)
    (otherRoot : other.root = other) :
    final.Holds module other value ↔ machine.Holds module other value := by
  cases stores with
  | localSlot present =>
    refine holds_modify_iff otherRoot fun slots active index => ⟨fun _ => ?_, fun _ => rfl⟩
    rw [holds_localSlot_iff, active, Option.bind_some] at holds
    rw [set!_of_getElem? holds]
  | argument present =>
    refine holds_modify_iff otherRoot fun slots active index => ⟨fun _ => rfl, fun _ => ?_⟩
    rw [holds_argument_iff, active, Option.bind_some] at holds
    rw [set!_of_getElem? holds]
  | element live inside =>
    obtain ⟨object, again, found⟩ := (holds_object_iff rfl).mp holds
    cases live.symm.trans again
    rw [set!_of_getElem? (HeapObject.gives_element_iff.mp found)]
    exact holds_put_iff live otherRoot fun _ => Iff.rfl
  | objectField live changes =>
    obtain ⟨object, again, zero, zeroOf, held⟩ := (holds_object_iff rfl).mp holds
    cases live.symm.trans again
    exact holds_put_iff live otherRoot fun _ => HeapObject.gives_setField_iff zeroOf held changes
  | @staticField field =>
    refine holds_setStatic_iff otherRoot ?_
    rintro rfl
    have written : (machine.setStatic field old).Holds module (.staticField field) old :=
      .staticField Value.lookup_insertField
    exact ⟨fun after => written.unique after ▸ holds, fun before => holds.unique before ▸ written⟩
  | boxed live =>
    obtain ⟨object, again, type, same⟩ := (holds_object_iff rfl).mp holds
    cases live.symm.trans (again.trans (congrArg _ same))
    exact holds_put_iff live otherRoot fun _ => Iff.rfl
  | valueField parentHolds changes stores => exact absurd isRoot (Pointer.root_ne_valueField _ _ _)

/-- To write back what was read changes nothing that a location holds. -/
theorem Stores.restores (stores : machine.Stores module pointer old final)
    (holds : machine.Holds module pointer old) :
    final.Holds module other value ↔ machine.Holds module other value := by
  induction pointer generalizing old with
  | valueField parent field ih =>
    cases stores with
    | valueField parentHolds changes stores =>
      cases holds with
      | valueField whole held =>
        cases parentHolds.unique whole
        rw [Value.setField_self held] at changes
        cases changes
        exact ih stores whole
  | _ => exact holds_iff_of_root fun _ => stores.restores_root holds rfl other.root_root

/-! ## Failures -/

theorem Extends.refl (machine : Machine) : machine.Extends machine :=
  ⟨rfl, rfl, fun _ _ live => live⟩

theorem Extends.trans {first third : Machine} (before : first.Extends second)
    (after : second.Extends third) : first.Extends third :=
  ⟨after.frames.trans before.frames, after.statics.trans before.statics,
    fun _ _ live => after.objects _ _ (before.objects _ _ live)⟩

/-- Objects that are new are in no location's way. -/
theorem Extends.holds_iff (extension : machine.Extends second)
    (lies : pointer.location.LiesIn machine) :
    second.Holds module pointer value ↔ machine.Holds module pointer value := by
  have onHeap {reference : HeapRef} {root : Pointer} (starts : root.object? = some reference)
      (lies : ∃ object, machine.heap.get reference = .ok object) (whole : Value) :
      second.Holds module root whole ↔ machine.Holds module root whole := by
    obtain ⟨object, live⟩ := lies
    rw [holds_object_iff starts, holds_object_iff starts, live, extension.objects _ _ live]
  refine holds_iff_of_root fun whole => ?_
  rw [← Pointer.location_root] at lies
  cases isRoot : pointer.root with
  | localSlot => rw [holds_localSlot_iff, holds_localSlot_iff, extension.frames]
  | argument => rw [holds_argument_iff, holds_argument_iff, extension.frames]
  | staticField =>
    rw [holds_staticField_iff, holds_staticField_iff, static?, extension.statics, ← static?]
  | element | objectField | boxed =>
    rw [isRoot] at lies
    exact onHeap rfl lies whole
  | valueField parent field => exact absurd isRoot (Pointer.root_ne_valueField _ _ _)

end Machine

namespace Exec

variable {α β : Type}

/-- A piece of execution that changes no location: at most it makes new objects. -/
def Allocates (action : Exec α) : Prop :=
  ∀ context start, Keeps (Machine.Extends start) (action context)

namespace Allocates

theorem of_error {action : Exec α} (allocates : Allocates action) {context : Context}
    {machine final : Machine} {error : Error}
    (failed : action context machine = .error error final) : machine.Extends final := by
  have kept := allocates context machine machine (.refl machine)
  rw [failed] at kept
  exact kept

theorem bind {first : Exec α} {next : α → Exec β} (firsts : Allocates first)
    (nexts : ∀ value, Allocates (next value)) : Allocates (first >>= next) :=
  fun context start => (firsts context start).bind fun value => nexts value context start

theorem pure (value : α) : Allocates (pure value) := fun _ _ => .pure value

theorem throw (error : Error) : Allocates (throw error : Exec α) := fun _ _ => .throw error

theorem ofExcept (outcome : Except Error α) :
    Allocates (MonadExcept.ofExcept outcome : Exec α) := by
  cases outcome with
  | ok value => exact .pure value
  | error error => exact .throw error

theorem get : Allocates get := fun _ _ => .get

theorem module : Allocates module := fun _ _ => .pure _

theorem readHeap (query : Heap → Except Error α) : Allocates (readHeap query) :=
  .bind .get fun _ => .ofExcept _

theorem allocate (object : HeapObject) : Allocates (allocate object) := by
  refine .bind (fun context start machine extension => ?_) fun _ => .pure _
  by_cases full : machine.heap.limit ≠ 0 ∧ machine.heap.limit ≤ machine.heap.count
  · rw [onHeap, Heap.allocate_of_full full]
    exact extension
  · rw [onHeap, Heap.allocate_eq_ok.mpr ⟨full, rfl, rfl⟩]
    exact extension.trans (machine.extends_push object)

theorem raise (type : Token) : Allocates (raise type : Exec α) := by
  have instances : Allocates (newObject type) := by
    refine .bind .module fun module => ?_
    split
    · exact .ofExcept _
    · exact .bind (.ofExcept _) fun _ => .allocate _
  refine .bind (.bind instances fun _ => .bind (.ofExcept _) fun exception? => ?_) fun _ => .throw _
  cases exception? with
  | none => exact .throw _
  | some exception => exact .pure exception

theorem load (pointer : Pointer) : Allocates (load pointer) := by
  induction pointer with
  | localSlot frame index =>
    refine .bind .get fun machine => ?_
    split
    · exact .pure _
    · exact .throw _
  | argument frame index =>
    refine .bind .get fun machine => ?_
    split
    · exact .pure _
    · exact .throw _
  | element array index =>
    refine .bind (.readHeap _) fun held? => ?_
    cases held? with
    | some held => exact .pure _
    | none => exact .raise _
  | objectField object field => exact .bind .module fun _ => .bind (.ofExcept _) fun _ => .readHeap _
  | staticField field =>
    refine .bind .get fun machine => ?_
    split
    · exact .pure _
    · exact .bind .module fun _ => .ofExcept _
  | boxed object => exact .bind (.readHeap _) fun _ => .pure _
  | valueField parent field ih => exact .bind ih fun _ => .ofExcept _

end Allocates

end Exec

namespace Heap

variable {heap after : Heap} {reference : HeapRef} {object : HeapObject} {error : Error}

/-- Where an object is not there, or cannot become another one, nothing more is done. -/
theorem refused_bind {α β : Type} {change : HeapObject → Except Error α} {rest : α → HeapM β}
    (failed : heap.get reference >>= change = .error error) :
    (do
      let object ← ofExcept ((← get).get reference)
      let made ← ofExcept (change object)
      rest made : HeapM β) heap = .error error heap := by
  rw [get_bind_run, bind_eq_error]
  obtain missing | ⟨object, live, refused⟩ := except_bind_eq_error.mp failed
  · rw [missing]
    exact .inl rfl
  · refine .inr ⟨object, heap, ofExcept_eq_ok.mpr ⟨live, rfl⟩, bind_eq_error.mpr (.inl ?_)⟩
    rw [refused]
    rfl

theorem made_bind {α β : Type} {change : HeapObject → Except Error α} {rest : α → HeapM β}
    {result : α} (live : heap.get reference = .ok object) (made : change object = .ok result) :
    (do
      let object ← ofExcept ((← get).get reference)
      let made ← ofExcept (change object)
      rest made : HeapM β) heap = rest result heap := by
  rw [get_bind_run, live]
  change (ofExcept (change object) >>= rest) heap = _
  rw [made]
  rfl

/-- Where nothing fails once the object has become another one, a failure leaves the heap alone. -/
theorem eq_of_bind_error {α β : Type} {change : HeapObject → Except Error α} {rest : α → HeapM β}
    (succeeds : ∀ made middle, ∃ result final, rest made middle = .ok result final)
    (failed : (do
      let object ← ofExcept ((← get).get reference)
      let made ← ofExcept (change object)
      rest made : HeapM β) heap = .error error after) : after = heap := by
  cases found : heap.get reference >>= change with
  | error other =>
      rw [refused_bind found] at failed
      cases failed
      rfl
  | ok made =>
      obtain ⟨object, live, changes⟩ := except_bind_eq_ok.mp found
      obtain ⟨result, final, ran⟩ := succeeds made heap
      rw [made_bind live changes, ran] at failed
      cases failed

theorem update_error {change : HeapObject → Except Error HeapObject}
    (failed : Heap.update reference change heap = .error error after) : after = heap :=
  eq_of_bind_error (fun _ _ => ⟨_, _, rfl⟩) failed

/-- An array is left alone if the index is out of its range. -/
theorem setElement_false {index : Nat} {new : Value}
    (refused : Heap.setElement reference index new heap = .ok false after) : after = heap := by
  unfold Heap.setElement at refused
  rw [get_bind_run] at refused
  obtain ⟨object, _, live, refused⟩ := bind_eq_ok.mp refused
  obtain ⟨-, rfl⟩ := ofExcept_eq_ok.mp live
  obtain ⟨changed?, _, fits, refused⟩ := bind_eq_ok.mp refused
  obtain ⟨-, rfl⟩ := ofExcept_eq_ok.mp fits
  cases changed? <;> cases refused
  rfl

theorem setElement_error {index : Nat} {new : Value}
    (failed : Heap.setElement reference index new heap = .error error after) : after = heap := by
  apply eq_of_bind_error _ failed
  intro changed? middle
  cases changed? with
  | none => exact ⟨false, middle, rfl⟩
  | some changed => exact ⟨true, middle.put reference changed, rfl⟩

end Heap

namespace Exec

variable {α β : Type} {context : Context} {machine final : Machine} {pointer : Pointer}
  {value : Value} {error : Error}

theorem bind_error_iff {first : Exec α} {next : α → Exec β} :
    (first >>= next) context machine = .error error final ↔
      first context machine = .error error final ∨ ∃ value middle,
        first context machine = .ok value middle ∧
          next value context middle = .error error final := by
  rw [bind_run]
  cases first context machine <;> simp [and_assoc]

theorem onHeap_error_iff {action : HeapM α} :
    onHeap action context machine = .error error final ↔
      ∃ heap, action machine.heap = .error error heap ∧ { machine with heap } = final := by
  unfold onHeap
  dsimp only
  cases action machine.heap <;> simp [and_assoc]

/-- A write that fails changes no location. -/
theorem extends_of_store_error (failed : store pointer value context machine = .error error final) :
    machine.Extends final := by
  have fails_unchanged {α : Type} {action : HeapM α}
      (unchanged : ∀ heap, action machine.heap = .error error heap → heap = machine.heap)
      (failed : onHeap action context machine = .error error final) : machine.Extends final := by
    obtain ⟨heap, stopped, rfl⟩ := onHeap_error_iff.mp failed
    rw [unchanged heap stopped]
    exact .refl machine
  induction pointer generalizing value with
  | localSlot | argument =>
    unfold store at failed
    rw [bind_of_ok get_run] at failed
    split at failed
    · cases failed
    · cases failed
      exact .refl machine
  | element array index =>
    obtain stopped | ⟨inRange, middle, ran, rest⟩ := bind_error_iff.mp failed
    · exact fails_unchanged (fun _ => Heap.setElement_error) stopped
    · cases inRange with
      | true => cases rest
      | false =>
        obtain ⟨heap, refused, rfl⟩ := onHeap_ok_iff.mp ran
        rw [Heap.setElement_false refused] at rest
        exact (Allocates.raise Core.indexOutOfRangeException).of_error rest
  | objectField object field => exact fails_unchanged (fun _ => Heap.update_error) failed
  | staticField field => cases failed
  | boxed object => exact fails_unchanged (fun _ => Heap.update_error) failed
  | valueField parent field ih =>
    obtain unread | ⟨whole, middle, loaded, rest⟩ := bind_error_iff.mp failed
    · exact (Allocates.load parent).of_error unread
    · obtain ⟨-, rfl⟩ := holds_of_load loaded
      obtain noField | ⟨changed, _, fits, stopped⟩ := bind_error_iff.mp rest
      · exact (Allocates.ofExcept _).of_error noField
      · obtain ⟨-, rfl⟩ := ofExcept_ok_iff.mp fits
        exact ih stopped

/-! ## Pointers as lenses -/

/-- What is written through a pointer that leads to a value. -/
structure Lens (context : Context) (machine : Machine) (pointer : Pointer) (held : Value) :
    Prop where
  writes (new : Value) : ∃ final, store pointer new context machine = .ok ⟨⟩ final
  reads_written {new : Value} {final : Machine}
    (written : store pointer new context machine = .ok ⟨⟩ final) :
    load pointer context final = .ok new final
  /-- To write back what was read changes nothing that can be read. -/
  restores {final : Machine} (written : store pointer held context machine = .ok ⟨⟩ final)
    (other : Pointer) (value : Value) :
    load other context final = .ok value final ↔ load other context machine = .ok value machine
  /-- Other locations are left alone. -/
  elsewhere {new : Value} {final : Machine}
    (written : store pointer new context machine = .ok ⟨⟩ final) {other : Pointer}
    (apart : other.location ≠ pointer.location) (value : Value) :
    load other context final = .ok value final ↔ load other context machine = .ok value machine

theorem load_ok_iff :
    load pointer context machine = .ok value machine ↔
      machine.Holds context.module pointer value :=
  ⟨fun loaded => (holds_of_load loaded).1, load_of_holds⟩

theorem lens_of_holds {held : Value} (holds : machine.Holds context.module pointer held) :
    Lens context machine pointer held where
  writes new := by
    obtain ⟨final, stores⟩ := holds.exists_stores new
    exact ⟨final, store_of_stores stores⟩
  reads_written written := load_of_holds ((stores_of_store written).holds_new holds)
  restores written other value := by
    rw [load_ok_iff, load_ok_iff]
    exact (stores_of_store written).restores holds
  elsewhere written other apart value := by
    rw [load_ok_iff, load_ok_iff]
    exact (stores_of_store written).holds_elsewhere_iff apart

/-- A pointer that can be read is a lens, and reading leaves the machine as it is.  A write that
fails, through whatever pointer, changes no location of the machine. -/
theorem pointers_are_lenses (context : Context) (machine : Machine) (pointer : Pointer) :
    (∀ held after, load pointer context machine = .ok held after →
      after = machine ∧ Lens context machine pointer held) ∧
    ∀ new error after, store pointer new context machine = .error error after →
      ∀ other : Pointer, other.location.LiesIn machine → ∀ value,
        load other context after = .ok value after ↔
          load other context machine = .ok value machine := by
  refine ⟨fun held after loaded => ?_, fun new error after failed other lies value => ?_⟩
  · obtain ⟨holds, unchanged⟩ := holds_of_load loaded
    exact ⟨unchanged, lens_of_holds holds⟩
  · rw [load_ok_iff, load_ok_iff]
    exact (extends_of_store_error failed).holds_iff lies

end Exec

namespace NestedFields

def outer : Token := ⟨0x04000001⟩

def inner : Token := ⟨0x04000002⟩

/-- A value with a field inside of a field. -/
def nested (number : Int32) : Value :=
  .record ⟨0x02000002⟩ [(outer, .record ⟨0x02000003⟩ [(inner, .int32 number)])]

/-- A machine with an array of two such values. -/
def machine : Machine :=
  { (default : Machine) with
    heap := { objects := #[.array .object #[nested 1, nested 2]], limit := 0 } }

def context : Context := ⟨Module.initial, .standard⟩

def innermost (index : Nat) : Pointer :=
  .valueField (.valueField (.element ⟨1⟩ index) outer) inner

/-- The innermost field of the first element is written, and that of the second one stays. -/
theorem innermost_written :
    Exec.load (innermost 0) context machine = .ok (.int32 1) machine ∧
      ∃ final, Exec.store (innermost 0) (.int32 3) context machine = .ok ⟨⟩ final ∧
        Exec.load (innermost 0) context final = .ok (.int32 3) final ∧
        Exec.load (innermost 1) context final = .ok (.int32 2) final := by
  have loaded : Exec.load (innermost 0) context machine = .ok (.int32 1) machine := rfl
  have other : Exec.load (innermost 1) context machine = .ok (.int32 2) machine := rfl
  obtain ⟨-, lens⟩ := (Exec.pointers_are_lenses context machine (innermost 0)).1 _ _ loaded
  obtain ⟨final, written⟩ := lens.writes (.int32 3)
  have apart : (innermost 1).location ≠ (innermost 0).location := by decide
  exact ⟨loaded, final, written, lens.reads_written written,
    (lens.elsewhere written apart _).mpr other⟩

end NestedFields

end Cil
