import Cil.Proofs.Machine.Lenses
import Mathlib.Data.List.Nodup

/-!
# Identity of objects

What any sequence of operations makes of an empty heap.  A reference is handed out once, by the
allocation of the object that it stands for, and something can be read through exactly the
references that were handed out.  An operation that fails changes nothing, and one that changes
an object leaves all the others as they were.

References are numbers without a bound.  Objects are never freed, so memory ends long before
64-bit numbers do.
-/

namespace Cil

open Stateful
open MonadExcept (ofExcept)

namespace Heap

/-! ## Operations -/

/-- What can be asked about an object. -/
inductive Query
  | whole
  | type
  | text
  | length
  | element (index : Nat)
  | field (key : Token) (default : Value)
  | payload

/-- How an object can be changed. -/
inductive Mutation
  | element (index : Nat) (new : Value)
  | field (key : Token) (new : Value)
  | payload (new : Value)
  /-- Whatever a function makes of the object, unless it refuses to make anything. -/
  | whole (change : HeapObject → Except Error HeapObject)

inductive Operation
  /-- Any kind of object can be allocated. -/
  | allocate (object : HeapObject)
  | mutate (reference : HeapRef) (mutation : Mutation)
  | ask (reference : HeapRef) (query : Query)
  | contains (reference : HeapRef)
  | count

/-- What an operation gives. -/
inductive Answer
  | nothing
  | reference (reference : HeapRef)
  | truth (holds : Bool)
  | number (value : Nat)
  | object (object : HeapObject)
  | type (type : Token)
  | text (text : String)
  | value (value : Value)
  | element (value? : Option Value)
  | payload (type : Token) (value : Value)

def Query.ask (heap : Heap) (reference : HeapRef) : Query → Except Error Answer
  | whole => return .object (← heap.get reference)
  | type => return .type (← heap.typeOf reference)
  | text => return .text (← heap.string reference)
  | length => return .number (← heap.length reference)
  | element index => return .element (← heap.element reference index)
  | field key default => return .value (← heap.field reference key default)
  | payload => do
      let (boxed, value) ← heap.unbox reference
      return .payload boxed value

namespace Mutation

/-- A delegate in the place of an object, which is how delegates are constructed. -/
def delegate (target : Value) (method : FunctionPointer) : Mutation :=
  whole fun _ => .ok (.delegate Core.action target method)

/-- What becomes of an object.  An array stays as it is if an index is out of its range. -/
def apply : Mutation → HeapObject → Except Error HeapObject
  | element index new, object => return (← object.setElement index new).getD object
  | field key new, object => object.setField key new
  | payload new, object => object.setBoxed new
  | whole change, object => change object

def perform (reference : HeapRef) : Mutation → HeapM Answer
  | element index new => return .truth (← setElement reference index new)
  | field key new => do
      setField reference key new
      return .nothing
  | payload new => do
      setBoxed reference new
      return .nothing
  | whole change => do
      update reference change
      return .nothing

end Mutation

def Operation.perform : Operation → HeapM Answer
  | allocate object => return .reference (← Heap.allocate object)
  | mutate reference mutation => mutation.perform reference
  | ask reference query => do ofExcept (query.ask (← get) reference)
  | contains reference => return .truth ((← get).contains reference)
  | count => return .number (← get).count

/-- The reference that an operation hands out, if it is an allocation that succeeds. -/
def given? (heap : Heap) (operation : Operation) : Option HeapRef :=
  match operation, operation.perform heap with
  | .allocate _, .ok (.reference reference) _ => some reference
  | _, _ => none

/-- The heap after operations, refused ones among them. -/
def after (heap : Heap) (operations : List Operation) : Heap :=
  operations.foldl (fun heap operation => finalState (operation.perform heap)) heap

/-- The references that operations hand out, in their order. -/
def handedOut (heap : Heap) : List Operation → List HeapRef
  | [] => []
  | operation :: operations =>
      (heap.given? operation).toList ++ (finalState (operation.perform heap)).handedOut operations

/-! ## What an operation does -/

/-- The reference that the next object gets. -/
def next (heap : Heap) : HeapRef :=
  ⟨heap.count + 1⟩

/-- Whether no more objects can be allocated. -/
def IsFull (heap : Heap) : Prop :=
  heap.limit ≠ 0 ∧ heap.limit ≤ heap.count

/-- A heap has a limit, and no more objects than the limit allows for. -/
def WithinLimit (limit : Nat) (heap : Heap) : Prop :=
  heap.limit = limit ∧ (limit ≠ 0 → heap.count ≤ limit)

/-- Something about an object can be read through a reference. -/
def Readable (heap : Heap) (reference : HeapRef) : Prop :=
  ∃ query : Query, ∃ answer, query.ask heap reference = .ok answer

/-- A heap has got one more object, under the next reference, and nothing else has changed. -/
structure Gains (heap : Heap) (object : HeapObject) (after : Heap) : Prop where
  new : after.get heap.next = .ok object
  others : ∀ other, other ≠ heap.next → after.get other = heap.get other
  count : after.count = heap.count + 1
  limit : after.limit = heap.limit

/-- An object has become another one, and nothing else has changed. -/
structure Becomes (heap : Heap) (reference : HeapRef) (changed : HeapObject) (after : Heap) :
    Prop where
  new : after.get reference = .ok changed
  others : ∀ other, other ≠ reference → after.get other = heap.get other
  count : after.count = heap.count
  limit : after.limit = heap.limit

/-- What an operation does to a heap, and what it hands out: it may do nothing, add an object
or change one. -/
inductive Step (heap : Heap) : Option HeapRef → Heap → Prop
  | nothing : Step heap none heap
  | gain {object : HeapObject} {after : Heap} (room : ¬ heap.IsFull)
      (gains : heap.Gains object after) : Step heap (some heap.next) after
  | change {reference : HeapRef} {changed : HeapObject} {after : Heap}
      (becomes : heap.Becomes reference changed after) : Step heap none after

/-- What may be relied on when an operation is carried out. -/
structure Sound (heap : Heap) (operation : Operation) : Prop where
  /-- An object is refused by a full heap and by no other. -/
  allocates : ∀ object, operation = .allocate object →
    (heap.IsFull → operation.perform heap = .error (.notSupported (.heapFull heap.limit)) heap) ∧
    (¬ heap.IsFull → ∃ after, operation.perform heap = .ok (.reference heap.next) after ∧
      heap.Gains object after)
  /-- An object is changed if it is there and the change is possible. -/
  mutates : ∀ reference mutation, operation = .mutate reference mutation →
    (∀ error, heap.get reference >>= mutation.apply = .error error →
      operation.perform heap = .error error heap) ∧
    ∀ changed, heap.get reference >>= mutation.apply = .ok changed →
      ∃ answer after, operation.perform heap = .ok answer after ∧
        heap.Becomes reference changed after
  /-- Asking changes nothing. -/
  asks : ∀ reference query, operation = .ask reference query →
    finalState (operation.perform heap) = heap
  /-- An operation that fails changes nothing, the next reference included. -/
  fails : ∀ error after, operation.perform heap = .error error after → after = heap

variable {heap final : Heap} {reference other : HeapRef} {object changed : HeapObject}
  {operation : Operation}

instance : Decidable heap.IsFull :=
  inferInstanceAs (Decidable (_ ∧ _))

/-! ## References -/

theorem contains_iff :
    heap.contains reference = true ↔ 0 < reference.id ∧ reference.id ≤ heap.count := by
  obtain ⟨id⟩ := reference
  cases id with
  | zero => simp [contains, object?]
  | succ index =>
      have present : heap.objects[index]?.isSome = true ↔ index < heap.count := by simp [count]
      exact present.trans ⟨fun inside => ⟨Nat.succ_pos index, inside⟩, And.right⟩

theorem exists_get_error_iff :
    (∃ error, heap.get reference = .error error) ↔ heap.contains reference = false := by
  unfold Heap.get contains
  cases heap.object? reference <;> simp

/-- Whatever is asked, there is no answer without an object. -/
theorem ask_eq_error {error : Error} (missing : heap.get reference = .error error)
    (query : Query) : query.ask heap reference = .error error := by
  cases query <;>
    simp only [Query.ask, typeOf, string, length, element, field, unbox, missing] <;> rfl

theorem readable_iff_contains : heap.Readable reference ↔ heap.contains reference = true := by
  constructor
  · rintro ⟨query, answer, answered⟩
    by_contra missing
    obtain ⟨error, noObject⟩ := exists_get_error_iff.mpr (Bool.eq_false_iff.mpr missing)
    rw [ask_eq_error noObject] at answered
    cases answered
  · intro present
    obtain ⟨object, found⟩ := Option.isSome_iff_exists.mp present
    refine ⟨.whole, .object object, ?_⟩
    rw [Query.ask, get_eq_ok.mpr found]
    rfl

theorem readable_iff : heap.Readable reference ↔ 0 < reference.id ∧ reference.id ≤ heap.count :=
  readable_iff_contains.trans contains_iff

/-! ## Allocations -/

theorem gains_push (heap : Heap) (object : HeapObject) :
    heap.Gains object { heap with objects := heap.objects.push object } where
  new := by simp [Heap.get, object?, next, count]
  others other apart := by
    obtain ⟨id⟩ := other
    cases id with
    | zero => rfl
    | succ index =>
        have elsewhere : index ≠ heap.objects.size := by
          rintro rfl
          exact apart rfl
        simp only [Heap.get, object?, Array.getElem?_push, elsewhere, if_false]
  count := Array.size_push _
  limit := rfl

/-! ## Changes of objects -/

/-- A change of an object that is not possible is refused. -/
theorem mutation_refused {mutation : Mutation} {error : Error}
    (failed : heap.get reference >>= mutation.apply = .error error) :
    mutation.perform reference heap = .error error heap := by
  cases mutation with
  | element index new =>
      have refused : heap.get reference >>= (·.setElement index new) = .error error := by
        rw [except_bind_eq_error] at failed ⊢
        apply failed.imp_right
        rintro ⟨object, live, refused⟩
        obtain noElement | ⟨changed?, _, made⟩ := except_bind_eq_error.mp refused
        · exact ⟨object, live, noElement⟩
        · cases made
      exact bind_eq_error.mpr (.inl (refused_bind refused))
  | _ => exact bind_eq_error.mpr (.inl (refused_bind failed))

theorem becomes_self (live : heap.get reference = .ok object) :
    heap.Becomes reference object heap :=
  ⟨live, fun _ _ => rfl, rfl, rfl⟩

theorem becomes_put (live : heap.get reference = .ok object) (changed : HeapObject) :
    heap.Becomes reference changed (heap.put reference changed) where
  new := get_put live
  others _ apart := get_put_of_ne live apart
  count := by simp [count, put]
  limit := rfl

/-- A change of an object that is possible is made. -/
theorem mutation_made {mutation : Mutation}
    (made : heap.get reference >>= mutation.apply = .ok changed) :
    ∃ answer after, mutation.perform reference heap = .ok answer after ∧
      heap.Becomes reference changed after := by
  obtain ⟨object, live, becomes⟩ := except_bind_eq_ok.mp made
  cases mutation with
  | element index new =>
      obtain ⟨changed?, set, becomes⟩ := except_bind_eq_ok.mp becomes
      cases becomes
      cases changed? with
      | none =>
          have ran : setElement reference index new heap = .ok false heap := made_bind live set
          exact ⟨_, _, bind_eq_ok.mpr ⟨false, heap, ran, rfl⟩, becomes_self live⟩
      | some changed =>
          have ran : setElement reference index new heap = .ok true (heap.put reference changed) :=
            made_bind live set
          exact ⟨_, _, bind_eq_ok.mpr ⟨true, _, ran, rfl⟩, becomes_put live changed⟩
  | _ =>
      have ran := update_eq_ok.mpr ⟨object, changed, live, becomes, rfl⟩
      exact ⟨.nothing, _, bind_eq_ok.mpr ⟨⟨⟩, _, ran, rfl⟩, becomes_put live changed⟩

/-! ## Single operations -/

theorem ask_run (query : Query) :
    (Operation.ask reference query).perform heap =
      (ofExcept (query.ask heap reference) : HeapM Answer) heap :=
  rfl

theorem allocation_refused (full : heap.IsFull) (object : HeapObject) :
    (Operation.allocate object).perform heap =
      .error (.notSupported (.heapFull heap.limit)) heap :=
  bind_eq_error.mpr (.inl (allocate_of_full full object))

theorem allocation_made (room : ¬ heap.IsFull) (object : HeapObject) :
    (Operation.allocate object).perform heap =
      .ok (.reference heap.next) { heap with objects := heap.objects.push object } :=
  bind_eq_ok.mpr ⟨heap.next, _, allocate_eq_ok.mpr ⟨room, rfl, rfl⟩, rfl⟩

theorem given?_of_error {error : Error} (failed : operation.perform heap = .error error final) :
    heap.given? operation = none := by
  cases operation <;> simp [given?, failed]

/-- An operation fails and does nothing, or it does one of the three things that a step can do. -/
theorem perform_cases (heap : Heap) (operation : Operation) :
    (∃ error, operation.perform heap = .error error heap) ∨
      ∃ answer after, operation.perform heap = .ok answer after ∧
        heap.Step (heap.given? operation) after := by
  cases operation with
  | allocate object =>
      by_cases full : heap.IsFull
      · exact .inl ⟨_, allocation_refused full object⟩
      · have ran := allocation_made full object
        have given : heap.given? (.allocate object) = some heap.next := by simp [given?, ran]
        rw [given]
        exact .inr ⟨_, _, ran, .gain full (heap.gains_push object)⟩
  | mutate reference mutation =>
      cases made : heap.get reference >>= mutation.apply with
      | error error => exact .inl ⟨error, mutation_refused made⟩
      | ok changed =>
          obtain ⟨answer, after, ran, becomes⟩ := mutation_made made
          exact .inr ⟨answer, after, ran, .change becomes⟩
  | ask reference query =>
      cases asked : query.ask heap reference with
      | error error => exact .inl ⟨error, (ask_run query).trans (by rw [asked]; rfl)⟩
      | ok answer => exact .inr ⟨answer, heap, (ask_run query).trans (by rw [asked]; rfl), .nothing⟩
  | contains | count => exact .inr ⟨_, heap, rfl, .nothing⟩

theorem step_perform (heap : Heap) (operation : Operation) :
    heap.Step (heap.given? operation) (finalState (operation.perform heap)) := by
  obtain ⟨error, failed⟩ | ⟨answer, after, ran, step⟩ := perform_cases heap operation
  · rw [given?_of_error failed, failed]
    exact .nothing
  · rw [ran]
    exact step

theorem sound (heap : Heap) (operation : Operation) : heap.Sound operation where
  allocates := by
    rintro object rfl
    exact ⟨fun full => allocation_refused full object,
      fun room => ⟨_, allocation_made room object, heap.gains_push object⟩⟩
  mutates := by
    rintro reference mutation rfl
    exact ⟨fun _ failed => mutation_refused failed, fun _ made => mutation_made made⟩
  asks := by
    rintro reference query rfl
    rw [ask_run]
    cases query.ask heap reference <;> rfl
  fails := by
    intro error after failed
    obtain ⟨other, refused⟩ | ⟨answer, final, ran, _⟩ := perform_cases heap operation
    · rw [refused] at failed
      cases failed
      rfl
    · rw [ran] at failed
      cases failed

/-! ## Sequences of operations -/

namespace Step

variable {given? : Option HeapRef}

theorem count_eq (step : heap.Step given? final) :
    final.count = heap.count + given?.toList.length := by
  cases step with
  | nothing => rfl
  | gain _ gains => exact gains.count
  | change becomes => exact becomes.count

theorem withinLimit {limit : Nat} (step : heap.Step given? final)
    (within : heap.WithinLimit limit) : final.WithinLimit limit := by
  obtain ⟨limited, counted⟩ := within
  cases step with
  | nothing => exact ⟨limited, counted⟩
  | gain room gains =>
      refine ⟨gains.limit.trans limited, fun bounded => ?_⟩
      have before := counted bounded
      have grown := gains.count
      unfold IsFull at room
      omega
  | change becomes =>
      refine ⟨becomes.limit.trans limited, fun bounded => ?_⟩
      rw [becomes.count]
      exact counted bounded

theorem map_id (step : heap.Step given? final) :
    given?.toList.map HeapRef.id = List.range' (heap.count + 1) given?.toList.length := by
  cases step <;> rfl

end Step

theorem count_after (heap : Heap) (operations : List Operation) :
    (heap.after operations).count = heap.count + (heap.handedOut operations).length := by
  induction operations generalizing heap with
  | nil => rfl
  | cons operation operations ih =>
      have stepped := (step_perform heap operation).count_eq
      have rest := ih (finalState (operation.perform heap))
      rw [handedOut, List.length_append, ← Nat.add_assoc, ← stepped]
      exact rest

theorem withinLimit_after {limit : Nat} (within : heap.WithinLimit limit)
    (operations : List Operation) : (heap.after operations).WithinLimit limit := by
  induction operations generalizing heap with
  | nil => exact within
  | cons operation operations ih => exact ih ((step_perform heap operation).withinLimit within)

/-- References are numbered in the order in which they are handed out, without a gap. -/
theorem map_id_handedOut (heap : Heap) (operations : List Operation) :
    (heap.handedOut operations).map HeapRef.id =
      List.range' (heap.count + 1) (heap.handedOut operations).length := by
  induction operations generalizing heap with
  | nil => rfl
  | cons operation operations ih =>
      have step := step_perform heap operation
      have rest := ih (finalState (operation.perform heap))
      rw [handedOut, List.map_append, List.length_append, step.map_id, rest, step.count_eq,
        Nat.add_right_comm, List.range'_append_1]

/-! ## Operations on an empty heap -/

theorem mem_handedOut_empty {limit : Nat} {operations : List Operation} :
    reference ∈ (empty limit).handedOut operations ↔
      0 < reference.id ∧ reference.id ≤ ((empty limit).after operations).count := by
  have injective : Function.Injective HeapRef.id := fun ⟨_⟩ ⟨_⟩ same => congrArg HeapRef.mk same
  have counted := count_after (empty limit) operations
  have start : (empty limit).count = 0 := rfl
  rw [← List.mem_map_of_injective injective, map_id_handedOut, List.mem_range'_1]
  omega

theorem nodup_handedOut (heap : Heap) (operations : List Operation) :
    (heap.handedOut operations).Nodup := by
  apply List.Nodup.of_map HeapRef.id
  rw [map_id_handedOut]
  exact List.nodup_range'

/-- What could be read before a sequence of operations has an older reference than the next
object. -/
theorem not_readable_next {earlier operations : List Operation} (before : earlier <+: operations) :
    ¬ (heap.after earlier).Readable (heap.after operations).next := by
  obtain ⟨later, rfl⟩ := before
  have split : heap.after (earlier ++ later) = (heap.after earlier).after later :=
    List.foldl_append
  have grown := count_after (heap.after earlier) later
  rw [readable_iff, split]
  simp only [next]
  omega

theorem eq_next_of_given? (given : heap.given? operation = some reference) :
    reference = heap.next := by
  have step := step_perform heap operation
  rw [given] at step
  cases step
  rfl

end Heap

/-! ### Three objects -/

namespace CrowdedHeap

open Heap

def field : Token := ⟨0x04000001⟩

/-- The string has no field, and there is no room for the box. -/
def operations : List Operation :=
  [.allocate (.string "first"), .allocate (.object Core.object []),
    .mutate ⟨1⟩ (.field field .null), .mutate ⟨2⟩ (.field field (.object ⟨1⟩)),
    .allocate (.array .int32 #[.int32 0]), .allocate (.boxed Core.int32 (.int32 1)),
    .mutate ⟨2⟩ (.delegate .null ⟨0⟩)]

def heap : Heap := (empty 3).after operations

end CrowdedHeap

end Cil
