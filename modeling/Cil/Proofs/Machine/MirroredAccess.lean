import Cil.Proofs.Machine.Locality
import Cil.Proofs.Machine.Mirroring
import Cil.Proofs.Machine.Tallying

/-!
# What machines that mirror each other do alike

Objects are made and described alike on machines that mirror each other, and what stands in
slots, fields and elements is read and written alike, except through a pointer that leads to a
receiver that came in a box.
-/

namespace Cil

open MonadExcept (ofExcept)

/-- A relation between the parts of two machines that say which code runs. -/
structure CodeBond where
  Holds : Machine → Machine → Prop
  kept {first second after final : Machine} : Holds first second → first.SameCode after →
    second.SameCode final → Holds after final

/-- Two machines mirror each other, and their code belongs together. -/
def Guises.bond (standing : Guises) (code : CodeBond) : Bond where
  Holds first second := first.Mirrors standing second ∧ code.Holds first second
  heap holds := holds.1.heap
  statics holds := holds.1.statics
  console holds := holds.1.console

namespace Exec

variable {α : Type} {comparison : Comparison} {standing : Guises} {tables : CodeBond}

/-- A piece of execution does the same on machines that mirror each other. -/
abbrev Mirrored (comparison : Comparison) (standing : Guises) (tables : CodeBond)
    (action : Exec α) : Prop :=
  comparison.Tally (standing.bond tables) Eq action action

theorem tallies_onHeap {action : HeapM α} {one two : Machine}
    (holds : (standing.bond tables).Holds one two)
    (kept : ∀ owner box, one.heap.HoldsBox owner box →
      (Stateful.finalState (action one.heap)).HoldsBox owner box) :
    comparison.Tallies (standing.bond tables) Eq (onHeap action comparison.first one)
      (onHeap action comparison.second two) := by
  obtain ⟨mirrors, code⟩ := holds
  unfold onHeap
  dsimp only
  rw [mirrors.heap]
  cases ran : action one.heap with
  | ok value heap =>
      rw [ran] at kept
      exact .value rfl
        ⟨mirrors.withHeap kept, tables.kept code ⟨rfl, rfl, rfl, rfl⟩ ⟨rfl, rfl, rfl, rfl⟩⟩
  | error error heap =>
      rw [ran] at kept
      exact Comparison.Tally.throwSame error _ _
        ⟨mirrors.withHeap kept, tables.kept code ⟨rfl, rfl, rfl, rfl⟩ ⟨rfl, rfl, rfl, rfl⟩⟩

theorem mirrored_onHeap {action : HeapM α}
    (kept : ∀ owner box, Stateful.Keeps (Heap.HoldsBox · owner box) action) :
    Mirrored comparison standing tables (onHeap action) :=
  fun one _ holds => tallies_onHeap holds fun owner box => kept owner box one.heap

/-! ## Objects -/

theorem mirrored_allocate (object : HeapObject) :
    Mirrored comparison standing tables (allocate object) :=
  .seq (mirrored_onHeap fun _ _ => Heap.keepsBox_allocate object) fun _ => .pure rfl

theorem mirrored_newString (text : String) : Mirrored comparison standing tables (newString text) :=
  mirrored_allocate _

theorem mirrored_stringText? (value : Value) :
    Mirrored comparison standing tables (stringText? value) := by
  refine .seq (.ofExcept _) fun reference? => ?_
  cases reference? with
  | some reference => exact .seq (.readHeap _) fun _ => .pure rfl
  | none => exact .pure rfl

theorem mirrored_newObject (type : Token) :
    Mirrored comparison standing tables (newObject type) := by
  refine .seq .module fun module => ?_
  split
  · exact .ofExcept _
  · exact .seq (.ofExcept _) fun _ => mirrored_allocate _

theorem mirrored_newException (type : Token) (message? : Option String) :
    Mirrored comparison standing tables (newException type message?) := by
  refine .seq (mirrored_newObject _) fun made => .seq (.ofExcept _) fun reference? => ?_
  cases reference? with
  | none => exact .throwSame _
  | some exception =>
      cases message? with
      | none => exact .pure rfl
      | some message =>
          exact .seq (mirrored_newString _) fun _ =>
            .seq (mirrored_onHeap fun _ _ => Heap.keepsBox_setField _ _ _) fun _ => .pure rfl

section Raises

variable {β : Type} {values : α → β → Prop}

theorem tally_raise (type : Token) (message? : Option String) :
    comparison.Tally (standing.bond tables) values (raise type message?) (raise type message?) :=
  .seq (mirrored_newException _ _) fun _ => .throwSame _

theorem tally_nullReference :
    comparison.Tally (standing.bond tables) values nullReference nullReference :=
  tally_raise _ _

theorem tally_indexOutOfRange :
    comparison.Tally (standing.bond tables) values indexOutOfRange indexOutOfRange :=
  tally_raise _ _

end Raises

theorem mirrored_objectOf (value : Value) :
    Mirrored comparison standing tables (objectOf value) := by
  refine .seq (.ofExcept _) fun reference? => ?_
  cases reference? with
  | some reference => exact .pure rfl
  | none => exact tally_nullReference

theorem mirrored_describeException (exception : HeapRef) :
    Mirrored comparison standing tables (describeException exception) := by
  refine .seq (.readHeap _) fun type => .seq .module fun module => ?_
  have described (message? : Option String) :
      Mirrored comparison standing tables (Pure.pure (module.typeName type,
        message?.getD s!"Exception of type '{module.typeName type}' was thrown.") :
        Exec (String × String)) := .pure rfl
  refine .seq (.readHeap _) fun object => ?_
  cases object with
  | object type fields =>
      dsimp only
      split
      · exact .seq (mirrored_stringText? _) described
      · exact .seq (.pure rfl) described
  | _ => exact .seq (.pure rfl) described

theorem mirrored_runtimeType? (value : Value) :
    Mirrored comparison standing tables (runtimeType? value) := by
  cases value with
  | object reference => exact .seq (.readHeap _) fun _ => .pure rfl
  | _ => exact .pure rfl

theorem mirrored_box (type : Token) (value : Value) :
    Mirrored comparison standing tables (box type value) := by
  refine .seq .module fun module => ?_
  split
  · exact mirrored_allocate _
  · exact .pure rfl

/-! ## Locations -/

/-- What a static field holds, which is zero before the first assignment. -/
def staticValue (field : Token) : Option Value → Exec Value
  | some value => return value
  | none => do ofExcept ((← module).zeroOfField field)

theorem mirrored_loadStatic (field : Token) :
    Mirrored comparison standing tables (loadStatic field) := by
  refine .get_bind (·.static? field) (staticValue field) (staticValue field)
    (fun first second holds => by unfold Machine.static?; rw [holds.1.statics]) fun held? => ?_
  cases held? with
  | some value => exact .pure rfl
  | none => exact .seq .module fun _ => .ofExcept _

theorem mirrored_loadField (object : HeapRef) (field : Token) :
    Mirrored comparison standing tables (loadField object field) :=
  .seq .module fun _ => .seq (.ofExcept _) fun _ => .readHeap _

/-- What a slot holds, or the failure of looking at a slot that is gone. -/
def slotValue (pointer : Pointer) (held? : Option Value) : Exec Value :=
  match held? with
  | some value => pure value
  | none => dangling pointer

theorem mirrored_slotValue (pointer : Pointer) (held? : Option Value) :
    Mirrored comparison standing tables (slotValue pointer held?) := by
  cases held? with
  | some value => exact .pure rfl
  | none => exact .throwSame _

section Mirrors

variable {first second : Machine} (mirrors : first.Mirrors standing second)

include mirrors

theorem locals_of_mirrors (frame index : Nat) :
    second.frames[frame]?.bind (·.locals[index]?) =
      first.frames[frame]?.bind (·.locals[index]?) := by
  rcases mirrors.frame_cases frame with
    ⟨isNone, otherNone⟩ | ⟨_, one, other, _, isOne, isOther, fits⟩
  · rw [isNone, otherNone]
  · rw [isOne, isOther, Option.bind_some, Option.bind_some, fits.locals]

theorem arguments_of_mirrors {frame index : Nat}
    (spared : standing.Spares (.argument frame index)) :
    second.frames[frame]?.bind (·.arguments[index]?) =
      first.frames[frame]?.bind (·.arguments[index]?) := by
  rcases mirrors.frame_cases frame with
    ⟨isNone, otherNone⟩ | ⟨guise, one, other, isGuise, isOne, isOther, fits⟩
  · rw [isNone, otherNone]
  · rw [isOne, isOther, Option.bind_some, Option.bind_some]
    exact fits.arguments.getElem? fun isFirst => spared frame guise (by rw [isFirst]; rfl) isGuise

end Mirrors

theorem mirrored_load {pointer : Pointer} (spared : standing.Spares pointer) :
    Mirrored comparison standing tables (load pointer) := by
  induction pointer with
  | localSlot frame index =>
      exact .get_bind (fun machine => machine.frames[frame]?.bind (·.locals[index]?))
        (slotValue (.localSlot frame index)) (slotValue (.localSlot frame index))
        (fun _ _ holds => locals_of_mirrors holds.1 frame index) (mirrored_slotValue _)
  | argument frame index =>
      exact .get_bind (fun machine => machine.frames[frame]?.bind (·.arguments[index]?))
        (slotValue (.argument frame index)) (slotValue (.argument frame index))
        (fun _ _ holds => arguments_of_mirrors holds.1 spared) (mirrored_slotValue _)
  | element array index =>
      refine .seq (.readHeap _) fun element? => ?_
      cases element? with
      | some value => exact .pure rfl
      | none => exact tally_indexOutOfRange
  | objectField object field => exact mirrored_loadField _ _
  | staticField field => exact mirrored_loadStatic _
  | boxed object => exact .seq (.readHeap _) fun _ => .pure rfl
  | valueField parent field ih => exact .seq (ih spared) fun _ => .ofExcept _

theorem mirrored_modifyFrame (index : Nat) {change : Frame → Frame}
    (fits : ∀ guise heap one other, standing[index]? = some guise → guise.Fits heap one other →
      guise.Fits heap (change one) (change other)) :
    Mirrored comparison standing tables (modifyFrame index change) :=
  .modify fun _ _ holds => ⟨holds.1.modifyFrame index fun guise => fits guise _,
    tables.kept holds.2 ⟨rfl, rfl, rfl, rfl⟩ ⟨rfl, rfl, rfl, rfl⟩⟩

theorem mirrored_setLocal (frame index : Nat) (value : Value) :
    Mirrored comparison standing tables (modifyFrame frame fun slots =>
      { slots with locals := slots.locals.set! index value }) :=
  mirrored_modifyFrame frame fun _ _ _ _ _ fits =>
    ⟨congrArg (·.set! index value) fits.locals, fits.caught, fits.arguments⟩

theorem mirrored_setArgument {frame index : Nat} (value : Value)
    (spared : standing.Spares (.argument frame index)) :
    Mirrored comparison standing tables (modifyFrame frame fun slots =>
      { slots with arguments := slots.arguments.set! index value }) :=
  mirrored_modifyFrame frame fun guise _ _ _ isGuise fits =>
    ⟨fits.locals, fits.caught, fits.arguments.set value fun isFirst =>
      spared frame guise (by rw [isFirst]; rfl) isGuise⟩

theorem mirrored_store {pointer : Pointer} (spared : standing.Spares pointer) (value : Value) :
    Mirrored comparison standing tables (store pointer value) := by
  induction pointer generalizing value with
  | localSlot frame index =>
      refine .get_bind (fun machine => (machine.frames[frame]?.bind (·.locals[index]?)).isSome)
        (fun isLive => if isLive then _ else dangling (.localSlot frame index))
        (fun isLive => if isLive then _ else dangling (.localSlot frame index))
        (fun _ _ holds => congrArg Option.isSome (locals_of_mirrors holds.1 frame index))
        fun isLive => ?_
      split
      · exact mirrored_setLocal _ _ _
      · exact .throwSame _
  | argument frame index =>
      refine .get_bind (fun machine => (machine.frames[frame]?.bind (·.arguments[index]?)).isSome)
        (fun isLive => if isLive then _ else dangling (.argument frame index))
        (fun isLive => if isLive then _ else dangling (.argument frame index))
        (fun _ _ holds => congrArg Option.isSome (arguments_of_mirrors holds.1 spared))
        fun isLive => ?_
      split
      · exact mirrored_setArgument value spared
      · exact .throwSame _
  | element array index =>
      refine .seq (mirrored_onHeap fun _ _ => Heap.keepsBox_setElement _ _ _) fun found => ?_
      split
      · exact .pure rfl
      · exact tally_indexOutOfRange
  | objectField object field => exact mirrored_onHeap fun _ _ => Heap.keepsBox_setField _ _ _
  | staticField field => exact .modify fun _ _ holds => ⟨holds.1.setStatic _ _,
      tables.kept holds.2 ⟨rfl, rfl, rfl, rfl⟩ ⟨rfl, rfl, rfl, rfl⟩⟩
  | boxed object => exact mirrored_onHeap fun _ _ => Heap.keepsBox_setBoxed _ _
  | valueField parent field ih =>
      exact .seq (mirrored_load spared) fun _ => .seq (.ofExcept _) fun _ => ih spared _

end Exec

end Cil
