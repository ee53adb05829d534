import Cil.Proofs.Machine.WatchedCalls

/-!
# Pointers to slots

A pointer to an argument or to a local names a frame by its place, and so does a pointer into a
value that stands in one.  While the frame stands there the pointer leads to its slot.
Afterwards it leads nowhere, until another frame stands in the place and has such a slot.
-/

namespace Cil

open Stateful
open MonadExcept (ofExcept)

/-- A slot of a frame. -/
inductive Slot
  | argument (index : Nat)
  | localSlot (index : Nat)
deriving DecidableEq, Repr

namespace Slot

/-- The address of a slot of the frame in a place. -/
def pointer (frame : Nat) : Slot → Pointer
  | argument index => .argument frame index
  | localSlot index => .localSlot frame index

def Fits (shape : FrameShape) : Slot → Prop
  | argument index => index < shape.arguments
  | localSlot index => index < shape.locals

/-- Among given frames, the one in a place has the slot. -/
def Stands (live : List FrameShape) (frame : Nat) (slot : Slot) : Prop :=
  ∃ shape, live[frame]? = some shape ∧ slot.Fits shape

/-- A slot stands where it stood when further frames are behind its own. -/
theorem Stands.of_prefix {live more : List FrameShape} {frame : Nat} {slot : Slot}
    (stands : slot.Stands live frame) (kept : live <+: more) : slot.Stands more frame := by
  obtain ⟨shape, found, fits⟩ := stands
  obtain ⟨rest, rfl⟩ := kept
  have inside : frame < live.length := (List.getElem?_eq_some_iff.mp found).1
  exact ⟨shape, by rw [List.getElem?_append_left inside, found], fits⟩

end Slot

namespace Frame

def slot? (frame : Frame) : Slot → Option Value
  | .argument index => frame.arguments[index]?
  | .localSlot index => frame.locals[index]?

def setSlot (frame : Frame) (value : Value) : Slot → Frame
  | .argument index => { frame with arguments := frame.arguments.set! index value }
  | .localSlot index => { frame with locals := frame.locals.set! index value }

theorem isSome_slot? (frame : Frame) (slot : Slot) :
    (frame.slot? slot).isSome ↔ slot.Fits frame.shape := by
  cases slot <;> simp [slot?, Slot.Fits, shape]

end Frame

namespace Machine

def slot? (machine : Machine) (frame : Nat) (slot : Slot) : Option Value :=
  machine.frames[frame]?.bind (·.slot? slot)

def setSlot (machine : Machine) (frame : Nat) (slot : Slot) (value : Value) : Machine :=
  { machine with frames := machine.frames.modify frame (·.setSlot value slot) }

theorem isSome_slot? (machine : Machine) (frame : Nat) (slot : Slot) :
    (machine.slot? frame slot).isSome ↔ slot.Stands machine.shapes frame := by
  rw [slot?, Slot.Stands, shapes, List.getElem?_map, Array.getElem?_toList]
  cases machine.frames[frame]? with
  | none => simp
  | some slots => simpa using slots.isSome_slot? slot

end Machine

/-! ## Values inside of values -/

theorem Value.field_ne_dangling (value : Value) (field : Token) (text : String) :
    value.field field ≠ .error (.typeMismatch (.danglingPointer text)) := by
  cases value with
  | record type fields =>
      rw [Value.field]
      cases fields.lookup field <;> nofun
  | _ => nofun

namespace Pointer

/-- What a pointer leads to inside of the value at its root. -/
def part (whole : Value) : Pointer → Except Error Value
  | valueField parent field => do (← parent.part whole).field field
  | _ => .ok whole

/-- The value at the root of a pointer with another value where the pointer leads to. -/
def withPart (whole : Value) : Pointer → Value → Except Error Value
  | valueField parent field, new => do
    parent.withPart whole (← (← parent.part whole).setField field new)
  | _, new => .ok new

theorem part_ne_dangling (whole : Value) (pointer : Pointer) (text : String) :
    pointer.part whole ≠ .error (.typeMismatch (.danglingPointer text)) := by
  induction pointer with
  | valueField parent field ih =>
      intro failed
      rw [part] at failed
      cases read : parent.part whole with
      | error error =>
          rw [read] at failed
          cases failed
          exact ih read
      | ok inside =>
          rw [read] at failed
          exact inside.field_ne_dangling field text failed
  | _ => nofun

end Pointer

namespace Exec

variable {context : Context} {machine : Machine}

theorem load_of_root {pointer : Pointer} {whole : Value}
    (ran : load pointer.root context machine = .ok whole machine) :
    load pointer context machine =
      (ofExcept (pointer.part whole) : Exec Value) context machine := by
  induction pointer with
  | valueField parent field ih =>
      rw [load, bind_run, ih ran, Pointer.part]
      cases parent.part whole <;> rfl
  | _ => exact ran

theorem store_of_root {pointer : Pointer} {whole : Value} (new : Value)
    (ran : load pointer.root context machine = .ok whole machine) :
    store pointer new context machine =
      (do store pointer.root (← ofExcept (pointer.withPart whole new)) : Exec Unit) context
        machine := by
  induction pointer generalizing new with
  | valueField parent field ih =>
      have read : load parent.root context machine = .ok whole machine := ran
      rw [store, bind_run, load_of_root read, Pointer.withPart]
      cases parent.part whole with
      | error error => rfl
      | ok inside =>
          change (do store parent (← ofExcept (inside.setField field new)) : Exec Unit) context
              machine =
            (do store parent.root (← ofExcept (do
              parent.withPart whole (← inside.setField field new))) : Exec Unit) context machine
          cases inside.setField field new with
          | error error => rfl
          | ok changed => exact ih changed read
  | _ => rfl

theorem load_of_root_error {pointer : Pointer} {error : Error}
    (ran : load pointer.root context machine = .error error machine) :
    load pointer context machine = .error error machine := by
  induction pointer with
  | valueField parent field ih => rw [load, bind_run, ih ran]
  | _ => exact ran

theorem store_of_root_error {pointer : Pointer} {error : Error} (new : Value)
    (read : load pointer.root context machine = .error error machine)
    (written : ∀ new, store pointer.root new context machine = .error error machine) :
    store pointer new context machine = .error error machine := by
  induction pointer generalizing new with
  | valueField parent field ih =>
      have read : load parent.root context machine = .error error machine := read
      rw [store, bind_run, load_of_root_error read]
  | _ => exact written new

/-! ## Slots -/

theorem load_slot (frame : Nat) (slot : Slot) :
    load (slot.pointer frame) context machine =
      match machine.slot? frame slot with
      | some value => .ok value machine
      | none => .error (.typeMismatch (.danglingPointer (slot.pointer frame).text)) machine := by
  cases slot with
  | argument index =>
      have content : machine.slot? frame (.argument index) =
        machine.frames[frame]?.bind (·.arguments[index]?) := rfl
      rw [Slot.pointer, load, bind_of_ok get_run, content]
      cases machine.frames[frame]?.bind (·.arguments[index]?) <;> rfl
  | localSlot index =>
      have content : machine.slot? frame (.localSlot index) =
        machine.frames[frame]?.bind (·.locals[index]?) := rfl
      rw [Slot.pointer, load, bind_of_ok get_run, content]
      cases machine.frames[frame]?.bind (·.locals[index]?) <;> rfl

theorem store_slot (frame : Nat) (slot : Slot) (new : Value) :
    store (slot.pointer frame) new context machine =
      if (machine.slot? frame slot).isSome then .ok ⟨⟩ (machine.setSlot frame slot new)
      else .error (.typeMismatch (.danglingPointer (slot.pointer frame).text)) machine := by
  have written {condition : Prop} [Decidable condition] {first second : Exec Unit} :
      (if condition then first else second) context machine =
        if condition then first context machine else second context machine := by
    split <;> rfl
  cases slot with
  | argument index =>
      rw [Slot.pointer, store, bind_of_ok get_run, written]
      rfl
  | localSlot index =>
      rw [Slot.pointer, store, bind_of_ok get_run, written]
      rfl

end Exec

/-! ## Where pointers lead -/

namespace Pointer

variable (pointer : Pointer) (context : Context) (machine : Machine) (frame : Nat) (slot : Slot)

/-- A pointer leads to a slot: what is read is read from the slot, and what is written changes
nothing but the slot. -/
def LeadsTo : Prop :=
  ∃ whole, machine.slot? frame slot = some whole ∧
    Exec.load pointer context machine =
      (ofExcept (pointer.part whole) : Exec Value) context machine ∧
    ∀ new, Exec.store pointer new context machine =
      (do
        let changed ← ofExcept (pointer.withPart whole new)
        modify (·.setSlot frame slot changed) : Exec Unit) context machine

/-- Nothing is read or written through a pointer to a slot that is gone. -/
def Dangles : Prop :=
  Exec.load pointer context machine =
      .error (.typeMismatch (.danglingPointer (slot.pointer frame).text)) machine ∧
    ∀ new, Exec.store pointer new context machine =
      .error (.typeMismatch (.danglingPointer (slot.pointer frame).text)) machine

end Pointer

/-- With given frames, exactly the pointers to slots that stand among them lead there, and all
others dangle. -/
def Machine.PointersFollow (machine : Machine) (context : Context) (live : List FrameShape) :
    Prop :=
  ∀ (pointer : Pointer) (frame : Nat) (slot : Slot), pointer.root = slot.pointer frame →
    (slot.Stands live frame → pointer.LeadsTo context machine frame slot) ∧
      (pointer.Dangles context machine frame slot ↔ ¬ slot.Stands live frame)

namespace Exec

variable {context : Context} {machine : Machine} {pointer : Pointer} {frame : Nat} {slot : Slot}

theorem leadsTo_of_stands (isRoot : pointer.root = slot.pointer frame)
    (stands : slot.Stands machine.shapes frame) : pointer.LeadsTo context machine frame slot := by
  obtain ⟨whole, found⟩ := Option.isSome_iff_exists.mp ((machine.isSome_slot? frame slot).mpr stands)
  have read : load pointer.root context machine = .ok whole machine := by
    rw [isRoot, load_slot, found]
  refine ⟨whole, found, load_of_root read, fun new => ?_⟩
  rw [store_of_root new read, isRoot]
  cases pointer.withPart whole new with
  | error error => rfl
  | ok changed =>
      change store (slot.pointer frame) changed context machine = _
      rw [store_slot, found]
      rfl

theorem dangles_of_not_stands (isRoot : pointer.root = slot.pointer frame)
    (gone : ¬ slot.Stands machine.shapes frame) : pointer.Dangles context machine frame slot := by
  have missing : machine.slot? frame slot = none := by
    rwa [← machine.isSome_slot?, Option.not_isSome_iff_eq_none] at gone
  have read : load pointer.root context machine =
      .error (.typeMismatch (.danglingPointer (slot.pointer frame).text)) machine := by
    rw [isRoot, load_slot, missing]
  refine ⟨load_of_root_error read, fun new => store_of_root_error new read fun new => ?_⟩
  rw [isRoot, store_slot, missing]
  rfl

theorem pointersFollow_shapes (context : Context) (machine : Machine) :
    machine.PointersFollow context machine.shapes := by
  intro pointer frame slot isRoot
  refine ⟨leadsTo_of_stands isRoot, fun dangles stands => ?_, dangles_of_not_stands isRoot⟩
  -- What a part of a value that is there fails with is something else.
  have leads : pointer.LeadsTo context machine frame slot := leadsTo_of_stands isRoot stands
  obtain ⟨whole, _, read, _⟩ := leads
  rw [dangles.1] at read
  cases part : pointer.part whole with
  | ok value => rw [part] at read; cases read
  | error error =>
      rw [part] at read
      cases read
      exact pointer.part_ne_dangling whole _ part

end Exec

/-! ## Addresses -/

/-- The slot whose address an instruction takes. -/
def Instruction.slotTaken? (instruction : Instruction) : Option Slot :=
  match instruction.opcode.action? with
  | some .loadArgumentAddress => instruction.argumentIndex?.map .argument
  | some .loadLocalAddress => instruction.localIndex?.map .localSlot
  | _ => none

/-- Code takes addresses in its own frame. -/
theorem Exec.step_takesAddress {run : Runner} {clauses : List Clause} {scope : Scope}
    {frame : Nat} {instruction : Instruction} {constraint? : Option Token}
    {stack : List Value} {slot : Slot} (taken : instruction.slotTaken? = some slot)
    (context : Context) (machine : Machine) :
    step run clauses scope frame instruction constraint? stack context machine =
      .ok (.next (.pointer (slot.pointer frame) :: stack)) machine := by
  unfold Instruction.slotTaken? at taken
  unfold step
  split at taken
  · rename_i acts
    obtain ⟨index, named, rfl⟩ := Option.map_eq_some_iff.mp taken
    rw [acts]
    simp only [stepStraight, named]
    rfl
  · rename_i acts
    obtain ⟨index, named, rfl⟩ := Option.map_eq_some_iff.mp taken
    rw [acts]
    simp only [stepStraight, named]
    rfl
  · cases taken

/-! ## Calls -/

/-- Pointers to slots at a point of a call. -/
structure Machine.PointersDuring (start : Machine) (context : Context) (standing : Standing)
    (machine : Machine) : Prop where
  /-- The frames that stood there before the call are where they were. -/
  kept : start.shapes <+: standing.live
  /-- So pointers to their slots lead there. -/
  around : ∀ (pointer : Pointer) (frame : Nat) (slot : Slot),
    pointer.root = slot.pointer frame → slot.Stands start.shapes frame →
      pointer.LeadsTo context machine frame slot
  /-- The addresses that code takes are those of its own frame, which is the last one. -/
  taken : ∀ own, standing.own? = some own →
    start.frames.size ≤ own ∧ own + 1 = standing.live.length ∧
      ∀ (instruction : Instruction) (slot : Slot), instruction.slotTaken? = some slot →
        ∀ run clauses scope constraint? stack,
          Exec.step run clauses scope own instruction constraint? stack context machine =
            .ok (.next (.pointer (slot.pointer own) :: stack)) machine
  follow : machine.PointersFollow context standing.live

/-- Throughout a call a pointer to a slot leads there as long as the frame of the slot stands,
and so it does to the slots of the calls in progress around it.  When the frame is gone, the
pointer dangles exactly as long as no other frame stands in its place that has such a slot. -/
theorem Call.pointers_follow (call : Call) (calls : Nat) (context : Context)
    (start : Machine) :
    call.Throughout calls context start (start.PointersDuring context) ∧
      (finalState (call.run calls context start)).PointersFollow context start.shapes := by
  constructor
  · refine (call.throughout_during calls context start).weaken fun standing machine during => ?_
    have follow : machine.PointersFollow context standing.live := by
      rw [← during.shapes]
      exact Exec.pointersFollow_shapes context machine
    refine ⟨during.kept, ?_, fun own isOwn => ?_, follow⟩
    · intro pointer frame slot isRoot stands
      exact (follow pointer frame slot isRoot).1 (stands.of_prefix during.kept)
    · obtain ⟨behind, last⟩ := during.own own isOwn
      exact ⟨behind, last, fun _ _ taken _ _ _ _ _ => Exec.step_takesAddress taken _ _⟩
  · rw [← (call.sameCalls_run calls context start).shapes]
    exact Exec.pointersFollow_shapes context _

/-! ## A pointer to a local that is gone -/

namespace Leaking

def assembled (name : String) (params : List TypeSig) (returnType : TypeSig)
    (bytes : List UInt8) : DynamicMethod :=
  ((DynamicMethod.ofCode name default params returnType [{ signature := .int32 }] {} bytes 8
    []).toOption).getD default

/-- Returns the address of its local. -/
def leak : DynamicMethod :=
  assembled "Leak" [] (.byRef .int32) [0x12, 0x00, 0x2A]

/-- Sets its own local to forty-two and reads through its argument. -/
def read : DynamicMethod :=
  assembled "Read" [.byRef .int32] .int32 [0x1F, 42, 0x0A, 0x02, 0x4A, 0x2A]

def context : Context := ⟨Module.initial, .standard⟩

def start : Machine := .ofModule Module.initial .standard

def leaked : EStateM.Result Error Machine Value :=
  (Call.dynamic leak []).run 1 context start

def after : Machine :=
  finalState leaked

def givesAddress : EStateM.Result Error Machine Value → Bool
  | .ok (.pointer (.localSlot 0 0)) _ => true
  | _ => false

theorem leaks : leaked = .ok (.pointer (.localSlot 0 0)) after := by
  have first : givesAddress leaked = true := by decide +kernel
  unfold givesAddress at first
  unfold after
  split at first
  · rename_i ran
    rw [ran]
    rfl
  · cases first

/-- Complains when something can be read through a pointer. -/
def complaining (pointer : Pointer) : Watch := fun _ => do
  match ← Exec.attempt (Exec.load pointer) with
  | .ok _ => throw .outOfFuel
  | .error _ => return

theorem complaining_idle {pointer : Pointer} {context : Context} {machine : Machine}
    {error : Error} (failed : Exec.load pointer context machine = .error error machine)
    (standing : Standing) :
    complaining pointer standing context machine = .ok ⟨⟩ machine := by
  have attempted : Exec.attempt (Exec.load pointer) context machine =
      .ok (.error error) machine := by
    unfold Exec.attempt
    rw [failed]
  rw [complaining, Exec.bind_of_ok attempted]
  rfl

def returns (number : Int32) : EStateM.Result Error Machine Value → Bool
  | .ok (.int32 result) _ => result == number
  | _ => false

/-- A pointer to a local of a call that has ended is read as the local of a later one. -/
theorem reads_later_local :
    ¬ ∀ (ended later : Call) (calls : Nat) (context : Context) (start after : Machine)
      (pointer : Pointer) (slot : Slot),
      ended.run calls context start = .ok (.pointer pointer) after →
      pointer.root = slot.pointer start.frames.size →
      later.Throughout calls context after fun _ machine =>
        ∃ complaint, Exec.load pointer context machine =
          .error (.typeMismatch complaint) machine := by
  intro closed
  let pointer : Pointer := .localSlot 0 0
  have dangles := closed (.dynamic leak []) (.dynamic read [.pointer pointer]) 1 context start
    after pointer (.localSlot 0) leaks rfl
  have same := dangles (complaining pointer) fun standing _ ⟨_, failed⟩ =>
    complaining_idle failed standing
  -- The later call reads its own local, unless the watch keeps it from it.
  have unwatched : returns 42 ((Call.dynamic read [.pointer pointer]).run 1 context after) := by
    decide +kernel
  have watched : returns 42 ((Call.dynamic read [.pointer pointer]).runWatched
      (complaining pointer) 1 context after) = false := by
    decide +kernel
  rw [← same, watched] at unwatched
  cases unwatched

end Leaking

end Cil
