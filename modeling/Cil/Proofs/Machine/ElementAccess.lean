import Cil.Machine.Step
import Cil.Proofs.Machine.Conversions
import Cil.Proofs.Machine.Locations

/-!
# Access to array elements at a width

An element of an array is reached directly or through its address.  What goes through an
address is reduced to the width that the instruction names and then extended to 32 bits; what
is read or written directly stays as it is.  So the two agree just on the 32-bit integers that
the width holds.
-/

namespace Cil

open Exec

/-- The widths that small integers are read and written at. -/
inductive SizedKind
  | i1
  | u1
  | i2
  | u2
  | u4
deriving DecidableEq, Repr

namespace SizedKind

def width : SizedKind → NumberType
  | i1 => .int8
  | u1 => .uint8
  | i2 => .int16
  | u2 => .uint16
  | u4 => .uint32

def bits : SizedKind → Nat
  | i1 | u1 => 8
  | i2 | u2 => 16
  | u4 => 32

/-- The instruction that reads an element. -/
def ldelem : SizedKind → Opcode
  | i1 => .ldelemI1
  | u1 => .ldelemU1
  | i2 => .ldelemI2
  | u2 => .ldelemU2
  | u4 => .ldelemU4

/-- The instruction that reads through a pointer. -/
def ldind : SizedKind → Opcode
  | i1 => .ldindI1
  | u1 => .ldindU1
  | i2 => .ldindI2
  | u2 => .ldindU2
  | u4 => .ldindU4

/-- The instruction that writes an element of the width. -/
def stelem : SizedKind → Opcode
  | i1 | u1 => .stelemI1
  | i2 | u2 => .stelemI2
  | u4 => .stelemI4

/-- The instruction that writes through a pointer, if it has the width and the sign. -/
def stind? : SizedKind → Option Opcode
  | i1 => some .stindI1
  | i2 => some .stindI2
  | u1 | u2 | u4 => none

/-- A number reduced to the width and extended to 32 bits, with sign or with zeros. -/
def truncate (kind : SizedKind) (number : Int) : Value :=
  IntegerKind.int32.value (reduce kind.width.isUnsigned kind.bits number)

/-- Whether a value is a 32-bit integer that the width holds. -/
def Keeps (kind : SizedKind) (value : Value) : Prop :=
  ∃ number, Fits kind.width.isUnsigned kind.bits number ∧ value = IntegerKind.int32.value number

theorem bits?_width (kind : SizedKind) : kind.width.bits? = some kind.bits := by
  cases kind <;> rfl

theorem kind_width (kind : SizedKind) : kind.width.kind = .int32 := by
  cases kind <;> rfl

section Truncation

variable {kind : SizedKind} {integerKind : IntegerKind} {value : Value} {number : Int}

theorem keeps_truncate (kind : SizedKind) (number : Int) : kind.Keeps (kind.truncate number) :=
  ⟨_, fits_reduce .., rfl⟩

/-- What the width holds is what it keeps of the value. -/
theorem eq_truncate_iff (isInteger : value.integer? = some (integerKind, number)) :
    value = kind.truncate number ↔ kind.Keeps value := by
  refine ⟨fun same => same ▸ keeps_truncate kind number, ?_⟩
  rintro ⟨held, fits, rfl⟩
  rw [integer?_value, Option.some.injEq, Prod.mk.injEq] at isInteger
  obtain ⟨rfl, rfl⟩ := isInteger
  have narrow : kind.bits ≤ IntegerKind.int32.width := by cases kind <;> decide
  rw [truncate, reduce_reduce_of_le _ _ narrow,
    reduce_of_fits (NumberType.bits_pos kind.bits?_width) fits]

theorem convert_eq (isInteger : value.integer? = some (integerKind, number)) :
    value.convert { target := kind.width } = .ok (kind.truncate number) := by
  have wraps (source : Int) : Conversion.ofInteger { target := kind.width } source =
      .ok (kind.truncate source) := by
    rw [truncate, ← kind.kind_width, ← NumberType.wrap_eq kind.bits?_width]
    rfl
  rw [Conversion.convert_of_integer? isInteger, wraps]
  have signed : Conversion.readsUnsigned { target := kind.width } integerKind = false := by
    cases kind <;> cases integerKind <;> rfl
  rw [signed, IntegerKind.read, ← (reduce_of_fits integerKind.width_pos
    (eq_value_of_integer? isInteger).2)]
  rw [reduce_of_fits integerKind.width_pos (fits_reduce ..)]

/-- The conversion to the width changes all values but those that the width holds. -/
theorem convert_eq_self_iff :
    value.convert { target := kind.width } = .ok value ↔ kind.Keeps value := by
  cases isInteger : value.integer? with
  | some integer =>
      rw [convert_eq isInteger, Except.ok.injEq, eq_comm, eq_truncate_iff isInteger]
  | none =>
      refine iff_of_false (fun same => ?_) fun ⟨held, _, same⟩ => ?_
      · cases value with
        | float | record => cases kind <;> cases same
        | _ => cases isInteger <;> cases same
      · rw [same, integer?_value] at isInteger
        cases isInteger

end Truncation

end SizedKind

namespace Exec

/-- An instruction, and where and on whose behalf it is executed. -/
structure Site where
  run : Runner
  clauses : List Clause
  scope : Scope
  frame : Nat
  instruction : Instruction
  constraint? : Option Token
  context : Context

/-- The instruction leaves a stack and goes on with the next one. -/
def Site.Steps (site : Site) (machine : Machine) (stack : List Value) (final : Machine)
    (rest : List Value) : Prop :=
  step site.run site.clauses site.scope site.frame site.instruction site.constraint? stack
    site.context machine = .ok (.next rest) final

end Exec

/-- An instruction does the same wherever it is executed. -/
def Opcode.Takes (opcode : Opcode) (machine : Machine) (stack : List Value) (final : Machine)
    (rest : List Value) : Prop :=
  ∀ site : Site, site.instruction.opcode = opcode → site.Steps machine stack final rest

namespace Exec

variable {α : Type} {instruction : Instruction} {context : Context} {machine final : Machine}

theorem orFault_ok_iff {outcome : Except Fault α} {result : α} :
    orFault instruction outcome context machine = .ok result final ↔
      outcome = .ok result ∧ machine = final := by
  cases outcome with
  | ok value => exact pure_ok_iff.trans (by simp)
  | error fault =>
      refine iff_of_false (fun ran => ?_) nofun
      cases fault with
      | divideByZero | overflow => exact raise_ne_ok ran
      | mismatch => cases ran

/-! ## What the instructions do -/

/-- Whether an instruction reads or writes an element, or through a pointer. -/
def Access : Action → Prop
  | .loadElementAddress | .loadElement | .storeElement | .loadIndirect _ | .storeIndirect _ => True
  | _ => False

theorem Site.steps_iff {site : Site} {action : Action} {stack rest : List Value}
    (acts : site.instruction.opcode.action? = some action) (access : Access action) :
    site.Steps machine stack final rest ↔
      stepStraight site.run site.scope site.frame site.instruction site.constraint? stack action
        site.context machine = .ok rest final := by
  have continues (result : List Value) (middle : Machine) :
      (pure (.next result) : Exec Effect) site.context middle = .ok (.next rest) final ↔
        result = rest ∧ middle = final := by
    rw [pure_ok_iff, Effect.next.injEq, and_iff_left rfl]
  unfold Site.Steps step
  rw [acts]
  cases action with
  | loadElementAddress | loadElement | storeElement | loadIndirect | storeIndirect =>
      rw [bind_ok_iff]
      simp only [continues]
      exact ⟨fun ⟨_, _, ran, same, unchanged⟩ => same ▸ unchanged ▸ ran,
        fun ran => ⟨_, _, ran, rfl, rfl⟩⟩
  | _ => exact access.elim

end Exec

namespace Machine

/-- An array and an index on the stack that name one of its elements. -/
structure Names (machine : Machine) (array index : Value) (reference : HeapRef)
    (type : TypeSig) (elements : Array Value) (position : Nat) : Prop where
  isArray : array = .object reference
  live : machine.heap.get reference = .ok (.array type elements)
  isIndex : ∃ number : Int64, index.asInt64 = .ok number ∧ number.toInt = position
  inside : position < elements.size

/-- The machine with another element in an array. -/
def withElement (machine : Machine) (reference : HeapRef) (type : TypeSig)
    (elements : Array Value) (position : Nat) (value : Value) : Machine :=
  { machine with
    heap := machine.heap.put reference (.array type (elements.set! position value)) }

namespace Names

variable {machine : Machine} {array index : Value} {reference : HeapRef} {type : TypeSig}
  {elements : Array Value} {position : Nat} {value : Value} {opcode : Opcode} {kind : SizedKind}

theorem withElement (names : machine.Names array index reference type elements position)
    (value : Value) :
    (machine.withElement reference type elements position value).Names array index reference type
      (elements.set! position value) position where
  isArray := names.isArray
  live := Heap.get_put names.live
  isIndex := names.isIndex
  inside := by simpa using names.inside

theorem withElement_inj (names : machine.Names array index reference type elements position)
    {other : Value} :
    machine.withElement reference type elements position value =
      machine.withElement reference type elements position other ↔ value = other := by
  refine ⟨fun same => ?_, congrArg _⟩
  have contents := (names.withElement value).live
  rw [same, (names.withElement other).live] at contents
  injection contents with contents
  injection contents with _ contents
  have held := congrArg (·[position]?) contents
  simpa [names.inside] using held.symm

theorem popElementAddress_run
    (names : machine.Names array index reference type elements position)
    (instruction : Instruction) (stack : List Value) (context : Context) :
    popElementAddress instruction (index :: array :: stack) context machine =
      .ok (.element reference position, stack) machine := by
  obtain ⟨rfl, live, ⟨number, read, isPosition⟩, inside⟩ := names
  have counted : readHeap (·.length reference) context machine = .ok elements.size machine :=
    readHeap_of_ok (by rw [Heap.length, live]; rfl)
  have inRange : 0 ≤ number ∧ (position : Int) < elements.size := by
    rw [Int64.le_iff_toInt_le, isPosition]
    exact ⟨Int.natCast_nonneg _, Int.ofNat_lt.mpr inside⟩
  simp only [popElementAddress, pop, bind_run, pure_run, read, ofExcept_ok_run, objectOf,
    Value.asObject, counted, isPosition, if_pos inRange, Int.toNat_natCast]

theorem ldelema_takes (names : machine.Names array index reference type elements position)
    (stack : List Value) :
    Opcode.ldelema.Takes machine (index :: array :: stack) machine
      (.pointer (.element reference position) :: stack) := by
  intro site isLdelema
  have addresses : site.instruction.opcode.action? = some .loadElementAddress := isLdelema ▸ rfl
  rw [Site.steps_iff addresses trivial]
  simp only [stepStraight, bind_run, names.popElementAddress_run, pure_run]

theorem ldelem_takes (names : machine.Names array index reference type elements position)
    (found : elements[position]? = some value) (reads : opcode.action? = some .loadElement)
    (stack : List Value) :
    opcode.Takes machine (index :: array :: stack) machine (value :: stack) := by
  rintro site rfl
  rw [Site.steps_iff reads trivial]
  simp only [stepStraight, bind_run, names.popElementAddress_run,
    load_of_holds (.element names.live found), pure_run]

theorem stelem_takes (names : machine.Names array index reference type elements position)
    (writes : opcode.action? = some .storeElement) (value : Value) (stack : List Value) :
    opcode.Takes machine (value :: index :: array :: stack)
      (machine.withElement reference type elements position value) stack := by
  rintro site rfl
  rw [Site.steps_iff writes trivial]
  simp only [stepStraight, pop, bind_run, pure_run, names.popElementAddress_run,
    store_of_stores (.element names.live names.inside), Machine.withElement]

/-- What is read through the address of an element is converted first. -/
theorem ldind_steps_iff (names : machine.Names array index reference type elements position)
    (found : elements[position]? = some value) {width : NumberType} {site : Site}
    (reads : site.instruction.opcode.action? = some (.loadIndirect (some width)))
    {stack : List Value} {loaded : Value} :
    site.Steps machine (.pointer (.element reference position) :: stack) machine
        (loaded :: stack) ↔
      value.convert { target := width } = .ok loaded := by
  rw [Site.steps_iff reads trivial]
  have reading : load (.element reference position) site.context machine = .ok value machine :=
    load_of_holds (.element names.live found)
  simp only [stepStraight, pop, Value.asPointer]
  rw [bind_of_ok (pure_run _), bind_of_ok (ofExcept_ok_run _), bind_of_ok reading, bind_ok_iff]
  simp only [orFault_ok_iff, pure_ok_iff]
  constructor
  · rintro ⟨converted, _, ⟨converts, rfl⟩, same, -⟩
    cases same
    exact converts
  · exact fun converts => ⟨_, _, ⟨converts, rfl⟩, rfl, rfl⟩

/-- What is written through the address of an element is converted first. -/
theorem stind_takes (names : machine.Names array index reference type elements position)
    {width : NumberType} (writes : opcode.action? = some (.storeIndirect (some width)))
    {converted : Value} (converts : value.convert { target := width } = .ok converted)
    (stack : List Value) :
    opcode.Takes machine (value :: .pointer (.element reference position) :: stack)
      (machine.withElement reference type elements position converted) stack := by
  rintro site rfl
  rw [Site.steps_iff writes trivial]
  simp only [stepStraight, popPair, pop, bind_run, pure_run, converts, orFault, Value.asPointer,
    ofExcept_ok_run, store_of_stores (.element names.live names.inside), Machine.withElement]

end Names

end Machine

namespace SizedKind

theorem action?_ldelem (kind : SizedKind) : kind.ldelem.action? = some .loadElement := by
  cases kind <;> rfl

theorem action?_ldind (kind : SizedKind) :
    kind.ldind.action? = some (.loadIndirect (some kind.width)) := by
  cases kind <;> rfl

theorem action?_stelem (kind : SizedKind) : kind.stelem.action? = some .storeElement := by
  cases kind <;> rfl

theorem action?_stind {kind : SizedKind} {opcode : Opcode} (writes : kind.stind? = some opcode) :
    opcode.action? = some (.storeIndirect (some kind.width)) := by
  cases kind <;> cases writes <;> rfl

/-- What accesses to an element at a width do: direct ones, and those through its address, where
`write` is the machine with another element in its place. -/
structure Accesses (kind : SizedKind) (machine : Machine) (array index element : Value)
    (address : Pointer) (write : Value → Machine) (stack : List Value) : Prop where
  loadAddress : Opcode.ldelema.Takes machine (index :: array :: stack) machine
    (.pointer address :: stack)
  loadElement : kind.ldelem.Takes machine (index :: array :: stack) machine (element :: stack)
  /-- Reading through the address truncates. -/
  loadIndirect {integerKind : IntegerKind} {number : Int}
    (isInteger : element.integer? = some (integerKind, number)) :
    kind.ldind.Takes machine (.pointer address :: stack) machine (kind.truncate number :: stack)
  loads_alike_iff {site : Site} (reads : site.instruction.opcode = kind.ldind) :
    site.Steps machine (.pointer address :: stack) machine (element :: stack) ↔ kind.Keeps element
  storeElement (value : Value) :
    kind.stelem.Takes machine (value :: index :: array :: stack) (write value) stack
  /-- Writing through the address truncates. -/
  storeIndirect {opcode : Opcode} (writes : kind.stind? = some opcode) {value : Value}
    {integerKind : IntegerKind} {number : Int}
    (isInteger : value.integer? = some (integerKind, number)) :
    opcode.Takes machine (value :: .pointer address :: stack) (write (kind.truncate number)) stack
  stores_alike_iff {value : Value} {integerKind : IntegerKind} {number : Int}
    (isInteger : value.integer? = some (integerKind, number)) :
    write value = write (kind.truncate number) ↔ kind.Keeps value
  /-- Reading directly what was written directly gives all of it. -/
  loadStored (value : Value) :
    kind.ldelem.Takes (write value) (index :: array :: stack) (write value) (value :: stack)
  truncated_iff {value : Value} {integerKind : IntegerKind} {number : Int}
    (isInteger : value.integer? = some (integerKind, number)) :
    value = kind.truncate number ↔ kind.Keeps value

/-- The accesses to an element at a width agree just on the 32-bit integers that the width
holds: those through the address of the element truncate, and direct ones do not. -/
theorem accesses_elements (kind : SizedKind) {machine : Machine} {array index element : Value}
    {reference : HeapRef} {type : TypeSig} {elements : Array Value} {position : Nat}
    (names : machine.Names array index reference type elements position)
    (found : elements[position]? = some element) (stack : List Value) :
    kind.Accesses machine array index element (.element reference position)
      (machine.withElement reference type elements position) stack where
  loadAddress := names.ldelema_takes stack
  loadElement := names.ldelem_takes found kind.action?_ldelem stack
  loadIndirect isInteger site reads :=
    (names.ldind_steps_iff found (reads ▸ kind.action?_ldind)).mpr (convert_eq isInteger)
  loads_alike_iff reads :=
    (names.ldind_steps_iff found (reads ▸ kind.action?_ldind)).trans convert_eq_self_iff
  storeElement value := names.stelem_takes kind.action?_stelem value stack
  storeIndirect writes _ _ _ isInteger :=
    names.stind_takes (action?_stind writes) (convert_eq isInteger) stack
  stores_alike_iff isInteger := names.withElement_inj.trans (eq_truncate_iff isInteger)
  loadStored value := by
    have stored : (elements.set! position value)[position]? = some value := by
      simp [names.inside]
    exact (names.withElement value).ldelem_takes stored kind.action?_ldelem stack
  truncated_iff isInteger := eq_truncate_iff isInteger

end SizedKind

namespace SmallArray

/-- A machine with an array of one integer, which is zero. -/
def machine : Machine :=
  { (default : Machine) with heap := { objects := #[.array .int32 #[.int32 0]], limit := 0 } }

def holding (value : Value) : Machine :=
  machine.withElement ⟨1⟩ .int32 #[.int32 0] 0 value

theorem names : machine.Names (.object ⟨1⟩) (.int32 0) ⟨1⟩ .int32 #[.int32 0] 0 where
  isArray := rfl
  live := rfl
  isIndex := ⟨0, rfl, rfl⟩
  inside := by decide

/-- A byte is written alike in both ways, and read back. -/
theorem byte_kept :
    Opcode.stelemI1.Takes machine [.int32 100, .int32 0, .object ⟨1⟩] (holding (.int32 100)) [] ∧
      Opcode.stindI1.Takes machine [.int32 100, .pointer (.element ⟨1⟩ 0)]
        (holding (.int32 100)) [] := by
  have accesses := SizedKind.accesses_elements .i1 names rfl []
  have isInteger : (Value.int32 100).integer? = some (.int32, 100) := rfl
  have truncated : Value.int32 100 = SizedKind.i1.truncate 100 :=
    (accesses.truncated_iff isInteger).mpr ⟨100, by decide, rfl⟩
  have written := accesses.storeIndirect rfl isInteger
  rw [← truncated] at written
  exact ⟨accesses.storeElement (.int32 100), written⟩

/-- More than a byte is written in full, or through the address of the element truncated. -/
theorem more_than_byte_truncated :
    Opcode.stelemI1.Takes machine [.int32 511, .int32 0, .object ⟨1⟩] (holding (.int32 511)) [] ∧
      Opcode.stindI1.Takes machine [.int32 511, .pointer (.element ⟨1⟩ 0)]
        (holding (.int32 (-1))) [] ∧
      holding (.int32 511) ≠ holding (.int32 (-1)) := by
  refine ⟨names.stelem_takes rfl _ _, names.stind_takes rfl rfl _, fun same => ?_⟩
  exact absurd (names.withElement_inj.mp same) nofun

end SmallArray

end Cil
