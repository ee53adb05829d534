import Mathlib.Logic.Function.Basic
import Cil.Proofs.Metadata.Subtyping

/-!
# Slot tables

The slots of a type are told from the root of its hierarchy down: a virtual method takes the
newest slot of its name and parameters, unless it asks for a slot of its own or finds none.
The walk of a virtual call goes the other way, from the type of the receiver up, and keeps no
table.  Both give the same method: the walk finds what stands in the slot of the called
method.
-/

namespace Cil

namespace MethodDef

/-- Whether the method takes a slot: the virtual methods of instances do. -/
def takesSlot (method : MethodDef) : Bool :=
  method.isVirtual && !method.isStatic

/-- Whether the method asks for a slot of its own. -/
def isNewSlot (method : MethodDef) : Bool :=
  method.flags.contains MethodModifiers.newSlot

theorem sameShape_iff {first second : MethodDef} :
    first.sameShape second ↔ first.name = second.name ∧ first.params = second.params := by
  simp [sameShape]

@[simp]
theorem sameShape_self (method : MethodDef) : method.sameShape method :=
  sameShape_iff.mpr ⟨rfl, rfl⟩

/-- Methods of one shape have the shapes of the same methods. -/
theorem sameShape_congr {first second : MethodDef} (same : first.sameShape second)
    (method : MethodDef) : method.sameShape first = method.sameShape second := by
  obtain ⟨name, params⟩ := sameShape_iff.mp same
  simp only [sameShape, name, params]

theorem sameShape_comm (first second : MethodDef) :
    first.sameShape second = second.sameShape first := by
  rw [Bool.eq_iff_iff, sameShape_iff, sameShape_iff, eq_comm, @eq_comm _ first.params]

end MethodDef

/-! ## Entering methods into a table -/

/-- The last slot whose method has the shape of a given one. -/
def newestSlot? (shape : MethodDef) : (table : List MethodDef) → Option Nat
  | [] => none
  | entry :: rest =>
    match newestSlot? shape rest with
    | some slot => some (slot + 1)
    | none => if entry.sameShape shape then some 0 else none

/-- The slot that a method enters: the newest one of its shape, or a new one behind the
others. -/
def slotFor (table : List MethodDef) (method : MethodDef) : Nat :=
  if method.isNewSlot then table.length else (newestSlot? method table).getD table.length

/-- Enters a method into the table of the slots that are there so far. -/
def enterSlot (table : List MethodDef) (method : MethodDef) : List MethodDef :=
  if method.takesSlot then
    if slotFor table method < table.length then table.set (slotFor table method) method
    else table ++ [method]
  else table

/-- The slots of one shape, each with its method. -/
def ofShape (shape : MethodDef) (table : List MethodDef) (slot : Nat) : Option MethodDef :=
  table[slot]?.filter (·.sameShape shape)

/-- A slot of a shape is the newest one if no later slot has the shape. -/
def IsNewest (shape : MethodDef) (table : List MethodDef) (slot : Nat) : Prop :=
  (ofShape shape table slot).isSome ∧ ∀ later, slot < later → ofShape shape table later = none

section Tables

variable {shape method entry : MethodDef} {table : List MethodDef} {slot : Nat}

theorem ofShape_eq_some :
    ofShape shape table slot = some entry ↔ table[slot]? = some entry ∧ entry.sameShape shape :=
  Option.filter_eq_some_iff

theorem ofShape_congr (same : method.sameShape shape) :
    ofShape method table = ofShape shape table :=
  funext fun _ => by simp only [ofShape, MethodDef.sameShape_congr same]

/-- Where a method is written, the slots of a shape change there alone. -/
theorem ofShape_set (inside : slot < table.length) :
    ofShape shape (table.set slot method) =
      Function.update (ofShape shape table) slot
        (if method.sameShape shape then some method else none) := by
  funext place
  by_cases here : place = slot
  · subst here
    by_cases same : method.sameShape shape <;> simp [ofShape, inside, same]
  · rw [Function.update_of_ne here]
    simp [ofShape, List.getElem?_set_ne (Ne.symm here)]

theorem ofShape_append :
    ofShape shape (table ++ [method]) =
      Function.update (ofShape shape table) table.length
        (if method.sameShape shape then some method else none) := by
  funext place
  by_cases here : place = table.length
  · subst here
    by_cases same : method.sameShape shape <;> simp [ofShape, same]
  · rw [Function.update_of_ne here]
    simp only [ofShape, List.getElem?_append, List.getElem?_singleton]
    split
    · rfl
    · rw [if_neg (by omega), List.getElem?_eq_none (by omega)]

theorem IsNewest.le (newest : IsNewest shape table slot) {other : Nat}
    (isSlot : (ofShape shape table other).isSome) : other ≤ slot :=
  Nat.le_of_not_lt fun less => by simp [newest.2 other less] at isSlot

theorem IsNewest.unique {other : Nat} (first : IsNewest shape table slot)
    (second : IsNewest shape table other) : slot = other :=
  Nat.le_antisymm (second.le first.1) (first.le second.1)

theorem newestSlot?_cases :
    match newestSlot? shape table with
    | some slot => IsNewest shape table slot
    | none => ∀ slot, ofShape shape table slot = none := by
  induction table with
  | nil => simp [newestSlot?, ofShape]
  | cons entry rest ih =>
      have behind (slot : Nat) :
          ofShape shape (entry :: rest) (slot + 1) = ofShape shape rest slot := rfl
      unfold newestSlot?
      cases further : newestSlot? shape rest with
      | some slot =>
          rw [further] at ih
          refine ⟨ih.1, fun later less => ?_⟩
          obtain ⟨later, rfl⟩ := Nat.exists_eq_add_one.mpr (Nat.zero_lt_of_lt less)
          exact ih.2 later (by omega)
      | none =>
          rw [further] at ih
          by_cases same : entry.sameShape shape
          · simp only [same, if_true]
            refine ⟨by simp [ofShape, same], fun later less => ?_⟩
            obtain ⟨later, rfl⟩ := Nat.exists_eq_add_one.mpr (Nat.zero_lt_of_lt less)
            exact ih later
          · simp only [same]
            intro slot
            cases slot with
            | zero => simp [ofShape, same]
            | succ slot => exact ih slot

theorem slotFor_cases :
    slotFor table method = table.length ∨ IsNewest method table (slotFor table method) := by
  unfold slotFor
  have cases := @newestSlot?_cases method table
  split
  · exact .inl rfl
  · cases found : newestSlot? method table with
    | none => exact .inl rfl
    | some slot =>
        rw [found] at cases
        exact .inr cases

theorem ofShape_length : ofShape shape table table.length = none := by
  simp [ofShape]

theorem ofShape_enterSlot (takes : method.takesSlot) :
    ofShape shape (enterSlot table method) =
      Function.update (ofShape shape table) (slotFor table method)
        (if method.sameShape shape then some method else none) := by
  rw [enterSlot, if_pos takes]
  split
  · exact ofShape_set ‹_›
  · rcases @slotFor_cases method table with behind | ⟨isSlot, _⟩
    · rw [behind, ofShape_append]
    · obtain ⟨entry, found⟩ := Option.isSome_iff_exists.mp isSlot
      exact absurd (List.getElem?_eq_some_iff.mp (ofShape_eq_some.mp found).1).1 ‹_›

/-- A method that takes no slot of a shape leaves the slots of this shape alone. -/
theorem ofShape_enterSlot_other (other : method.takesSlot → ¬ method.sameShape shape) :
    ofShape shape (enterSlot table method) = ofShape shape table := by
  by_cases takes : method.takesSlot
  · have distinct := other takes
    have free : ofShape shape table (slotFor table method) = none := by
      rcases @slotFor_cases method table with behind | ⟨isSlot, _⟩
      · rw [behind, ofShape_length]
      · obtain ⟨entry, found⟩ := Option.isSome_iff_exists.mp isSlot
        obtain ⟨stored, same⟩ := ofShape_eq_some.mp found
        refine Option.eq_none_iff_forall_ne_some.mpr fun holder held => distinct ?_
        obtain ⟨storedHere, sameHere⟩ := ofShape_eq_some.mp held
        obtain rfl := Option.some.inj (stored.symm.trans storedHere)
        rwa [MethodDef.sameShape_comm, ← MethodDef.sameShape_congr same,
          MethodDef.sameShape_comm]
    rw [ofShape_enterSlot takes, if_neg distinct, ← free, Function.update_eq_self]
  · rw [enterSlot, if_neg takes]

/-- The slot that a method has entered is the newest of its shape. -/
theorem isNewest_enterSlot (takes : method.takesSlot) (same : method.sameShape shape) :
    IsNewest shape (enterSlot table method) (slotFor table method) := by
  rw [IsNewest, ofShape_enterSlot takes, if_pos same]
  refine ⟨by simp, fun later less => ?_⟩
  rw [Function.update_of_ne (by omega)]
  rcases @slotFor_cases method table with behind | newest
  · rw [ofShape, List.getElem?_eq_none (by omega), Option.filter_none]
  · rw [← ofShape_congr same]
    exact newest.2 later less

/-- Without a slot of its own, a method takes the newest slot of its shape. -/
theorem isNewest_slotFor (shared : method.isNewSlot = false) (same : method.sameShape shape)
    (isSlot : (ofShape shape table slot).isSome) :
    IsNewest shape table (slotFor table method) := by
  have cases := @newestSlot?_cases method table
  rw [ofShape_congr same] at cases
  simp only [slotFor, shared]
  cases found : newestSlot? method table with
  | none =>
      rw [found] at cases
      simp [cases slot] at isSlot
  | some place =>
      rw [found] at cases
      simpa [IsNewest, ofShape_congr same] using cases

theorem slotFor_of_isNewSlot (own : method.isNewSlot) :
    slotFor table method = table.length :=
  if_pos own

variable {methods : List MethodDef}

/-- Methods that take no slot of a shape leave the slots of this shape alone. -/
theorem ofShape_foldl_enterSlot_other
    (others : ∀ method ∈ methods, method.takesSlot → ¬ method.sameShape shape) :
    ofShape shape (methods.foldl enterSlot table) = ofShape shape table := by
  induction methods generalizing table with
  | nil => rfl
  | cons method methods ih =>
      rw [List.foldl_cons, ih fun other member => others other (List.mem_cons_of_mem _ member),
        ofShape_enterSlot_other (others method List.mem_cons_self)]

/-- What stands in a slot has been entered, or it stood there before. -/
theorem getElem?_foldl_enterSlot
    (stored : (methods.foldl enterSlot table)[slot]? = some entry) :
    (entry ∈ methods ∧ entry.takesSlot) ∨ table[slot]? = some entry := by
  induction methods generalizing table with
  | nil => exact .inr stored
  | cons method methods ih =>
      rcases ih stored with ⟨member, takes⟩ | before
      · exact .inl ⟨List.mem_cons_of_mem _ member, takes⟩
      · by_cases takes : method.takesSlot
        · have held : ofShape entry (enterSlot table method) slot = some entry :=
            ofShape_eq_some.mpr ⟨before, entry.sameShape_self⟩
          rw [ofShape_enterSlot takes, Function.update_apply] at held
          split at held
          · split at held
            · cases held
              exact .inl ⟨List.mem_cons_self, takes⟩
            · cases held
          · exact .inr (ofShape_eq_some.mp held).1
        · rw [enterSlot, if_neg takes] at before
          exact .inr before

end Tables

/-! ## The methods of one type -/

/-- At most one method for each shape takes a slot. -/
def DistinctShapes (methods : List MethodDef) : Prop :=
  methods.Pairwise fun first second =>
    first.takesSlot → second.takesSlot → ¬ first.sameShape second

instance (methods : List MethodDef) : Decidable (DistinctShapes methods) :=
  inferInstanceAs (Decidable (methods.Pairwise _))

/-- Among some methods, one takes a slot of a shape and the others do not. -/
structure Alone (shape : MethodDef) (methods : List MethodDef) (method : MethodDef) : Prop where
  takes : method.takesSlot
  sameShape : method.sameShape shape
  split : ∃ before after, methods = before ++ method :: after ∧
    ∀ other ∈ before ++ after, other.takesSlot → ¬ other.sameShape shape

section Methods

variable {shape method : MethodDef} {methods table : List MethodDef} {slot : Nat}

theorem DistinctShapes.alone (distinct : DistinctShapes methods) (member : method ∈ methods)
    (takes : method.takesSlot) (sameShape : method.sameShape shape) :
    Alone shape methods method := by
  obtain ⟨before, after, rfl⟩ := List.append_of_mem member
  refine ⟨takes, sameShape, before, after, rfl, fun other inOthers otherTakes same => ?_⟩
  obtain ⟨_, behind, front⟩ := List.pairwise_append.mp distinct
  rcases List.mem_append.mp inOthers with earlier | later
  · have alike : other.sameShape method :=
      (MethodDef.sameShape_congr sameShape other).trans same
    exact front other earlier method List.mem_cons_self otherTakes takes alike
  · have alike : method.sameShape other :=
      (MethodDef.sameShape_congr same method).trans sameShape
    exact (List.pairwise_cons.mp behind).1 other later takes otherTakes alike

/-- What entering a method does to the slots of its shape. -/
structure Entered (shape method : MethodDef) (table entered : List MethodDef) (place : Nat) :
    Prop where
  update : ofShape shape entered = Function.update (ofShape shape table) place (some method)
  newest : IsNewest shape entered place
  own : method.isNewSlot → ofShape shape table place = none
  shared : method.isNewSlot = false →
    ∀ slot, (ofShape shape table slot).isSome → IsNewest shape table place

/-- The other methods do not matter for the slots of the shape. -/
theorem Alone.entered (alone : Alone shape methods method) (table : List MethodDef) :
    ∃ place, Entered shape method table (methods.foldl enterSlot table) place := by
  obtain ⟨before, after, rfl, others⟩ := alone.split
  have front : ofShape shape (before.foldl enterSlot table) = ofShape shape table :=
    ofShape_foldl_enterSlot_other fun other member =>
      others other (List.mem_append_left _ member)
  generalize startEq : before.foldl enterSlot table = start at front
  have behind : ofShape shape ((before ++ method :: after).foldl enterSlot table) =
      ofShape shape (enterSlot start method) := by
    rw [List.foldl_append, List.foldl_cons, startEq]
    exact ofShape_foldl_enterSlot_other fun other member =>
      others other (List.mem_append_right _ member)
  refine ⟨slotFor start method, ?_, ?_, fun own => ?_, fun shared slot isSlot => ?_⟩
  · rw [behind, ofShape_enterSlot alone.takes, if_pos alone.sameShape, front]
  · rw [IsNewest, behind]
    exact isNewest_enterSlot alone.takes alone.sameShape
  · rw [← front, slotFor_of_isNewSlot own, ofShape_length]
  · rw [← front] at isSlot
    rw [IsNewest, ← front]
    exact isNewest_slotFor shared alone.sameShape isSlot

/-- What the walk of a virtual call takes from one type. -/
theorem slotStep_cases (shape : MethodDef) (distinct : DistinctShapes methods) :
    (Module.slotStep shape methods = .unchanged ∧
      ∀ method ∈ methods, method.takesSlot → ¬ method.sameShape shape) ∨
    ∃ method, Alone shape methods method ∧
      Module.slotStep shape methods =
        if method.isNewSlot then .hidden else .filled method := by
  unfold Module.slotStep
  cases found : methods.find? fun candidate =>
      !candidate.isStatic && candidate.sameShape shape && candidate.isVirtual with
  | none =>
      refine .inl ⟨rfl, fun method member takes same => ?_⟩
      have passed := List.find?_eq_none.mp found method member
      obtain ⟨isVirtual, isInstance⟩ := Bool.and_eq_true_iff.mp takes
      exact passed (by simp only [isInstance, same, isVirtual, Bool.and_self])
  | some method =>
      have holds := List.find?_some found
      simp only [Bool.and_eq_true] at holds
      refine .inr ⟨method, distinct.alone (List.mem_of_find?_eq_some found) ?_ holds.1.2, rfl⟩
      exact Bool.and_eq_true_iff.mpr ⟨holds.2, holds.1.1⟩

end Methods

namespace Module

variable {module : Module}

/-! ## The slots of a type -/

/-- The slots of a type, each with the method that stands in it: those of its base type,
into which the type enters its own methods. -/
def slotTable (module : Module) (type : Token) : List MethodDef :=
  ((module.baseChain type).reverse.flatMap module.methodsOf).foldl enterSlot []

theorem Tables.slotTable_eq (tables : module.Tables) (type : Token) :
    module.slotTable type =
      (module.methodsOf type).foldl enterSlot
        (((module.baseOf? type).map module.slotTable).getD []) := by
  unfold slotTable
  rw [tables.baseChain_eq]
  cases module.baseOf? type with
  | none => simp
  | some base => simp [List.foldl_append]

/-- A method that stands in a slot stands there from its declaring type on. -/
theorem Tables.getElem?_slotTable (tables : module.Tables) {type : Token} {slot : Nat}
    {entry : MethodDef} (stored : (module.slotTable type)[slot]? = some entry) :
    entry ∈ module.methodsOf entry.declaringType ∧ entry.takesSlot ∧
      entry.declaringType ∈ module.baseChain type ∧
      (module.slotTable entry.declaringType)[slot]? = some entry := by
  induction type using tables.baseInduction with | step type baseHolds => ?_
  have unfolded := stored
  rw [tables.slotTable_eq] at unfolded
  rcases getElem?_foldl_enterSlot unfolded with ⟨member, takes⟩ | before
  · obtain rfl := declaringType_of_mem_methodsOf member
    exact ⟨member, takes, tables.baseChain_eq entry.declaringType ▸ List.mem_cons_self, stored⟩
  · cases baseEq : module.baseOf? type with
    | none => simp [baseEq] at before
    | some base =>
        rw [baseEq] at before
        obtain ⟨member, takes, onChain, stands⟩ := baseHolds base baseEq before
        refine ⟨member, takes, ?_, stands⟩
        rw [tables.baseChain_eq, baseEq]
        exact List.mem_cons_of_mem _ onChain

/-- A type does not stand on the chain of its base type. -/
theorem Tables.not_mem_baseChain_base (tables : module.Tables) {type base : Token}
    (baseEq : module.baseOf? type = some base) : type ∉ module.baseChain base := by
  intro onChain
  obtain ⟨definition, known, isBase⟩ := baseOf?_eq_some.mp baseEq
  have edge : module.BuildsOn type base := ⟨definition, known, base_mem_parents isBase⟩
  rcases Relation.reflTransGen_iff_eq_or_transGen.mp
      (tables.isSubtypeOf_iff.mp (tables.isSubtypeOf_of_mem_baseChain onChain)) with
    rfl | path
  · exact Nat.lt_irrefl _ (tables.row_lt edge)
  · exact Nat.lt_irrefl _ (tables.row_lt_of_transGen (.head edge path))

/-- A method that takes a slot of its type has one, the newest of its shape. -/
theorem Tables.slot_of_declared (tables : module.Tables) {owner : Token} {method : MethodDef}
    (distinct : DistinctShapes (module.methodsOf owner))
    (declared : method ∈ module.methodsOf owner) (takes : method.takesSlot) :
    ∃ slot, IsNewest method (module.slotTable owner) slot ∧
      ∀ place, (module.slotTable owner)[place]? = some method ↔ place = slot := by
  have held (table : List MethodDef) (place : Nat) :
      table[place]? = some method ↔ ofShape method table place = some method := by
    simp [ofShape_eq_some]
  have fresh (place : Nat) :
      ofShape method (((module.baseOf? owner).map module.slotTable).getD []) place ≠
        some method := by
    intro stands
    cases baseEq : module.baseOf? owner with
    | none => simp [baseEq, ofShape] at stands
    | some base =>
        rw [baseEq] at stands
        obtain ⟨_, _, onChain, _⟩ := tables.getElem?_slotTable ((held _ _).mpr stands)
        rw [declaringType_of_mem_methodsOf declared] at onChain
        exact tables.not_mem_baseChain_base baseEq onChain
  rw [tables.slotTable_eq]
  obtain ⟨slot, entered⟩ := (distinct.alone declared takes method.sameShape_self).entered _
  refine ⟨slot, entered.newest, fun place => ?_⟩
  rw [held, entered.update]
  by_cases here : place = slot
  · simp [here]
  · simp [here, fresh place]

/-! ## The walk of a virtual call -/

/-- The walk for a method of a class, from a type below it: it goes on at the base type. -/
theorem Tables.resolveFrom_base (tables : module.Tables) {wanted : MethodDef}
    {type base : Token} (apart : type ≠ wanted.declaringType)
    (baseEq : module.baseOf? type = some base) (found? : Option MethodDef) :
    module.resolveFrom wanted false type found? =
      module.resolveFrom wanted false base
        ((slotStep wanted (module.methodsOf type)).apply found?) := by
  obtain ⟨definition, known, isBase⟩ := baseOf?_eq_some.mp baseEq
  have none : (module.methodsOf type).find? (fun candidate =>
      false && !candidate.isStatic && candidate.sameShape wanted) = none :=
    List.find?_eq_none.mpr fun _ _ => by simp
  rw [tables.resolveFrom_eq, if_neg apart, none]
  simp [known, isBase, Except.bind]

/-- What the walk for a method makes of the slot of this method on a type: the walk finds
what stands in the slot, and what it has found further down stands if the slot is the newest
of its shape. -/
structure ReadsSlot (module : Module) (method : MethodDef) (slot : Nat) (type : Token)
    (entry : MethodDef) : Prop where
  stands : ofShape method (module.slotTable type) slot = some entry
  resolves : module.resolveFrom method false type none = .ok entry
  found : IsNewest method (module.slotTable type) slot →
    ∀ found, module.resolveFrom method false type (some found) = .ok found
  hidden : ¬ IsNewest method (module.slotTable type) slot →
    ∀ found, module.resolveFrom method false type (some found) = .ok entry

/-- At the declaring type the walk ends. -/
theorem Tables.readsSlot_owner (tables : module.Tables) {method : MethodDef} {slot : Nat}
    (stored : (module.slotTable method.declaringType)[slot]? = some method)
    (newest : IsNewest method (module.slotTable method.declaringType) slot) :
    module.ReadsSlot method slot method.declaringType method := by
  have ends (found? : Option MethodDef) :
      module.resolveFrom method false method.declaringType found? =
        .ok (found?.getD method) := by
    rw [tables.resolveFrom_eq, if_pos rfl]
  exact ⟨ofShape_eq_some.mpr ⟨stored, method.sameShape_self⟩, ends none,
    fun _ found => ends (some found), fun older => absurd newest older⟩

/-- One step of the walk: what the type enters into the table of its base type is what the
walk takes from the type. -/
theorem Tables.readsSlot_step (tables : module.Tables) {method entry : MethodDef} {slot : Nat}
    {type base : Token} (distinct : DistinctShapes (module.methodsOf type))
    (apart : type ≠ method.declaringType) (baseEq : module.baseOf? type = some base)
    (above : module.ReadsSlot method slot base entry) :
    ∃ entry, module.ReadsSlot method slot type entry := by
  have walk := tables.resolveFrom_base apart baseEq
  have tableEq : module.slotTable type =
      (module.methodsOf type).foldl enterSlot (module.slotTable base) := by
    rw [tables.slotTable_eq, baseEq, Option.map_some, Option.getD_some]
  have isSlot : (ofShape method (module.slotTable base) slot).isSome := by
    rw [above.stands, Option.isSome_some]
  rcases slotStep_cases method distinct with
    ⟨step, others⟩ | ⟨candidate, alone, step⟩
  · -- The type has nothing to enter.
    have same : ofShape method (module.slotTable type) =
        ofShape method (module.slotTable base) := by
      rw [tableEq, ofShape_foldl_enterSlot_other others]
    simp only [step, SlotStep.apply] at walk
    refine ⟨entry, ?_, ?_, ?_, ?_⟩
    · rw [same, above.stands]
    · rw [walk, above.resolves]
    · intro newest found
      rw [IsNewest, same] at newest
      rw [walk, above.found newest]
    · intro older found
      rw [IsNewest, same] at older
      rw [walk, above.hidden older]
  · obtain ⟨place, entered⟩ := alone.entered (module.slotTable base)
    rw [← tableEq] at entered
    cases own : candidate.isNewSlot with
    | true =>
        -- The candidate gets a slot of its own, which hides all others of the shape.
        have elsewhere : slot ≠ place := by
          rintro rfl
          simp [entered.own own] at isSlot
        simp only [step, own, if_true, SlotStep.apply] at walk
        refine ⟨entry, ?_, ?_, ?_, ?_⟩
        · rw [entered.update, Function.update_of_ne elsewhere, above.stands]
        · rw [walk, above.resolves]
        · exact fun newest _ => absurd (newest.unique entered.newest) elsewhere
        · intro _ found
          rw [walk, above.resolves]
    | false =>
        have newestAbove := entered.shared own slot isSlot
        simp only [step, own, Bool.false_eq_true, if_false, SlotStep.apply] at walk
        by_cases here : slot = place
        · -- The candidate takes the slot.
          subst here
          refine ⟨candidate, ?_, ?_, ?_, ?_⟩
          · rw [entered.update, Function.update_self]
          · rw [walk, Option.getD_none, above.found newestAbove]
          · intro _ found
            rw [walk, Option.getD_some, above.found newestAbove]
          · exact fun older => absurd entered.newest older
        · -- The candidate takes a newer slot.
          have olderAbove : ¬ IsNewest method (module.slotTable base) slot :=
            fun newest => here (newest.unique newestAbove)
          refine ⟨entry, ?_, ?_, ?_, ?_⟩
          · rw [entered.update, Function.update_of_ne here, above.stands]
          · rw [walk, Option.getD_none, above.hidden olderAbove]
          · exact fun newest _ => absurd (newest.unique entered.newest) here
          · intro _ found
            rw [walk, above.hidden olderAbove]

/-- The walk for a method of a class reads the slot of the method, from every type below. -/
theorem Tables.readsSlot (tables : module.Tables)
    (distinct : ∀ type, DistinctShapes (module.methodsOf type)) {method : MethodDef}
    {slot : Nat} {type : Token}
    (stored : (module.slotTable method.declaringType)[slot]? = some method)
    (derives : method.declaringType ∈ module.baseChain type) :
    ∃ entry, module.ReadsSlot method slot type entry := by
  induction type using tables.baseInduction with | step type baseHolds => ?_
  by_cases ended : type = method.declaringType
  · subst ended
    obtain ⟨member, takes, _⟩ := tables.getElem?_slotTable stored
    obtain ⟨newest, isNewest, unique⟩ := tables.slot_of_declared (distinct _) member takes
    obtain rfl := (unique slot).mp stored
    exact ⟨method, tables.readsSlot_owner stored isNewest⟩
  · rw [tables.baseChain_eq] at derives
    have further := (List.mem_cons.mp derives).resolve_left fun same => ended same.symm
    cases baseEq : module.baseOf? type with
    | none => simp [baseEq] at further
    | some base =>
        rw [baseEq] at further
        obtain ⟨entry, above⟩ := baseHolds base baseEq further
        exact tables.readsSlot_step (distinct type) ended baseEq above

/-! ## Slots of classes -/

/-- Interfaces have no base type. -/
def Rootless (module : Module) : Prop :=
  ∀ type ∈ module.types, type.isInterface → type.base? = none

theorem Rootless.stable : Stable Rootless where
  type rootless _ _ ofType other member := by
    rcases Array.mem_push.mp member with old | rfl
    · exact rootless other old
    · exact ofType
  method rootless _ _ _ := rootless
  field rootless _ := rootless
  string _ rootless := rootless
  signature _ rootless := rootless
  instantiation _ rootless := rootless
  body _ rootless _ _ := rootless

theorem Rootless.initial : Rootless Module.initial := by
  unfold Rootless
  decide +kernel

/-- What has a base type is no interface. -/
theorem Rootless.isInterface_eq_false (rootless : module.Rootless) {type base : Token}
    (baseEq : module.baseOf? type = some base) : module.isInterface type = false := by
  obtain ⟨definition, known, isBase⟩ := baseOf?_eq_some.mp baseEq
  obtain ⟨index, _, place⟩ := typeDef_eq_ok.mp known
  have isClass : ¬ definition.isInterface := fun isInterface => by
    simp [rootless definition (Array.mem_of_getElem? place) isInterface] at isBase
  simpa [isInterface, known] using isClass

/-- If no type has two virtual methods of one name and parameters, then a virtual call of a
method that a class declares runs, on every type that is this class or derives from it, what
stands in the slot of the method, and a virtual call of that method runs it again. -/
theorem resolveVirtual_reads_slotTable (reachable : module.Reachable)
    (distinct : ∀ type, DistinctShapes (module.methodsOf type)) {owner type : Token}
    {method : MethodDef} (isClass : module.isInterface owner = false)
    (declared : method ∈ module.methodsOf owner) (isVirtual : method.isVirtual)
    (isInstance : method.isStatic = false) (derives : owner ∈ module.baseChain type) :
    ∃ (slot : Nat) (entry : MethodDef),
      (∀ place, (module.slotTable owner)[place]? = some method ↔ place = slot) ∧
      (module.slotTable type)[slot]? = some entry ∧
      module.resolveVirtual type method = .ok entry ∧
      module.resolveVirtual type entry = .ok entry := by
  have tables := reachable.tables
  have rootless := Rootless.stable.of_reachable Rootless.initial reachable
  have walkOf {wanted : MethodDef} (takes : wanted.takesSlot)
      (ofClass : module.isInterface wanted.declaringType = false) :
      module.resolveVirtual type wanted = module.resolveFrom wanted false type none := by
    obtain ⟨isVirtual, isInstance⟩ := Bool.and_eq_true_iff.mp takes
    rw [resolveVirtual_eq (by simpa using isInstance) (by simp [isVirtual]), ofClass]
  have takes : method.takesSlot := by simp [MethodDef.takesSlot, isVirtual, isInstance]
  obtain ⟨slot, newest, unique⟩ := tables.slot_of_declared (distinct owner) declared takes
  obtain rfl := declaringType_of_mem_methodsOf declared
  obtain ⟨entry, reads⟩ := tables.readsSlot distinct ((unique slot).mpr rfl) derives
  have stored := (ofShape_eq_some.mp reads.stands).1
  refine ⟨slot, entry, unique, stored, (walkOf takes isClass).trans reads.resolves, ?_⟩
  -- The method in the slot stands there from its own type on, so its walk reads the slot too.
  obtain ⟨_, entryTakes, entryDerives, entryStored⟩ := tables.getElem?_slotTable stored
  have entryOfClass : module.isInterface entry.declaringType = false := by
    rcases tables.resolveFrom_cases reads.resolves with rfl | fills
    · exact isClass
    · have below := fills.below derives
      rw [tables.baseChain_eq] at below
      have further := (List.mem_cons.mp below).resolve_left fun same => fills.apart same.symm
      cases baseEq : module.baseOf? entry.declaringType with
      | none => simp [baseEq] at further
      | some base => exact rootless.isInterface_eq_false baseEq
  obtain ⟨again, readsAgain⟩ := tables.readsSlot distinct entryStored entryDerives
  obtain rfl := Option.some.inj (stored.symm.trans (ofShape_eq_some.mp readsAgain.stands).1)
  exact (walkOf entryTakes entryOfClass).trans readsAgain.resolves

end Module

namespace Vehicles

open Stateful

def base : Token := .ofRow .typeDef 18
def middle : Token := .ofRow .typeDef 19
def derived : Token := .ofRow .typeDef 20

def move (flags : MethodModifiers) : MethodDeclaration :=
  { name := "Move", flags := MethodModifiers.isVirtual ||| flags }

/-- A class and two below it, of which the first overrides the method of the class and the
second has a new method of its name. -/
def module : Module :=
  finalState (Module.declareMethod derived (move MethodModifiers.newSlot) (finalState
    (Module.declareMethod middle (move Flags.empty) (finalState
      (Module.declareMethod base (move MethodModifiers.newSlot) (finalState
        (Module.declareType { space := "Demo", name := "Tram", base? := some middle } (finalState
          (Module.declareType { space := "Demo", name := "Train", base? := some base } (finalState
            (Module.declareType { space := "Demo", name := "Vehicle" } Module.initial)))))))))))

theorem module_reachable : module.Reachable :=
  .declareMethod _ _ (.declareMethod _ _ (.declareMethod _ _ (.declareType _ (.declareType _
    (.declareType _ .initial)))))

/-- The methods of all types together tell whether each type has distinct ones. -/
theorem distinct_of_methods {module : Module}
    (distinct : module.methods.toList.Pairwise fun first second =>
      first.declaringType = second.declaringType →
        first.takesSlot → second.takesSlot → ¬ first.sameShape second) (type : Token) :
    DistinctShapes (module.methodsOf type) := by
  refine List.Pairwise.imp_of_mem ?_ (distinct.filter _)
  intro first second firstMember secondMember apart
  exact apart ((Module.declaringType_of_mem_methodsOf firstMember).trans
    (Module.declaringType_of_mem_methodsOf secondMember).symm)

def method (row : Nat) : MethodDef :=
  ((module.method (.ofRow .methodDef row)).toOption).getD default

/-- The new method of the lowest class does not stand in the slot of the highest. -/
theorem tram_moves_as_train :
    ∃ slot : Nat, (module.slotTable base)[slot]? = some (method 26) ∧
      (module.slotTable derived)[slot]? = some (method 27) ∧
      module.resolveVirtual derived (method 26) = .ok (method 27) ∧
      module.resolveVirtual derived (method 27) = .ok (method 27) := by
  obtain ⟨slot, entry, unique, stored, resolves, again⟩ :=
    @Module.resolveVirtual_reads_slotTable module module_reachable
      (distinct_of_methods (by decide +kernel)) base derived (method 26) (by decide +kernel)
      (by decide +kernel) (by decide +kernel) (by decide +kernel) (by decide +kernel)
  have found : (module.resolveVirtual derived (method 26)).toOption = some (method 27) := by
    decide +kernel
  rw [resolves] at found
  obtain rfl := Option.some.inj found
  exact ⟨slot, (unique slot).mpr rfl, stored, resolves, again⟩

end Vehicles

end Cil
