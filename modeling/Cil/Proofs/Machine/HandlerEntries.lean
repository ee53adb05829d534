import Cil.Proofs.Code.MaxStack
import Cil.Proofs.Machine.CaughtExceptions
import Cil.Proofs.Machine.UnwindingOrder

/-!
# How handlers are entered

In code that lets no other way into the handlers that receive exceptions than the delivery of an
exception, something has been delivered to every such handler that control is in.  Between that
delivery and now control has not left the handler, and what was delivered since to handlers that
control is still in was delivered to handlers inside of it.

This is kept from one instruction to the next, and when exceptions are delivered.  The execution
of a finally, fault or filter block does not disturb it, as far as the block can see the clause:
the handlers that are entered in the block lie in the block, which control is outside of.
-/

namespace Cil

/-! ## Blocks -/

namespace Block

/-- Whether a position lies in the block. -/
def contains (block : Block) (position : Nat) : Bool :=
  block.start ≤ position && position < block.stop

/-- A block lies in another one. -/
def Within (inner outer : Block) : Prop :=
  outer.start ≤ inner.start ∧ inner.stop ≤ outer.stop

instance (inner outer : Block) : Decidable (inner.Within outer) :=
  inferInstanceAs (Decidable (_ ∧ _))

theorem Within.trans {inner middle outer : Block} (first : inner.Within middle)
    (second : middle.Within outer) : inner.Within outer :=
  ⟨Nat.le_trans second.1 first.1, Nat.le_trans first.2 second.2⟩

theorem Within.antisymm {first second : Block} (forward : first.Within second)
    (backward : second.Within first) : first = second := by
  cases first
  cases second
  exact Block.mk.injEq .. ▸
    ⟨Nat.le_antisymm backward.1 forward.1, Nat.le_antisymm forward.2 backward.2⟩

theorem Within.contains {inner outer : Block} (within : inner.Within outer) {position : Nat}
    (contains : inner.contains position) : outer.contains position := by
  simp only [Block.contains, Bool.and_eq_true, decide_eq_true_eq] at contains ⊢
  unfold Within at within
  omega

/-- An execution is restricted to what another one is restricted to, or to less. -/
def Narrows (inner? outer? : Option Block) : Prop :=
  ∀ outer ∈ outer?, ∃ inner ∈ inner?, inner.Within outer

theorem Narrows.refl (block? : Option Block) : Narrows block? block? :=
  fun block same => ⟨block, same, Nat.le_refl _, Nat.le_refl _⟩

theorem Narrows.trans {inner? middle? outer? : Option Block} (first : Narrows inner? middle?)
    (second : Narrows middle? outer?) : Narrows inner? outer? := by
  intro outer isOuter
  obtain ⟨middle, isMiddle, inOuter⟩ := second outer isOuter
  obtain ⟨inner, isInner, inMiddle⟩ := first middle isMiddle
  exact ⟨inner, isInner, inMiddle.trans inOuter⟩

end Block

namespace Clause

/-- Whether the handler receives exceptions: that of a catch clause, or that behind a filter. -/
def isReceiver (clause : Clause) : Bool :=
  clause.kind == .catchClause || clause.kind == .filterClause

theorem not_isReceiver {clause : Clause} (termination : clause.isTermination) :
    clause.isReceiver = false := by
  unfold isTermination at termination
  unfold isReceiver
  cases kind : clause.kind <;> rw [kind] at termination <;> first | rfl | cases termination

/-- The blocks of a clause: the handler, and the filter if there is one. -/
def blocks (clause : Clause) : List Block :=
  clause.handlerBlock :: if clause.kind = .filterClause then [clause.filterBlock] else []

theorem handlerBlock_mem_blocks (clause : Clause) : clause.handlerBlock ∈ clause.blocks :=
  List.mem_cons_self

theorem contains_handlerBlock (clause : Clause) (position : Nat) :
    clause.handlerBlock.contains position = clause.inHandler position :=
  rfl

/-- Clauses with the same handler. -/
theorem inHandler_congr {first second : Clause} (same : first.handlerBlock = second.handlerBlock)
    (position : Nat) : first.inHandler position = second.inHandler position := by
  rw [← contains_handlerBlock, ← contains_handlerBlock, same]

/-- Whether control gets into a handler that receives exceptions. -/
def enters (clause : Clause) (origin target : Nat) : Bool :=
  clause.isReceiver && !clause.inHandler origin && clause.inHandler target

/-- Whether control gets out of the handler. -/
def exits (clause : Clause) (origin target : Nat) : Bool :=
  clause.inHandler origin && !clause.inHandler target

/-- Control gets into no handler that receives exceptions. -/
def NoEntry (clauses : List Clause) (origin target : Nat) : Prop :=
  ∀ clause ∈ clauses, clause.enters origin target = false

instance (clauses : List Clause) (origin target : Nat) :
    Decidable (NoEntry clauses origin target) :=
  inferInstanceAs (Decidable (∀ _ ∈ clauses, _))

theorem NoEntry.inHandler {clauses : List Clause} {origin target : Nat}
    (noEntry : NoEntry clauses origin target) {clause : Clause} (member : clause ∈ clauses)
    (receiver : clause.isReceiver) (inside : clause.inHandler target) :
    clause.inHandler origin := by
  have outside := noEntry clause member
  unfold enters at outside
  rw [receiver, inside] at outside
  simpa using outside

/-- Tables of clauses that nest: regions do, no guarded range overlaps its own handler or filter,
and what guards a part of a block is handled in the block. -/
structure WellNested (clauses : List Clause) : Prop where
  nest : Nest clauses
  apart : ∀ clause ∈ clauses, ∀ block ∈ clause.blocks,
    clause.tryEnd ≤ block.start ∨ block.stop ≤ clause.tryOffset
  within : ∀ clause ∈ clauses, ∀ block ∈ clause.blocks, ∀ other ∈ clauses,
    other.tryOffset < other.tryEnd → block.holds other →
      ∀ inner ∈ other.blocks, inner.Within block

instance (clauses : List Clause) : Decidable (WellNested clauses) :=
  decidable_of_iff
    (Nest clauses ∧
      (∀ clause ∈ clauses, ∀ block ∈ clause.blocks,
        clause.tryEnd ≤ block.start ∨ block.stop ≤ clause.tryOffset) ∧
      ∀ clause ∈ clauses, ∀ block ∈ clause.blocks, ∀ other ∈ clauses,
        other.tryOffset < other.tryEnd → block.holds other →
          ∀ inner ∈ other.blocks, inner.Within block)
    ⟨fun ⟨nest, apart, within⟩ => ⟨nest, apart, within⟩,
      fun ⟨nest, apart, within⟩ => ⟨nest, apart, within⟩⟩

theorem nonempty_of_covers {clause : Clause} {position : Nat} (covers : clause.covers position) :
    clause.tryOffset < clause.tryEnd := by
  simp only [Clause.covers, Bool.and_eq_true, decide_eq_true_eq] at covers
  omega

theorem WellNested.not_contains {clauses : List Clause} (nested : WellNested clauses)
    {clause : Clause} (member : clause ∈ clauses) {block : Block} (isBlock : block ∈ clause.blocks)
    {position : Nat} (covers : clause.covers position) : ¬ block.contains position := by
  intro contains
  have apart := nested.apart clause member block isBlock
  simp only [Clause.covers, Block.contains, Bool.and_eq_true, decide_eq_true_eq]
    at covers contains
  omega

/-- Of two handlers that control is in, one lies in the other. -/
theorem WellNested.handlers_within {clauses : List Clause} (nested : WellNested clauses)
    {first second : Clause} (isFirst : first ∈ clauses) (isSecond : second ∈ clauses)
    {position : Nat} (inFirst : first.inHandler position) (inSecond : second.inHandler position) :
    first.handlerBlock.Within second.handlerBlock ∨
      second.handlerBlock.Within first.handlerBlock := by
  have nests := nested.nest _
    (List.mem_flatMap.mpr ⟨first, isFirst, List.mem_cons_of_mem _ List.mem_cons_self⟩) _
    (List.mem_flatMap.mpr ⟨second, isSecond, List.mem_cons_of_mem _ List.mem_cons_self⟩)
  simp only [Clause.inHandler, Bool.and_eq_true, decide_eq_true_eq] at inFirst inSecond
  unfold Block.Within handlerBlock
  dsimp only
  omega

/-- An execution is restricted to a block of one of the clauses, if at all. -/
def IsBlock (clauses : List Clause) (block? : Option Block) : Prop :=
  ∀ block ∈ block?, ∃ clause ∈ clauses, block ∈ clause.blocks

theorem isBlock_none (clauses : List Clause) : IsBlock clauses none := nofun

theorem isBlock_some {clauses : List Clause} {clause : Clause} (member : clause ∈ clauses)
    {block : Block} (isBlock : block ∈ clause.blocks) : IsBlock clauses (some block) := by
  rintro _ ⟨⟩
  exact ⟨clause, member, isBlock⟩

/-- The blocks of a clause lie in the block that an execution with the clause is restricted to. -/
theorem WellNested.narrows {clauses : List Clause} (nested : WellNested clauses)
    {block? : Option Block} (isBlock : IsBlock clauses block?) {clause : Clause}
    (member : clause ∈ clauses) (filled : clause.tryOffset < clause.tryEnd)
    (visible : clause.isVisible block?) {block : Block} (inner : block ∈ clause.blocks) :
    Block.Narrows (some block) block? := by
  rintro outer ⟨⟩
  obtain ⟨other, isOther, isOuter⟩ := isBlock outer rfl
  exact ⟨block, rfl, nested.within other isOther outer isOuter clause member filled visible block
    inner⟩

theorem isVisible_of_narrows {inner? outer? : Option Block} (narrows : Block.Narrows inner? outer?)
    {clause : Clause} (visible : clause.isVisible inner?) : clause.isVisible outer? := by
  cases outer? with
  | none => rfl
  | some outer =>
      obtain ⟨inner, rfl, within⟩ := narrows outer rfl
      have holds : inner.holds clause := visible
      simp only [Block.holds, Bool.and_eq_true, decide_eq_true_eq] at holds
      unfold Block.Within at within
      simp only [isVisible, Block.holds, Bool.and_eq_true, decide_eq_true_eq]
      omega

/-- Control that falls through from an instruction to the next one gets into no handler that
receives exceptions. -/
def NoFall (clauses : List Clause) (first second : Instruction) : Prop :=
  first.opcode.flow.fallsThrough →
    NoEntry clauses (positionOf first.offset) (positionOf second.offset)

instance (clauses : List Clause) : DecidableRel (NoFall clauses) :=
  fun _ _ => instDecidableForall

/-- When a block of a clause begins control gets into no handler that receives exceptions, but with
the handler of the clause into that handler if it does. -/
def NoOtherEntry (clauses : List Clause) (clause : Clause) : Prop :=
  clause.tryOffset < clause.tryEnd → ∀ block ∈ clause.blocks, ∀ other ∈ clauses,
    other.isReceiver → other.inHandler (positionOf block.start) →
      (other.handlerOffset ≤ clause.tryOffset ∧ clause.tryEnd ≤ other.handlerEnd) ∨
      (clause.isReceiver ∧ block = clause.handlerBlock ∧
        other.handlerBlock = clause.handlerBlock)

instance (clauses : List Clause) : DecidablePred (NoOtherEntry clauses) :=
  fun _ => instDecidableForall

end Clause

namespace MethodCode

open Clause

/-- No handler that receives exceptions is entered but by the delivery of an exception.  Control
neither starts in one, nor falls or jumps into one, nor gets into one when a filter, a finally or
a fault handler begins. -/
structure EnteredByDispatch (code : MethodCode) : Prop where
  start : ∀ clause ∈ code.clauses, clause.isReceiver → clause.inHandler 0 = false
  falls : code.instructions.toList.IsChain (NoFall code.clauses)
  jumps : ∀ instruction ∈ code.instructions.toList, ∀ target ∈ instruction.targets,
    NoEntry code.clauses (positionOf instruction.offset) (positionOf target)
  blocks : ∀ clause ∈ code.clauses, NoOtherEntry code.clauses clause

instance (code : MethodCode) : Decidable code.EnteredByDispatch :=
  decidable_of_iff
    ((∀ clause ∈ code.clauses, clause.isReceiver → clause.inHandler 0 = false) ∧
      code.instructions.toList.IsChain (NoFall code.clauses) ∧
      (∀ instruction ∈ code.instructions.toList, ∀ target ∈ instruction.targets,
        NoEntry code.clauses (positionOf instruction.offset) (positionOf target)) ∧
      ∀ clause ∈ code.clauses, NoOtherEntry code.clauses clause)
    ⟨fun ⟨start, falls, jumps, blocks⟩ => ⟨start, falls, jumps, blocks⟩,
      fun ⟨start, falls, jumps, blocks⟩ => ⟨start, falls, jumps, blocks⟩⟩

variable {code : MethodCode} {clause : Clause} {position : Nat}

/-- When a block of a clause begins control gets into no handler, or it begins in the handler of
a clause that receives the exception. -/
theorem EnteredByDispatch.noEntry_or (entered : code.EnteredByDispatch)
    (member : clause ∈ code.clauses) {block : Block} (isBlock : block ∈ clause.blocks)
    (covers : clause.covers position) :
    NoEntry code.clauses position (positionOf block.start) ∨
      (clause.isReceiver ∧ block = clause.handlerBlock ∧
        clause.inHandler (positionOf block.start)) := by
  by_contra neither
  obtain ⟨entry, notReceived⟩ := not_or.mp neither
  refine entry fun other isOther => Bool.eq_false_iff.mpr fun enters => ?_
  simp only [Clause.enters, Bool.and_eq_true, Bool.not_eq_true'] at enters
  obtain ⟨⟨receiver, outside⟩, inside⟩ := enters
  rcases entered.blocks clause member (nonempty_of_covers covers) block isBlock other isOther
    receiver inside with ⟨starts, ends⟩ | ⟨isReceiver, isHandler, same⟩
  · have around : other.inHandler position := by
      simp only [Clause.covers, Bool.and_eq_true, decide_eq_true_eq] at covers
      simp only [Clause.inHandler, Bool.and_eq_true, decide_eq_true_eq]
      omega
    rw [outside] at around
    cases around
  · exact notReceived ⟨isReceiver, isHandler, inHandler_congr same _ ▸ inside⟩

theorem EnteredByDispatch.noEntry_termination (entered : code.EnteredByDispatch)
    (member : clause ∈ code.clauses) (covers : clause.covers position)
    (termination : clause.isTermination) :
    NoEntry code.clauses position (positionOf clause.handlerOffset) := by
  rcases entered.noEntry_or member clause.handlerBlock_mem_blocks covers with
    noEntry | ⟨receiver, -, -⟩
  · exact noEntry
  · rw [not_isReceiver termination] at receiver
    cases receiver

theorem EnteredByDispatch.noEntry_filter (entered : code.EnteredByDispatch)
    (member : clause ∈ code.clauses) (covers : clause.covers position)
    (kind : clause.kind = .filterClause) :
    NoEntry code.clauses position (positionOf clause.filterOffset) := by
  have isBlock : clause.filterBlock ∈ clause.blocks := by simp [Clause.blocks, kind]
  rcases entered.noEntry_or member isBlock covers with noEntry | ⟨-, same, inside⟩
  · exact noEntry
  · -- A filter ends where the handler starts, so both are empty if they are the same.
    have stops : clause.handlerOffset = clause.handlerEnd := congrArg Block.stop same
    simp only [Clause.inHandler, Bool.and_eq_true, decide_eq_true_eq] at inside
    omega

theorem EnteredByDispatch.noEntry_next (entered : code.EnteredByDispatch) {index : Nat}
    {instruction following : Instruction} (found : code.instructions[index]? = some instruction)
    (isNext : code.instructions[index + 1]? = some following)
    (falls : instruction.opcode.flow.fallsThrough) :
    NoEntry code.clauses (positionOf instruction.offset) (positionOf following.offset) := by
  obtain ⟨inside, isInstruction⟩ := Array.getElem?_eq_some_iff.mp found
  obtain ⟨nextInside, isFollowing⟩ := Array.getElem?_eq_some_iff.mp isNext
  have chain := List.isChain_iff_getElem.mp entered.falls index (by simpa using nextInside)
  simp only [Array.getElem_toList, isInstruction, isFollowing] at chain
  exact chain falls

end MethodCode

/-! ## Deliveries -/

namespace HandlerEvent

open Clause

variable {clauses : List Clause}

/-- The clause at an index can receive exceptions. -/
structure Receives (clauses : List Clause) (index : Nat) (clause : Clause) : Prop where
  found : clauses[index]? = some clause
  receiver : clause.isReceiver
  filled : clause.tryOffset < clause.tryEnd

theorem Receives.mem {index : Nat} {clause : Clause} (receives : Receives clauses index clause) :
    clause ∈ clauses :=
  List.mem_of_getElem? receives.found

/-- What can happen in an execution that may be restricted to a block, and in the blocks that it
runs. -/
def Permitted (clauses : List Clause) (block? : Option Block) : HandlerEvent → Prop
  | delivers index _ => ∃ clause, Receives clauses index clause ∧ clause.isVisible block?
  | leaves inner? _ _ => IsBlock clauses inner? ∧ Block.Narrows inner? block?
  | rethrows _ _ => True

theorem Permitted.widen {inner? outer? : Option Block} (narrows : Block.Narrows inner? outer?)
    {event : HandlerEvent} (permitted : event.Permitted clauses inner?) :
    event.Permitted clauses outer? := by
  cases event with
  | delivers index exception =>
      obtain ⟨clause, receives, visible⟩ := permitted
      exact ⟨clause, receives, isVisible_of_narrows narrows visible⟩
  | leaves block? origin target => exact ⟨permitted.1, permitted.2.trans narrows⟩
  | rethrows position caught? => trivial

/-- An event that does not come between the delivery of an exception to a clause and a position in
its handler: what is delivered to a handler around the position is delivered inside, and control
does not leave the handler if the clause is visible. -/
def Spares (clauses : List Clause) (clause : Clause) (position : Nat) : HandlerEvent → Prop
  | delivers index _ => ∀ other, Receives clauses index other → other.inHandler position →
      other.handlerBlock.Within clause.handlerBlock ∧ other.handlerBlock ≠ clause.handlerBlock
  | leaves block? origin target => clause.isVisible block? → clause.exits origin target = false
  | rethrows _ _ => True

/-- The latest delivery that matters to a handler around a position. -/
structure Delivered (clauses : List Clause) (handler : Clause) (position : Nat)
    (events : List HandlerEvent) (after : List HandlerEvent) (index : Nat) (exception : HeapRef)
    (before : List HandlerEvent) (clause : Clause) : Prop where
  events : events = after ++ delivers index exception :: before
  receives : Receives clauses index clause
  same : clause.handlerBlock = handler.handlerBlock
  spared : ∀ event ∈ after, event.Spares clauses clause position

/-- Something has been delivered to every handler around a position. -/
def Current (clauses : List Clause) (events : List HandlerEvent) (position : Nat) : Prop :=
  ∀ handler ∈ clauses, handler.isReceiver → handler.inHandler position →
    ∃ after index exception before clause,
      Delivered clauses handler position events after index exception before clause

variable {events : List HandlerEvent} {position : Nat}

/-- Where control gets into no handler, what was delivered to those that it is still in stands. -/
theorem Spares.move {clause : Clause} {target : Nat} (noEntry : NoEntry clauses position target)
    {event : HandlerEvent} (spares : event.Spares clauses clause position) :
    event.Spares clauses clause target := by
  cases event with
  | delivers index exception =>
      intro other receives inside
      exact spares other receives (noEntry.inHandler receives.mem receives.receiver inside)
  | leaves block? origin stop => exact spares
  | rethrows place caught? => trivial

theorem Current.move {target : Nat} (noEntry : NoEntry clauses position target)
    (current : Current clauses events position) : Current clauses events target := by
  intro handler member receiver inside
  obtain ⟨after, index, exception, before, clause, delivered⟩ :=
    current handler member receiver (noEntry.inHandler member receiver inside)
  exact ⟨after, index, exception, before, clause, delivered.events, delivered.receives,
    delivered.same, fun event isAfter => (delivered.spared event isAfter).move noEntry⟩

/-- Events that spare whatever has been delivered. -/
theorem Current.append {recent : List HandlerEvent} (current : Current clauses events position)
    (spared : ∀ handler ∈ clauses, handler.isReceiver → handler.inHandler position →
      ∀ index clause, Receives clauses index clause → clause.handlerBlock = handler.handlerBlock →
        ∀ event ∈ recent, event.Spares clauses clause position) :
    Current clauses (recent ++ events) position := by
  intro handler member receiver inside
  obtain ⟨after, index, exception, before, clause, delivered⟩ :=
    current handler member receiver inside
  refine ⟨recent ++ after, index, exception, before, clause, ?_, delivered.receives,
    delivered.same, fun event isEvent => ?_⟩
  · rw [delivered.events, List.append_assoc]
  · rcases List.mem_append.mp isEvent with isRecent | isAfter
    · exact spared handler member receiver inside index clause delivered.receives delivered.same
        event isRecent
    · exact delivered.spared event isAfter

/-- What happens in a block of a clause spares what was delivered to handlers around a position
that the clause guards: the handlers that are entered or left in the block lie in it. -/
theorem Permitted.spares (nested : WellNested clauses) {guard : Clause} (member : guard ∈ clauses)
    {block : Block} (isBlock : block ∈ guard.blocks) (covers : guard.covers position)
    {index : Nat} {clause : Clause} (receives : Receives clauses index clause)
    (inside : clause.inHandler position) {event : HandlerEvent}
    (permitted : event.Permitted clauses (some block)) :
    event.Spares clauses clause position := by
  have outside : ¬ block.contains position := nested.not_contains member isBlock covers
  cases event with
  | delivers place exception =>
      obtain ⟨other, receivesOther, visible⟩ := permitted
      intro same receivesSame insideOther
      obtain rfl : other = same :=
        Option.some.inj (receivesOther.found.symm.trans receivesSame.found)
      have within := nested.within guard member block isBlock other receivesOther.mem
        receivesOther.filled visible _ other.handlerBlock_mem_blocks
      exact absurd (within.contains insideOther) outside
  | leaves inner? origin target =>
      intro visible
      obtain ⟨inner, rfl, inBlock⟩ := permitted.2 block rfl
      obtain ⟨owner, isOwner, isInner⟩ := permitted.1 inner rfl
      have within := nested.within owner isOwner inner isInner clause receives.mem receives.filled
        visible _ clause.handlerBlock_mem_blocks
      exact absurd ((within.trans inBlock).contains inside) outside
  | rethrows place caught? => trivial

theorem Current.after_block (nested : WellNested clauses) {guard : Clause}
    (member : guard ∈ clauses) {block : Block} (isBlock : block ∈ guard.blocks)
    (covers : guard.covers position) {recent : List HandlerEvent}
    (permitted : ∀ event ∈ recent, event.Permitted clauses (some block))
    (current : Current clauses events position) :
    Current clauses (recent ++ events) position := by
  refine current.append fun handler _ _ inside index clause receives same event isRecent => ?_
  rw [← inHandler_congr same] at inside
  exact (permitted event isRecent).spares nested member isBlock covers receives inside

theorem Current.cons {event : HandlerEvent} (current : Current clauses events position)
    (spares : ∀ clause, clause.inHandler position → event.Spares clauses clause position) :
    Current clauses (event :: events) position := by
  change Current clauses ([event] ++ events) position
  refine current.append fun handler _ _ inside _ clause _ same other isOther => ?_
  obtain rfl := List.mem_singleton.mp isOther
  exact spares clause (inHandler_congr same position ▸ inside)

/-- An instruction looks for an exception to rethrow. -/
theorem Current.rethrows {caught? : Option (Nat × HeapRef)} {place : Nat}
    (current : Current clauses events position) :
    Current clauses (.rethrows place caught? :: events) position :=
  current.cons fun _ _ => trivial

/-- Control leaves for a target in handlers that it is in already. -/
theorem Current.leaves {target : Nat} (block? : Option Block)
    (noEntry : NoEntry clauses position target) (current : Current clauses events position) :
    Current clauses (.leaves block? position target :: events) target :=
  (current.move noEntry).cons fun clause inside _ => by simp [exits, inside]

/-- An exception is delivered to the handler of a clause that guards a position. -/
theorem Current.delivers {code : MethodCode} (nested : WellNested code.clauses)
    (entered : code.EnteredByDispatch) {index : Nat} {clause : Clause}
    (receives : Receives code.clauses index clause) (covers : clause.covers position)
    (exception : HeapRef) (current : Current code.clauses events position) :
    Current code.clauses (.delivers index exception :: events)
      (positionOf clause.handlerOffset) := by
  have enclosing {other : Clause} (isOther : other ∈ code.clauses) (receiver : other.isReceiver)
      (inside : other.inHandler (positionOf clause.handlerOffset)) :
      other.inHandler position ∨ other.handlerBlock = clause.handlerBlock := by
    rcases entered.blocks clause receives.mem receives.filled _ clause.handlerBlock_mem_blocks
      other isOther receiver inside with ⟨starts, ends⟩ | ⟨-, -, same⟩
    · left
      simp only [Clause.covers, Bool.and_eq_true, decide_eq_true_eq] at covers
      simp only [Clause.inHandler, Bool.and_eq_true, decide_eq_true_eq]
      omega
    · exact .inr same
  intro handler member receiver inside
  by_cases same : clause.handlerBlock = handler.handlerBlock
  · exact ⟨[], index, exception, events, clause, rfl, receives, same, by simp⟩
  · have around : handler.inHandler position :=
      (enclosing member receiver inside).resolve_right fun equal => same equal.symm
    obtain ⟨after, place, earlier, before, latest, delivered⟩ :=
      current handler member receiver around
    -- The new handler does not enclose the other one, in which the guarded position lies.
    have inner (other : Clause) (equal : other.handlerBlock = clause.handlerBlock)
        (insideOther : other.inHandler (positionOf clause.handlerOffset)) :
        other.handlerBlock.Within latest.handlerBlock ∧
          other.handlerBlock ≠ latest.handlerBlock := by
      rw [inHandler_congr equal] at insideOther
      rw [equal, delivered.same]
      refine ⟨?_, same⟩
      rcases nested.handlers_within receives.mem member insideOther inside with within | within
      · exact within
      · exact absurd (within.contains around)
          (nested.not_contains receives.mem clause.handlerBlock_mem_blocks covers)
    refine ⟨.delivers index exception :: after, place, earlier, before, latest,
      congrArg (_ :: ·) delivered.events, delivered.receives, delivered.same,
      List.forall_mem_cons.mpr ⟨?_, fun event isAfter => ?_⟩⟩
    · intro other receivesOther insideOther
      obtain rfl : clause = other :=
        Option.some.inj (receives.found.symm.trans receivesOther.found)
      exact inner clause rfl insideOther
    · have spares := delivered.spared event isAfter
      cases event with
      | delivers number thrown =>
          intro other receivesOther insideOther
          rcases enclosing receivesOther.mem receivesOther.receiver insideOther with was | equal
          · exact spares other receivesOther was
          · exact inner other equal insideOther
      | leaves block? origin target => exact spares
      | rethrows place caught? => trivial

end HandlerEvent

end Cil
