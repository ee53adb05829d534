import Cil.Isolation.Regions
import Cil.Proofs.Stateful

/-!
# The blocks that events open and close

Events at an offset change the open blocks of an encoder and add to its finished clauses.
They look at no position but the one they happen at, so the blocks of emitted code are those
of the original code with every offset replaced by its mark.
-/

namespace Cil

open Stateful

/-- The exception blocks of an encoder: the open ones, innermost first, and the clauses of the
ended ones. -/
structure Blocks where
  opened : List OpenBlock
  finished : List MarkedClause

def Encoder.blocks (encoder : Encoder) : Blocks :=
  ⟨encoder.openBlocks, encoder.clauses.toList⟩

/-! ## Events -/

/-- The clause of the handler that ends, if one has begun.  A filter without a handler cannot
end. -/
def OpenBlock.close (block : OpenBlock) (here : Nat) : Option (List MarkedClause) :=
  match block.current? with
  | none => some []
  | some pending =>
      pending.handlerStart?.map fun handlerStart =>
        [{ flags := pending.flags, class? := pending.class?, tryStart := block.tryStart
           tryEnd := block.tryEnd?.getD handlerStart, handlerStart, handlerEnd := here
           filterStart? := pending.filterStart? }]

namespace Blocks

/-- The innermost block takes its next handler. -/
def startHandler (flags : ClauseFlags) (class? : Option Token) (isFilter : Bool) (here : Nat)
    (blocks : Blocks) : Option Blocks :=
  match blocks.opened with
  | [] => none
  | block :: outer =>
      let block := { block with tryEnd? := some (block.tryEnd?.getD here) }
      (block.close here).map fun closed =>
        { opened :=
            { block with
              current? := some
                { flags, class?, filterStart? := if isFilter then some here else none
                  handlerStart? := if isFilter then none else some here } } :: outer
          finished := blocks.finished ++ closed }

/-- The filter of the innermost block ends, and its handler starts. -/
def startFiltered (here : Nat) (blocks : Blocks) : Option Blocks :=
  match blocks.opened with
  | [] => none
  | block :: outer =>
      match block.current? with
      | none => none
      | some pending =>
          if pending.flags = ClauseFlags.filter ∧ pending.handlerStart? = none then
            some
              { blocks with
                opened :=
                  { block with current? := some { pending with handlerStart? := some here } } ::
                    outer }
          else none

def endBlock (here : Nat) (blocks : Blocks) : Option Blocks :=
  match blocks.opened with
  | [] => none
  | block :: outer =>
      if block.current?.isNone then none
      else (block.close here).map fun closed => ⟨outer, blocks.finished ++ closed⟩

/-- What an event does to the blocks. -/
def act (here : Nat) (blocks : Blocks) : RegionEvent → Option Blocks
  | .beginTry => some { blocks with opened := ⟨here, none, none⟩ :: blocks.opened }
  | .beginCatch exceptionClass =>
      blocks.startHandler ClauseFlags.exception (some exceptionClass) false here
  | .beginFilter => blocks.startHandler ClauseFlags.filter none true here
  | .beginFilteredHandler => blocks.startFiltered here
  | .beginFinally => blocks.startHandler ClauseFlags.finallyBlock none false here
  | .beginFault => blocks.startHandler ClauseFlags.fault none false here
  | .endTry => blocks.endBlock here

/-- What the events at an offset do to the blocks. -/
def replayAt (blocks : Blocks) (clauses : List Clause) (offset here : Nat) : Option Blocks :=
  (Regions.eventsAt clauses offset).foldlM (act here) blocks

end Blocks

/-! ## Events in an encoder -/

namespace Encoder

variable {before after : Encoder} {result : Unit}

/-- Two encoders hold the same code. -/
structure SameCode (before after : Encoder) : Prop where
  items : after.items = before.items
  labels : after.labels = before.labels
  shortens : after.shortens = before.shortens

theorem SameCode.refl (encoder : Encoder) : SameCode encoder encoder :=
  ⟨rfl, rfl, rfl⟩

theorem SameCode.trans {middle : Encoder} (first : SameCode before middle)
    (second : SameCode middle after) : SameCode before after :=
  ⟨second.items.trans first.items, second.labels.trans first.labels,
    second.shortens.trans first.shortens⟩

theorem SameCode.here (same : SameCode before after) : after.here = before.here :=
  congrArg Array.size same.items

theorem enterHandler_eq_ok {depth : Int16}
    (ran : enterHandler depth before = .ok result after) :
    after.blocks = before.blocks ∧ SameCode before after := by
  obtain ⟨_, _, entered, ran⟩ := bind_eq_ok.mp ran
  rw [← modify_eq_ok.mp ran, ← modify_eq_ok.mp entered]
  exact ⟨rfl, rfl, rfl, rfl⟩

theorem popBlock_eq_ok {failure : Malformation} {block : OpenBlock}
    (ran : popBlock failure before = .ok block after) :
    before.openBlocks = block :: after.openBlocks ∧ after.clauses = before.clauses ∧
      SameCode before after := by
  obtain ⟨_, _, read, ran⟩ := bind_eq_ok.mp ran
  obtain ⟨rfl, rfl⟩ := get_eq_ok.mp read
  cases opened : before.openBlocks with
  | nil =>
      rw [opened] at ran
      exact absurd ran throw_ne_ok
  | cons first outer =>
      rw [opened] at ran
      obtain ⟨_, _, stored, ran⟩ := bind_eq_ok.mp ran
      obtain ⟨rfl, rfl⟩ := pure_eq_ok.mp ran
      obtain rfl := set_eq_ok.mp stored
      exact ⟨rfl, rfl, rfl, rfl, rfl⟩

theorem closeHandler_eq_ok {block : OpenBlock}
    (ran : closeHandler block before = .ok result after) :
    ∃ closed, block.close before.here = some closed ∧
      after.clauses.toList = before.clauses.toList ++ closed ∧
      after.openBlocks = before.openBlocks ∧ SameCode before after := by
  unfold closeHandler at ran
  unfold OpenBlock.close
  cases current : block.current? with
  | none =>
      rw [current] at ran
      obtain ⟨_, rfl⟩ := pure_eq_ok.mp ran
      exact ⟨[], rfl, by simp, rfl, .refl _⟩
  | some pending =>
      rw [current] at ran
      obtain ⟨_, _, read, ran⟩ := bind_eq_ok.mp ran
      obtain ⟨rfl, rfl⟩ := get_eq_ok.mp read
      cases started : pending.handlerStart? with
      | none =>
          rw [started] at ran
          exact absurd ran throw_ne_ok
      | some handlerStart =>
          rw [started] at ran
          dsimp only
          rw [started]
          obtain rfl := set_eq_ok.mp ran
          exact ⟨_, rfl, by simp, rfl, rfl, rfl, rfl⟩

theorem startHandler_eq_ok {flags : ClauseFlags} {class? : Option Token} {isFilter : Bool}
    (ran : startHandler flags class? isFilter before = .ok result after) :
    before.blocks.startHandler flags class? isFilter before.here = some after.blocks ∧
      SameCode before after := by
  obtain ⟨block, popped, popRan, ran⟩ := bind_eq_ok.mp ran
  obtain ⟨opened, clauses, samePopped⟩ := popBlock_eq_ok popRan
  obtain ⟨_, _, read, ran⟩ := bind_eq_ok.mp ran
  obtain ⟨rfl, rfl⟩ := get_eq_ok.mp read
  obtain ⟨_, closing, closeRan, ran⟩ := bind_eq_ok.mp ran
  obtain ⟨closed, closes, finished, outer, sameClosing⟩ := closeHandler_eq_ok closeRan
  obtain rfl := modify_eq_ok.mp ran
  rw [samePopped.here] at closes
  refine ⟨?_, (samePopped.trans sameClosing).trans ⟨rfl, rfl, rfl⟩⟩
  simp only [Blocks.startHandler, blocks, opened, closes, samePopped.here, Option.map_some, outer,
    finished, clauses]

theorem beginFilteredHandler_eq_ok (ran : beginFilteredHandler before = .ok result after) :
    before.blocks.startFiltered before.here = some after.blocks ∧ SameCode before after := by
  obtain ⟨_, _, read, ran⟩ := bind_eq_ok.mp ran
  obtain ⟨rfl, rfl⟩ := get_eq_ok.mp read
  cases opened : before.openBlocks with
  | nil =>
      rw [opened] at ran
      exact absurd ran throw_ne_ok
  | cons block outer =>
      cases block with
      | mk tryStart tryEnd? current? =>
          cases current? with
          | none =>
              rw [opened] at ran
              exact absurd ran throw_ne_ok
          | some pending =>
              rw [opened] at ran
              dsimp only at ran
              split at ran
              · rename_i isFilter
                obtain ⟨_, started, storeRan, ran⟩ := bind_eq_ok.mp ran
                obtain rfl := set_eq_ok.mp storeRan
                obtain ⟨blocksEq, same⟩ := enterHandler_eq_ok ran
                rw [blocksEq]
                refine ⟨?_, same.items, same.labels, same.shortens⟩
                simp only [Blocks.startFiltered, blocks, opened, if_pos isFilter]
              · exact absurd ran throw_ne_ok

theorem endBlock_eq_ok (ran : endBlock before = .ok result after) :
    before.blocks.endBlock before.here = some after.blocks ∧ SameCode before after := by
  obtain ⟨block, popped, popRan, ran⟩ := bind_eq_ok.mp ran
  obtain ⟨opened, clauses, samePopped⟩ := popBlock_eq_ok popRan
  dsimp only at ran
  split at ran
  · obtain ⟨_, _, _, ran⟩ := bind_eq_ok.mp ran
    obtain ⟨_, _, failed, _⟩ := bind_eq_ok.mp ran
    exact absurd failed throw_ne_ok
  · rename_i begun
    obtain ⟨closed, closes, finished, outer, sameClosing⟩ := closeHandler_eq_ok ran
    rw [samePopped.here] at closes
    refine ⟨?_, samePopped.trans sameClosing⟩
    simp only [Blocks.endBlock, blocks, opened, closes, Option.map_some, outer, finished, clauses,
      if_neg begun]

theorem startedHandler_eq_ok {flags : ClauseFlags} {class? : Option Token} {isFilter : Bool}
    {depth : Int16}
    (ran : (do startHandler flags class? isFilter; enterHandler depth) before =
      .ok result after) :
    before.blocks.startHandler flags class? isFilter before.here = some after.blocks ∧
      SameCode before after := by
  obtain ⟨_, _, startRan, ran⟩ := bind_eq_ok.mp ran
  obtain ⟨started, sameStarted⟩ := startHandler_eq_ok startRan
  obtain ⟨entered, sameEntered⟩ := enterHandler_eq_ok ran
  rw [entered]
  exact ⟨started, sameStarted.trans sameEntered⟩

/-- An event acts on the blocks of an encoder and leaves its code alone. -/
theorem perform_eq_ok {event : RegionEvent}
    (ran : Regions.perform event before = .ok result after) :
    Blocks.act before.here before.blocks event = some after.blocks ∧ SameCode before after := by
  cases event with
  | beginTry =>
      rw [← modify_eq_ok.mp ran]
      exact ⟨rfl, rfl, rfl, rfl⟩
  | beginCatch exceptionClass => exact startedHandler_eq_ok ran
  | beginFilter => exact startedHandler_eq_ok ran
  | beginFilteredHandler => exact beginFilteredHandler_eq_ok ran
  | beginFinally => exact startedHandler_eq_ok ran
  | beginFault => exact startedHandler_eq_ok ran
  | endTry => exact endBlock_eq_ok ran

theorem forM_perform_eq_ok {events : List RegionEvent}
    (ran : events.forM Regions.perform before = .ok result after) :
    events.foldlM (Blocks.act before.here) before.blocks = some after.blocks ∧
      SameCode before after := by
  induction events generalizing before with
  | nil =>
      obtain ⟨_, rfl⟩ := pure_eq_ok.mp ran
      exact ⟨rfl, .refl before⟩
  | cons event events ih =>
      obtain ⟨_, performed, performRan, ran⟩ := bind_eq_ok.mp ran
      obtain ⟨acts, samePerformed⟩ := perform_eq_ok performRan
      obtain ⟨rest, sameRest⟩ := ih ran
      refine ⟨?_, samePerformed.trans sameRest⟩
      rw [List.foldlM_cons, acts, ← samePerformed.here]
      exact rest

/-- Replaying the events at an offset acts on the blocks and leaves the code alone. -/
theorem apply_eq_ok {clauses : List Clause} {offset : Nat}
    (ran : Regions.apply clauses offset before = .ok result after) :
    before.blocks.replayAt clauses offset before.here = some after.blocks ∧
      SameCode before after :=
  forM_perform_eq_ok ran

end Encoder

/-! ## Renaming positions -/

def PendingClause.map (place : Nat → Nat) (pending : PendingClause) : PendingClause :=
  { pending with
    filterStart? := pending.filterStart?.map place
    handlerStart? := pending.handlerStart?.map place }

def OpenBlock.map (place : Nat → Nat) (block : OpenBlock) : OpenBlock :=
  { tryStart := place block.tryStart
    tryEnd? := block.tryEnd?.map place
    current? := block.current?.map (·.map place) }

def MarkedClause.map (place : Nat → Nat) (clause : MarkedClause) : MarkedClause :=
  { clause with
    tryStart := place clause.tryStart
    tryEnd := place clause.tryEnd
    handlerStart := place clause.handlerStart
    handlerEnd := place clause.handlerEnd
    filterStart? := clause.filterStart?.map place }

theorem OpenBlock.close_map (place : Nat → Nat) (block : OpenBlock) (here : Nat) :
    (block.map place).close (place here) =
      (block.close here).map (List.map (MarkedClause.map place)) := by
  obtain ⟨tryStart, tryEnd?, current?⟩ := block
  rcases current? with _ | ⟨flags, class?, filterStart?, handlerStart?⟩
  · rfl
  · cases handlerStart? <;> cases tryEnd? <;> rfl

namespace Blocks

/-- Blocks with their positions renamed. -/
def map (place : Nat → Nat) (blocks : Blocks) : Blocks :=
  ⟨blocks.opened.map (OpenBlock.map place), blocks.finished.map (MarkedClause.map place)⟩

theorem startHandler_map (place : Nat → Nat) (flags : ClauseFlags) (class? : Option Token)
    (isFilter : Bool) (here : Nat) (blocks : Blocks) :
    (blocks.map place).startHandler flags class? isFilter (place here) =
      (blocks.startHandler flags class? isFilter here).map (map place) := by
  obtain ⟨opened, finished⟩ := blocks
  cases opened with
  | nil => rfl
  | cons block outer =>
      have ended : { block.map place with
            tryEnd? := some ((block.map place).tryEnd?.getD (place here)) } =
          OpenBlock.map place { block with tryEnd? := some (block.tryEnd?.getD here) } := by
        obtain ⟨tryStart, tryEnd?, current?⟩ := block
        cases tryEnd? <;> rfl
      simp only [startHandler, map, List.map_cons, ended, OpenBlock.close_map, Option.map_map]
      congr 1
      funext closed
      cases isFilter <;> simp [Function.comp, map, OpenBlock.map, PendingClause.map]

theorem startFiltered_map (place : Nat → Nat) (here : Nat) (blocks : Blocks) :
    (blocks.map place).startFiltered (place here) =
      (blocks.startFiltered here).map (map place) := by
  obtain ⟨opened, finished⟩ := blocks
  cases opened with
  | nil => rfl
  | cons block outer =>
      obtain ⟨tryStart, tryEnd?, current?⟩ := block
      rcases current? with _ | ⟨flags, class?, filterStart?, handlerStart?⟩
      · rfl
      · simp only [startFiltered, map, List.map_cons, OpenBlock.map, Option.map_some,
          PendingClause.map, Option.map_eq_none_iff]
        split <;> rfl

theorem endBlock_map (place : Nat → Nat) (here : Nat) (blocks : Blocks) :
    (blocks.map place).endBlock (place here) = (blocks.endBlock here).map (map place) := by
  obtain ⟨opened, finished⟩ := blocks
  cases opened with
  | nil => rfl
  | cons block outer =>
      have begun : (block.map place).current?.isNone = block.current?.isNone := by
        simp [OpenBlock.map]
      simp only [endBlock, map, List.map_cons, begun, OpenBlock.close_map]
      split
      · rfl
      · simp only [Option.map_map]
        congr 1
        funext closed
        simp [Function.comp, map]

theorem act_map (place : Nat → Nat) (here : Nat) (blocks : Blocks) (event : RegionEvent) :
    act (place here) (blocks.map place) event = (act here blocks event).map (map place) := by
  cases event with
  | beginTry => rfl
  | beginCatch exceptionClass => exact startHandler_map ..
  | beginFilter => exact startHandler_map ..
  | beginFilteredHandler => exact startFiltered_map ..
  | beginFinally => exact startHandler_map ..
  | beginFault => exact startHandler_map ..
  | endTry => exact endBlock_map ..

theorem replayAt_map (place : Nat → Nat) (blocks : Blocks) (clauses : List Clause)
    (offset here : Nat) :
    (blocks.map place).replayAt clauses offset (place here) =
      (blocks.replayAt clauses offset here).map (map place) := by
  unfold replayAt
  induction Regions.eventsAt clauses offset generalizing blocks with
  | nil => rfl
  | cons event events ih =>
      rw [List.foldlM_cons, List.foldlM_cons, act_map]
      cases act here blocks event with
      | none => rfl
      | some next => exact ih next

end Blocks

end Cil
