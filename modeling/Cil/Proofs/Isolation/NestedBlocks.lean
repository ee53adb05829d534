import Cil.Proofs.Isolation.NestedReplay

/-!
# Blocks nest

Whatever the events are, a block takes its handlers one behind the other, and blocks that open
later end earlier.
-/

namespace Cil

/-! ## Parts of blocks -/

/-- Where the handler begins, together with its filter. -/
def PendingClause.begins? (pending : PendingClause) : Option Nat :=
  pending.filterStart? <|> pending.handlerStart?

/-- Where the parts of the handler begin. -/
def PendingClause.starts (pending : PendingClause) : List Nat :=
  pending.filterStart?.toList ++ pending.handlerStart?.toList

/-- The offsets that delimit the parts of the block so far. -/
def OpenBlock.boundaries (block : OpenBlock) : List Nat :=
  block.tryStart :: block.tryEnd?.toList ++ block.current?.toList.flatMap PendingClause.starts

namespace MarkedClause

/-- Where the handler begins, together with its filter. -/
def entry (clause : MarkedClause) : Nat :=
  clause.filterStart?.getD clause.handlerStart

def boundaries (clause : MarkedClause) : List Nat :=
  [clause.tryStart, clause.tryEnd, clause.handlerStart, clause.handlerEnd] ++
    clause.filterStart?.toList

/-- None of some offsets lies within the clause. -/
def Spared (clause : MarkedClause) (boundaries : List Nat) : Prop :=
  ∀ boundary ∈ boundaries, boundary ≤ clause.tryStart ∨ clause.handlerEnd ≤ boundary

/-- A clause is finished before another one: the other one is around it or behind it, or both
belong to one block. -/
def Precedes (first second : MarkedClause) : Prop :=
  first.Spared second.boundaries ∨
    first.tryStart = second.tryStart ∧ first.tryEnd = second.tryEnd ∧
      first.handlerEnd ≤ second.entry

/-- An offset is where a handler of some block is to begin: where its guarded range ends, or
where an earlier handler ends. -/
def Follows (finished : List MarkedClause) (tryStart tryEnd entry : Nat) : Prop :=
  tryEnd ≤ entry ∧ (entry = tryEnd ∨
    ∃ earlier ∈ finished, earlier.tryStart = tryStart ∧ earlier.tryEnd = tryEnd ∧
      earlier.handlerEnd = entry)

theorem Follows.mono {finished more : List MarkedClause} {tryStart tryEnd entry : Nat}
    (follows : Follows finished tryStart tryEnd entry) :
    Follows (finished ++ more) tryStart tryEnd entry := by
  obtain ⟨le, atEnd | ⟨earlier, member, same⟩⟩ := follows
  · exact ⟨le, Or.inl atEnd⟩
  · exact ⟨le, Or.inr ⟨earlier, List.mem_append_left _ member, same⟩⟩

end MarkedClause

/-! ## Runs of events -/

/-- A handler of the block has begun at an offset.  Filters have filter clauses only. -/
def OpenBlock.Entered (block : OpenBlock) (tryEnd entry : Nat) : Prop :=
  block.tryEnd? = some tryEnd ∧ ∃ pending, block.current? = some pending ∧
    pending.begins? = some entry ∧
    (pending.filterStart?.isSome ↔ pending.flags = ClauseFlags.filter)

/-- A block is open around a finished clause, or the clause is an earlier handler of it. -/
def OpenBlock.Surrounds (block : OpenBlock) (clause : MarkedClause) : Prop :=
  clause.Spared block.boundaries ∨
    clause.tryStart = block.tryStart ∧
      ∃ entry, block.Entered clause.tryEnd entry ∧ clause.handlerEnd ≤ entry

/-- The parts of a block so far: its guarded range, or a handler behind it. -/
def OpenBlock.Grown (finished : List MarkedClause) (block : OpenBlock) : Prop :=
  block.tryEnd? = none ∧ block.current? = none ∨
    ∃ tryEnd entry, block.Entered tryEnd entry ∧
      MarkedClause.Follows finished block.tryStart tryEnd entry

namespace OpenBlock

variable {block : OpenBlock} {finished : List MarkedClause} {tryEnd entry : Nat}

theorem Entered.unique {otherEnd otherEntry : Nat} (entered : block.Entered tryEnd entry)
    (other : block.Entered otherEnd otherEntry) : otherEnd = tryEnd ∧ otherEntry = entry := by
  obtain ⟨ends, pending, current, starts, _⟩ := entered
  obtain ⟨otherEnds, otherPending, otherCurrent, otherStarts, _⟩ := other
  obtain rfl := Option.some.inj (current.symm.trans otherCurrent)
  exact ⟨Option.some.inj (otherEnds.symm.trans ends),
    Option.some.inj (otherStarts.symm.trans starts)⟩

/-- A handler begins with its filter. -/
theorem Entered.handled {tryStart : Nat} {tryEnd? filterStart? : Option Nat}
    {flags : ClauseFlags} {class? : Option Token}
    (entered : Entered ⟨tryStart, tryEnd?, some ⟨flags, class?, filterStart?, none⟩⟩ tryEnd entry)
    (here : Nat) :
    Entered ⟨tryStart, tryEnd?, some ⟨flags, class?, filterStart?, some here⟩⟩ tryEnd entry := by
  obtain ⟨ends, pending, current, starts, typed⟩ := entered
  obtain rfl := Option.some.inj current
  refine ⟨ends, _, rfl, ?_, typed⟩
  cases filterStart? with
  | none => cases starts
  | some filterStart => exact starts

theorem Grown.mono {more : List MarkedClause} (grown : block.Grown finished) :
    block.Grown (finished ++ more) := by
  rcases grown with fresh | ⟨tryEnd, entry, entered, follows⟩
  · exact Or.inl fresh
  · exact Or.inr ⟨tryEnd, entry, entered, follows.mono⟩

theorem Grown.follows (grown : block.Grown finished) (entered : block.Entered tryEnd entry) :
    MarkedClause.Follows finished block.tryStart tryEnd entry := by
  rcases grown with ⟨_, fresh⟩ | ⟨otherEnd, otherEntry, other, follows⟩
  · obtain ⟨_, pending, current, _⟩ := entered
    rw [fresh] at current
    cases current
  · obtain ⟨rfl, rfl⟩ := entered.unique other
    exact follows

/-- The handler that ends is the one that has begun last. -/
theorem close_entered {here : Nat} {closed : List MarkedClause}
    (entered : block.Entered tryEnd entry) (closes : block.close here = some closed) :
    ∃ clause, closed = [clause] ∧ clause.tryStart = block.tryStart ∧ clause.tryEnd = tryEnd ∧
      clause.entry = entry ∧ clause.handlerEnd = here ∧
      (clause.filterStart?.isSome ↔ clause.flags = ClauseFlags.filter) ∧
      ∀ boundary ∈ clause.boundaries, boundary ∈ block.boundaries ∨ boundary = here := by
  obtain ⟨tryStart, tryEnd?, current?⟩ := block
  obtain ⟨rfl, ⟨flags, class?, filterStart?, handlerStart?⟩, rfl, starts, typed⟩ := entered
  cases handlerStart? with
  | none => cases closes
  | some handlerStart =>
      cases closes
      refine ⟨_, rfl, rfl, rfl, ?_, rfl, typed, ?_⟩
      · cases filterStart? with
        | none => exact Option.some.inj starts
        | some filterStart => exact Option.some.inj starts
      · intro boundary isBoundary
        simp only [MarkedClause.boundaries, Option.getD_some, List.mem_append, List.mem_cons,
          List.not_mem_nil, or_false, Option.mem_toList] at isBoundary
        simp only [boundaries, PendingClause.starts, Option.toList_some, List.flatMap_cons,
          List.flatMap_nil, List.append_nil, List.cons_append, List.nil_append, List.mem_cons,
          List.mem_append, List.not_mem_nil, or_false, Option.mem_toList]
        rcases isBoundary with (rfl | rfl | rfl | rfl) | filter
        · exact Or.inl (Or.inl rfl)
        · exact Or.inl (Or.inr (Or.inl rfl))
        · exact Or.inl (Or.inr (Or.inr (Or.inr rfl)))
        · exact Or.inr rfl
        · exact Or.inl (Or.inr (Or.inr (Or.inl filter)))

end OpenBlock

/-- What events at some offsets, the last one of which is known, have made of the blocks. -/
structure Recorded (event : Nat → Prop) (here : Nat) (blocks : Blocks) : Prop where
  reached : ∀ block ∈ blocks.opened, ∀ boundary ∈ block.boundaries,
    event boundary ∧ boundary ≤ here
  grown : ∀ block ∈ blocks.opened, block.Grown blocks.finished
  stacked : blocks.opened.Pairwise fun inner outer =>
    ∀ boundary ∈ outer.boundaries, boundary ≤ inner.tryStart
  ended : ∀ clause ∈ blocks.finished, clause.handlerEnd ≤ here
  placed : ∀ clause ∈ blocks.finished,
    (clause.filterStart?.isSome ↔ clause.flags = ClauseFlags.filter) ∧
      ∀ boundary ∈ clause.boundaries, event boundary
  surrounded : ∀ block ∈ blocks.opened, ∀ clause ∈ blocks.finished, block.Surrounds clause
  ordered : blocks.finished.Pairwise MarkedClause.Precedes
  follows : ∀ clause ∈ blocks.finished,
    MarkedClause.Follows blocks.finished clause.tryStart clause.tryEnd clause.entry

namespace Recorded

variable {event : Nat → Prop} {here : Nat} {block : OpenBlock} {outer : List OpenBlock}
  {finished : List MarkedClause}

theorem start (event : Nat → Prop) (here : Nat) : Recorded event here ⟨[], []⟩ :=
  ⟨by simp, by simp, .nil, by simp, by simp, by simp, .nil, by simp⟩

theorem later {blocks : Blocks} {next : Nat} (recorded : Recorded event here blocks)
    (le : here ≤ next) : Recorded event next blocks :=
  { recorded with
    reached := fun block member boundary isBoundary =>
      have reached := recorded.reached block member boundary isBoundary
      ⟨reached.1, Nat.le_trans reached.2 le⟩
    ended := fun clause member => Nat.le_trans (recorded.ended clause member) le }

theorem tail (recorded : Recorded event here ⟨block :: outer, finished⟩) :
    Recorded event here ⟨outer, finished⟩ :=
  { reached := (List.forall_mem_cons.mp recorded.reached).2
    grown := (List.forall_mem_cons.mp recorded.grown).2
    stacked := (List.pairwise_cons.mp recorded.stacked).2
    ended := recorded.ended
    placed := recorded.placed
    surrounded := (List.forall_mem_cons.mp recorded.surrounded).2
    ordered := recorded.ordered
    follows := recorded.follows }

theorem push (recorded : Recorded event here ⟨outer, finished⟩)
    (reached : ∀ boundary ∈ block.boundaries, event boundary ∧ boundary ≤ here)
    (grown : block.Grown finished)
    (stacked : ∀ other ∈ outer, ∀ boundary ∈ other.boundaries, boundary ≤ block.tryStart)
    (surrounds : ∀ clause ∈ finished, block.Surrounds clause) :
    Recorded event here ⟨block :: outer, finished⟩ :=
  { reached := List.forall_mem_cons.mpr ⟨reached, recorded.reached⟩
    grown := List.forall_mem_cons.mpr ⟨grown, recorded.grown⟩
    stacked := List.pairwise_cons.mpr ⟨stacked, recorded.stacked⟩
    ended := recorded.ended
    placed := recorded.placed
    surrounded := List.forall_mem_cons.mpr ⟨surrounds, recorded.surrounded⟩
    ordered := recorded.ordered
    follows := recorded.follows }

theorem close {tryEnd entry : Nat} {closed : List MarkedClause}
    (recorded : Recorded event here ⟨block :: outer, finished⟩) (isEvent : event here)
    (entered : block.Entered tryEnd entry) (closes : block.close here = some closed) :
    Recorded event here ⟨outer, finished ++ closed⟩ := by
  obtain ⟨clause, rfl, tryStart, clauseEnd, clauseEntry, handlerEnd, typed, parts⟩ :=
    OpenBlock.close_entered entered closes
  have inner := recorded.tail
  have reached := recorded.reached block (List.mem_cons_self ..)
  have follows := (recorded.grown block (List.mem_cons_self ..)).follows entered
  refine ⟨inner.reached, fun other member => (inner.grown other member).mono, inner.stacked,
    fun other member => ?_, fun other member => ?_, fun other member ended endedMember => ?_, ?_,
    fun other member => ?_⟩
  · rcases List.mem_append.mp member with member | member
    · exact recorded.ended other member
    · obtain rfl := List.mem_singleton.mp member
      exact Nat.le_of_eq handlerEnd
  · rcases List.mem_append.mp member with member | member
    · exact recorded.placed other member
    · obtain rfl := List.mem_singleton.mp member
      refine ⟨typed, fun boundary isBoundary => ?_⟩
      rcases parts boundary isBoundary with inBlock | rfl
      · exact (reached boundary inBlock).1
      · exact isEvent
  · rcases List.mem_append.mp endedMember with endedMember | endedMember
    · exact inner.surrounded other member ended endedMember
    · obtain rfl := List.mem_singleton.mp endedMember
      refine Or.inl fun boundary isBoundary => Or.inl ?_
      rw [tryStart]
      exact (List.pairwise_cons.mp recorded.stacked).1 other member boundary isBoundary
  · refine List.pairwise_append.mpr ⟨recorded.ordered, List.pairwise_singleton .., ?_⟩
    intro earlier member other isClause
    obtain rfl := List.mem_singleton.mp isClause
    rcases recorded.surrounded block (List.mem_cons_self ..) earlier member with
      spared | ⟨sameStart, otherEntry, otherEntered, le⟩
    · refine Or.inl fun boundary isBoundary => ?_
      rcases parts boundary isBoundary with inBlock | rfl
      · exact spared boundary inBlock
      · exact Or.inr (recorded.ended earlier member)
    · obtain ⟨sameEnd, rfl⟩ := entered.unique otherEntered
      exact Or.inr ⟨sameStart.trans tryStart.symm, sameEnd.trans clauseEnd.symm, clauseEntry ▸ le⟩
  · rcases List.mem_append.mp member with member | member
    · exact (recorded.follows other member).mono
    · obtain rfl := List.mem_singleton.mp member
      rw [tryStart, clauseEnd, clauseEntry]
      exact follows.mono

/-- A handler of a block begins at an event. -/
theorem enter {tryStart tryEnd : Nat} {pending : PendingClause}
    (recorded : Recorded event here ⟨outer, finished⟩) (isEvent : event here)
    (starting : event tryStart ∧ tryStart ≤ here) (ending : event tryEnd)
    (stacked : ∀ other ∈ outer, ∀ boundary ∈ other.boundaries, boundary ≤ tryStart)
    (follows : MarkedClause.Follows finished tryStart tryEnd here)
    (spared : ∀ clause ∈ finished, clause.Spared [tryStart, tryEnd] ∨
      clause.tryStart = tryStart ∧ clause.tryEnd = tryEnd)
    (entry : pending.begins? = some here) (only : ∀ start ∈ pending.starts, start = here)
    (typed : pending.filterStart?.isSome ↔ pending.flags = ClauseFlags.filter) :
    Recorded event here ⟨⟨tryStart, some tryEnd, some pending⟩ :: outer, finished⟩ := by
  have parts : ∀ boundary ∈ (OpenBlock.mk tryStart (some tryEnd) (some pending)).boundaries,
      boundary ∈ [tryStart, tryEnd] ∨ boundary = here := by
    intro boundary isBoundary
    rcases List.mem_append.mp isBoundary with inRange | isStart
    · exact Or.inl inRange
    · exact Or.inr (only boundary (by simpa using isStart))
  refine recorded.push (fun boundary isBoundary => ?_)
    (Or.inr ⟨tryEnd, here, ⟨rfl, pending, rfl, entry, typed⟩, follows⟩) stacked
    fun clause member => ?_
  · rcases parts boundary isBoundary with inRange | rfl
    · rcases List.mem_cons.mp inRange with rfl | inRange
      · exact starting
      · rw [List.mem_singleton.mp inRange]
        exact ⟨ending, follows.1⟩
    · exact ⟨isEvent, Nat.le_refl _⟩
  · have ended := recorded.ended clause member
    rcases spared clause member with spared | ⟨sameStart, rfl⟩
    · refine Or.inl fun boundary isBoundary => ?_
      rcases parts boundary isBoundary with inRange | rfl
      · exact spared boundary inRange
      · exact Or.inr ended
    · exact Or.inr ⟨sameStart, here, ⟨rfl, pending, rfl, entry, typed⟩, ended⟩

theorem startHandler {flags : ClauseFlags} {class? : Option Token} {isFilter : Bool}
    {blocks after : Blocks} (recorded : Recorded event here blocks) (isEvent : event here)
    (kind : isFilter ↔ flags = ClauseFlags.filter)
    (starts : blocks.startHandler flags class? isFilter here = some after) :
    Recorded event here after := by
  obtain ⟨opened, finished⟩ := blocks
  cases opened with
  | nil => cases starts
  | cons block outer =>
      obtain ⟨closed, closes, rfl⟩ := Option.map_eq_some_iff.mp starts
      have reached := recorded.reached block (List.mem_cons_self ..)
      have stacked := (List.pairwise_cons.mp recorded.stacked).1
      have starting := reached block.tryStart (List.mem_append_left _ (List.mem_cons_self ..))
      have entry : (PendingClause.mk flags class? (if isFilter then some here else none)
          (if isFilter then none else some here)).begins? = some here := by
        cases isFilter <;> rfl
      have only : ∀ start ∈ (PendingClause.mk flags class? (if isFilter then some here else none)
          (if isFilter then none else some here)).starts, start = here := by
        cases isFilter <;> simp [PendingClause.starts]
      have typed : (if isFilter then some here else none).isSome ↔ flags = ClauseFlags.filter := by
        rw [← kind]
        cases isFilter <;> simp
      rcases recorded.grown block (List.mem_cons_self ..) with
        ⟨unended, fresh⟩ | ⟨tryEnd, otherEntry, entered, follows⟩
      -- The first handler ends the guarded range itself.
      · have noneClosed : closed = [] := by
          unfold OpenBlock.close at closes
          rw [fresh] at closes
          exact (Option.some.inj closes).symm
        rw [noneClosed, List.append_nil, unended]
        refine recorded.tail.enter isEvent starting isEvent stacked
          ⟨Nat.le_refl _, Or.inl rfl⟩ (fun clause member => Or.inl ?_) entry only typed
        have ended := recorded.ended clause member
        rcases recorded.surrounded block (List.mem_cons_self ..) clause member with
          spared | ⟨_, _, ⟨ends, _⟩, _⟩
        · intro boundary isBoundary
          rcases List.mem_cons.mp isBoundary with rfl | atEnd
          · exact spared _ (List.mem_append_left _ (List.mem_cons_self ..))
          · rw [List.mem_singleton.mp atEnd]
            exact Or.inr ended
        · rw [unended] at ends
          cases ends
      -- A later handler ends the one before it, and the guarded range has ended already.
      · have same : { block with tryEnd? := some (block.tryEnd?.getD here) } = block := by
          rw [entered.1, Option.getD_some, ← entered.1]
        rw [same] at closes
        obtain ⟨clause, isClosed, tryStart, clauseEnd, _, handlerEnd, _, _⟩ :=
          OpenBlock.close_entered entered closes
        have atEnd : tryEnd ∈ block.boundaries := by
          refine List.mem_append_left _ (List.mem_cons_of_mem _ ?_)
          rw [entered.1]
          exact List.mem_singleton.mpr rfl
        rw [entered.1]
        refine (recorded.close isEvent entered closes).enter isEvent starting (reached _ atEnd).1
          stacked ⟨(reached _ atEnd).2, Or.inr ⟨clause, ?_, tryStart, clauseEnd, handlerEnd⟩⟩
          (fun ended member => ?_) entry only typed
        · rw [isClosed]
          exact List.mem_append_right _ (List.mem_singleton.mpr rfl)
        · rcases List.mem_append.mp member with member | member
          · rcases recorded.surrounded block (List.mem_cons_self ..) ended member with
              spared | ⟨sameStart, _, endedEntered, _⟩
            · refine Or.inl fun boundary isBoundary => spared boundary ?_
              rcases List.mem_cons.mp isBoundary with rfl | isEnd
              · exact List.mem_append_left _ (List.mem_cons_self ..)
              · rw [List.mem_singleton.mp isEnd]
                exact atEnd
            · exact Or.inr ⟨sameStart, (entered.unique endedEntered).1⟩
          · rw [isClosed] at member
            obtain rfl := List.mem_singleton.mp member
            exact Or.inr ⟨tryStart, clauseEnd⟩

/-- The filter of the innermost block ends. -/
theorem startFiltered {blocks after : Blocks} (recorded : Recorded event here blocks)
    (isEvent : event here) (starts : blocks.startFiltered here = some after) :
    Recorded event here after := by
  obtain ⟨opened, finished⟩ := blocks
  cases opened with
  | nil => cases starts
  | cons block outer =>
      obtain ⟨tryStart, tryEnd?, current?⟩ := block
      rcases current? with _ | ⟨flags, class?, filterStart?, handlerStart?⟩
      · cases starts
      · unfold Blocks.startFiltered at starts
        dsimp only at starts
        split at starts
        · rename_i isFilter
          obtain ⟨_, rfl⟩ := isFilter
          cases starts
          have reached := recorded.reached _ (List.mem_cons_self ..)
          have grown := recorded.grown _ (List.mem_cons_self ..)
          have surrounds := recorded.surrounded _ (List.mem_cons_self ..)
          have stacked := (List.pairwise_cons.mp recorded.stacked).1
          have parts : ∀ boundary ∈ (OpenBlock.mk tryStart tryEnd?
                (some ⟨flags, class?, filterStart?, some here⟩)).boundaries,
              boundary ∈ (OpenBlock.mk tryStart tryEnd?
                (some ⟨flags, class?, filterStart?, none⟩)).boundaries ∨ boundary = here := by
            intro boundary isBoundary
            simp only [OpenBlock.boundaries, PendingClause.starts, Option.toList_some,
              Option.toList_none, List.flatMap_cons, List.flatMap_nil, List.append_nil,
              List.mem_append, List.mem_singleton] at isBoundary ⊢
            rcases isBoundary with inRange | isFilter | isHandler
            · exact Or.inl (Or.inl inRange)
            · exact Or.inl (Or.inr isFilter)
            · exact Or.inr isHandler
          refine recorded.tail.push (fun boundary isBoundary => ?_) ?_ stacked
            fun clause member => ?_
          · rcases parts boundary isBoundary with known | rfl
            · exact reached boundary known
            · exact ⟨isEvent, Nat.le_refl _⟩
          · rcases grown with ⟨_, fresh⟩ | ⟨tryEnd, entry, entered, follows⟩
            · cases fresh
            · exact Or.inr ⟨tryEnd, entry, entered.handled here, follows⟩
          · rcases surrounds clause member with spared | ⟨sameStart, entry, entered, le⟩
            · refine Or.inl fun boundary isBoundary => ?_
              rcases parts boundary isBoundary with known | rfl
              · exact spared boundary known
              · exact Or.inr (recorded.ended clause member)
            · exact Or.inr ⟨sameStart, entry, entered.handled here, le⟩
        · cases starts

theorem endBlock {blocks after : Blocks} (recorded : Recorded event here blocks)
    (isEvent : event here) (ends : blocks.endBlock here = some after) :
    Recorded event here after := by
  obtain ⟨opened, finished⟩ := blocks
  cases opened with
  | nil => cases ends
  | cons block outer =>
      unfold Blocks.endBlock at ends
      dsimp only at ends
      split at ends
      · cases ends
      · rename_i begun
        obtain ⟨closed, closes, rfl⟩ := Option.map_eq_some_iff.mp ends
        rcases recorded.grown block (List.mem_cons_self ..) with
          ⟨_, fresh⟩ | ⟨_, _, entered, _⟩
        · rw [fresh] at begun
          exact absurd rfl begun
        · exact recorded.close isEvent entered closes

theorem act {blocks after : Blocks} {regionEvent : RegionEvent}
    (recorded : Recorded event here blocks) (isEvent : event here)
    (acts : Blocks.act here blocks regionEvent = some after) : Recorded event here after := by
  cases regionEvent with
  | beginTry =>
      cases acts
      refine recorded.push (fun boundary isBoundary => ?_) (Or.inl ⟨rfl, rfl⟩)
        (fun other member boundary isBoundary =>
          (recorded.reached other member boundary isBoundary).2)
        fun clause member => Or.inl fun boundary isBoundary => ?_
      · obtain rfl := List.mem_singleton.mp isBoundary
        exact ⟨isEvent, Nat.le_refl _⟩
      · obtain rfl := List.mem_singleton.mp isBoundary
        exact Or.inr (recorded.ended clause member)
  | beginCatch exceptionClass => exact recorded.startHandler isEvent (by decide) acts
  | beginFilter => exact recorded.startHandler isEvent (by decide) acts
  | beginFilteredHandler => exact recorded.startFiltered isEvent acts
  | beginFinally => exact recorded.startHandler isEvent (by decide) acts
  | beginFault => exact recorded.startHandler isEvent (by decide) acts
  | endTry => exact recorded.endBlock isEvent acts

theorem foldlM_act {blocks after : Blocks} {regionEvents : List RegionEvent}
    (recorded : Recorded event here blocks) (isEvent : event here)
    (acts : regionEvents.foldlM (Blocks.act here) blocks = some after) :
    Recorded event here after := by
  induction regionEvents generalizing blocks with
  | nil =>
      cases acts
      exact recorded
  | cons regionEvent regionEvents ih =>
      rw [List.foldlM_cons] at acts
      obtain ⟨next, first, rest⟩ := Option.bind_eq_some_iff.mp acts
      exact ih (recorded.act isEvent first) rest

theorem replayAll {clauses : List Clause} {offsets : List Nat} {blocks after : Blocks}
    (recorded : Recorded event here blocks) (sorted : (here :: offsets).Pairwise (· ≤ ·))
    (isEvent : ∀ offset, Regions.eventsAt clauses offset ≠ [] → event offset)
    (replays : blocks.replayAll clauses offsets = some after) :
    ∃ stop, Recorded event stop after := by
  induction offsets generalizing here blocks with
  | nil =>
      cases replays
      exact ⟨here, recorded⟩
  | cons next offsets ih =>
      obtain ⟨le, sorted⟩ := List.pairwise_cons.mp sorted
      rw [Blocks.replayAll, List.foldlM_cons] at replays
      obtain ⟨middle, first, rest⟩ := Option.bind_eq_some_iff.mp replays
      have atNext := recorded.later (le next (List.mem_cons_self ..))
      by_cases silent : Regions.eventsAt clauses next = []
      · rw [Blocks.replayAt, silent] at first
        cases first
        exact ih atNext sorted rest
      · exact ih (atNext.foldlM_act (isEvent next silent) first) sorted rest

end Recorded

end Cil
