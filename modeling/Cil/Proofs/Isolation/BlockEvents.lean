import Cil.Proofs.Isolation.Nesting
import Cil.Proofs.Isolation.Replay

/-!
# The blocks of tables that nest

At every offset the open blocks are those of the groups around the offset, the innermost one
first.  So each event, which names no block, happens to the block of its own group.
-/

namespace Cil

/-! ## Clauses as marks -/

def ClauseKind.flags : ClauseKind → ClauseFlags
  | catchClause => ClauseFlags.exception
  | filterClause => ClauseFlags.filter
  | finallyClause => ClauseFlags.finallyBlock
  | faultClause => ClauseFlags.fault

namespace Clause

/-- The exception class of a catch clause; a missing one is the null token. -/
def caught? (clause : Clause) : Option Token :=
  if clause.kind = .catchClause then some (clause.class?.getD Token.null) else none

def filter? (clause : Clause) : Option Nat :=
  if clause.kind = .filterClause then some clause.filterOffset else none

/-- The clause with its offsets as marks. -/
def marked (clause : Clause) : MarkedClause :=
  { flags := clause.kind.flags, class? := clause.caught?, tryStart := clause.tryOffset
    tryEnd := clause.tryEnd, handlerStart := clause.handlerOffset
    handlerEnd := clause.handlerEnd, filterStart? := clause.filter? }

end Clause

namespace Regions

/-- The handler of a clause that has begun, where some offsets are past. -/
def pendingOf (past : Nat → Bool) (clause : Clause) : PendingClause :=
  { flags := clause.kind.flags, class? := clause.caught?, filterStart? := clause.filter?
    handlerStart? := if past clause.handlerOffset then some clause.handlerOffset else none }

/-- The block of a group some of whose handlers have begun. -/
def blockWith (group : RegionGroup) (past : Nat → Bool) (begun : List Clause) : OpenBlock :=
  { tryStart := group.tryOffset
    tryEnd? := begun.getLast?.map fun _ => group.tryEnd
    current? := begun.getLast?.map (pendingOf past) }

/-- The handlers of a group that have begun. -/
def begun (clauses : List Clause) (past : Nat → Bool) (group : RegionGroup) : List Clause :=
  (members clauses group).filter (past ·.entry)

def blockOf (clauses : List Clause) (past : Nat → Bool) (group : RegionGroup) : OpenBlock :=
  blockWith group past (begun clauses past group)

def before (offset : Nat) : Nat → Bool := fun other => other < offset

def upTo (offset : Nat) : Nat → Bool := fun other => other ≤ offset

/-! ## Ends of blocks -/

theorem close_blockWith {group : RegionGroup} {past : Nat → Bool} {begun : List Clause}
    {last : Clause} (isLast : begun.getLast? = some last) (guarded : last.guardedBy group)
    (started : past last.handlerOffset) :
    (blockWith group past begun).close last.handlerEnd = some [last.marked] := by
  obtain ⟨offset, ends⟩ := tryOffset_of_guardedBy guarded
  simp [blockWith, OpenBlock.close, isLast, pendingOf, started, Clause.marked, offset, ends]

section Nested

variable {clauses : List Clause} (nesting : WellNested clauses) {here : Nat}
include nesting

/-- The clause whose handler ends a group. -/
theorem exists_getLast {group : RegionGroup} (listed : group ∈ groupsOf clauses)
    (ends : group.lastEnd = here) :
    ∃ last, (begun clauses (before here) group).getLast? = some last ∧
      last ∈ members clauses group ∧ last.handlerEnd = here ∧
      before here last.handlerOffset := by
  obtain ⟨front, last, split, lastEnd⟩ := nesting.exists_last listed
  have allBegun : begun clauses (before here) group = members clauses group := by
    refine List.filter_eq_self.mpr fun clause member => ?_
    have inOrder := nesting.inOrder listed member
    have bound := handlerEnd_le listed member
    have := inOrder.entry_le
    have := inOrder.handler_lt
    simp only [before, decide_eq_true_eq]
    omega
  have member : last ∈ members clauses group := by
    rw [split]
    simp
  have inOrder := nesting.inOrder listed member
  refine ⟨last, by rw [allBegun, split]; simp, member, lastEnd.trans ends, ?_⟩
  have := inOrder.handler_lt
  simp only [before, decide_eq_true_eq]
  omega

theorem foldlM_endTry (finished : List MarkedClause) (staying : List RegionGroup)
    {ending : List RegionGroup} (listed : ∀ group ∈ ending, group ∈ groupsOf clauses)
    (distinct : ending.Nodup) (ends : ∀ group ∈ ending, group.lastEnd = here) :
    ∃ closed : List Clause,
      (List.replicate ending.length RegionEvent.endTry).foldlM (Blocks.act here)
        ⟨(ending ++ staying).map (blockOf clauses (before here)), finished⟩ =
        some ⟨staying.map (blockOf clauses (before here)),
          finished ++ closed.map Clause.marked⟩ ∧
      closed.Nodup ∧
      ∀ clause, clause ∈ closed ↔
        ∃ group ∈ ending, clause ∈ members clauses group ∧ clause.handlerEnd = here := by
  induction ending generalizing finished with
  | nil => exact ⟨[], by simp, .nil, by simp⟩
  | cons group ending ih =>
      obtain ⟨fresh, distinct⟩ := List.nodup_cons.mp distinct
      obtain ⟨groupListed, listed⟩ := List.forall_mem_cons.mp listed
      obtain ⟨groupEnds, ends⟩ := List.forall_mem_cons.mp ends
      obtain ⟨last, isLast, member, lastEnd, started⟩ :=
        exists_getLast nesting groupListed groupEnds
      have closes : (blockOf clauses (before here) group).close last.handlerEnd =
          some [last.marked] :=
        close_blockWith isLast (mem_members.mp member).2 started
      have acts : Blocks.act here
          ⟨((group :: ending) ++ staying).map (blockOf clauses (before here)), finished⟩ .endTry =
          some ⟨(ending ++ staying).map (blockOf clauses (before here)),
            finished ++ [last.marked]⟩ := by
        rw [lastEnd] at closes
        have running : (blockOf clauses (before here) group).current?.isNone = false := by
          simp [blockOf, blockWith, isLast]
        simp only [Blocks.act, Blocks.endBlock, List.cons_append, List.map_cons, running, closes]
        rfl
      obtain ⟨closed, folded, closedDistinct, closedIff⟩ :=
        ih (finished ++ [last.marked]) listed distinct ends
      refine ⟨last :: closed, ?_, ?_, fun clause => ?_⟩
      · rw [List.length_cons, List.replicate_succ, List.foldlM_cons, acts, List.map_cons]
        rw [List.append_assoc] at folded
        exact folded
      · refine List.nodup_cons.mpr ⟨fun again => ?_, closedDistinct⟩
        obtain ⟨other, otherMember, guarded, _⟩ := (closedIff last).mp again
        have same := eq_of_guardedBy groupListed (listed other otherMember)
          (mem_members.mp member).2 (mem_members.mp guarded).2
        rw [same] at fresh
        exact fresh otherMember
      · rw [List.mem_cons, closedIff]
        constructor
        · rintro (rfl | ⟨other, otherMember, guarded, endsHere⟩)
          · exact ⟨group, List.mem_cons_self .., member, lastEnd⟩
          · exact ⟨other, List.mem_cons_of_mem _ otherMember, guarded, endsHere⟩
        · rintro ⟨other, otherMember, guarded, endsHere⟩
          rcases List.mem_cons.mp otherMember with rfl | otherMember
          · exact Or.inl (nesting.eq_of_handlerEnd groupListed guarded member
              (endsHere.trans lastEnd.symm))
          · exact Or.inr ⟨other, otherMember, guarded, endsHere⟩

/-! ## Beginnings of handlers -/

/-- Whether the filter or the handler of a clause begins at an offset. -/
def startsAt (offset : Nat) (clause : Clause) : Bool :=
  clause.entry == offset || clause.handlerOffset == offset

/-- The beginnings at an offset in the handler of a clause. -/
def eventsOf (offset : Nat) (clause : Clause) : List RegionEvent :=
  ((handlerEvents clause).filter (·.1 == offset)).map (·.2)

omit nesting in
theorem eventsOf_eq_nil {clause : Clause} (elsewhere : startsAt here clause = false) :
    eventsOf here clause = [] := by
  simp only [startsAt, Bool.or_eq_false_iff, beq_eq_false_iff_ne, Clause.entry] at elsewhere
  unfold eventsOf handlerEvents
  cases kind : clause.kind <;> simp [kind] at elsewhere ⊢ <;> simp [elsewhere]

omit nesting in
theorem eventsAt_eq (clauses : List Clause) (here : Nat) :
    eventsAt clauses here =
      List.replicate ((groupsOf clauses).filter (·.lastEnd == here)).length .endTry ++
        clauses.flatMap (eventsOf here) ++
        List.replicate ((groupsOf clauses).filter (·.tryOffset == here)).length .beginTry := by
  have single (event : RegionEvent) (offset : RegionGroup → Nat) :
      (((groupsOf clauses).map fun group => (offset group, event)).filter
        (·.1 == here)).map (·.2) =
        List.replicate ((groupsOf clauses).filter (offset · == here)).length event := by
    rw [List.filter_map, List.map_map, ← List.map_const']
    rfl
  have handlers : ((clauses.flatMap handlerEvents).filter (·.1 == here)).map (·.2) =
      clauses.flatMap (eventsOf here) := by
    rw [List.filter_flatMap, List.map_flatMap]
    rfl
  rw [eventsAt, events, List.filter_append, List.filter_append, List.map_append, List.map_append,
    single .endTry, single .beginTry, handlers]

/-- At most one clause begins at an offset. -/
theorem flatMap_eventsOf (here : Nat) :
    (∃ clause ∈ clauses, startsAt here clause ∧
        clauses.flatMap (eventsOf here) = eventsOf here clause) ∨
      (∀ clause ∈ clauses, startsAt here clause = false) ∧
        clauses.flatMap (eventsOf here) = [] := by
  by_cases starts : ∃ clause ∈ clauses, startsAt here clause
  · obtain ⟨clause, member, isStart⟩ := starts
    refine Or.inl ⟨clause, member, isStart, ?_⟩
    obtain ⟨front, behind, split⟩ := List.append_of_mem member
    have distinct := nesting.nodup
    rw [split] at distinct
    obtain ⟨_, behindDistinct, apart⟩ := List.nodup_append.mp distinct
    have silent (other : Clause) (otherMember : other ∈ clauses) (differs : other ≠ clause) :
        eventsOf here other = [] := by
      refine eventsOf_eq_nil (Bool.eq_false_iff.mpr fun alsoStarts => differs ?_)
      exact nesting.eq_of_starts otherMember member (by simpa [startsAt] using alsoStarts)
        (by simpa [startsAt] using isStart)
    have silentFront : front.flatMap (eventsOf here) = [] :=
      List.flatMap_eq_nil_iff.mpr fun other otherMember => silent other
        (by rw [split]; exact List.mem_append_left _ otherMember)
        (apart other otherMember clause (List.mem_cons_self ..))
    have silentBehind : behind.flatMap (eventsOf here) = [] :=
      List.flatMap_eq_nil_iff.mpr fun other otherMember => silent other
        (by rw [split]; exact List.mem_append_right _ (List.mem_cons_of_mem _ otherMember))
        fun same => (List.nodup_cons.mp behindDistinct).1 (same ▸ otherMember)
    rw [split, List.flatMap_append, List.flatMap_cons, silentFront, silentBehind,
      List.append_nil, List.nil_append]
  · have elsewhere : ∀ clause ∈ clauses, startsAt here clause = false := by
      intro clause member
      exact Bool.eq_false_iff.mpr fun isStart => starts ⟨clause, member, isStart⟩
    exact Or.inr ⟨elsewhere, List.flatMap_eq_nil_iff.mpr fun clause member =>
      eventsOf_eq_nil (elsewhere clause member)⟩

omit nesting in
/-- Where no handler of a group begins between two offsets, its block stays. -/
theorem blockOf_congr {past later : Nat → Bool} {group : RegionGroup}
    (agree : ∀ clause ∈ members clauses group,
      past clause.entry = later clause.entry ∧
        past clause.handlerOffset = later clause.handlerOffset) :
    blockOf clauses past group = blockOf clauses later group := by
  have sameBegun : begun clauses past group = begun clauses later group :=
    List.filter_congr fun clause member => (agree clause member).1
  unfold blockOf
  rw [sameBegun]
  cases isLast : (begun clauses later group).getLast? with
  | none => simp [blockWith, isLast]
  | some last =>
      have member : last ∈ members clauses group :=
        (List.mem_filter.mp (List.mem_of_getLast? isLast)).1
      simp [blockWith, isLast, pendingOf, (agree last member).2]

omit nesting in
theorem upTo_eq_before {offset : Nat} (differs : offset ≠ here) :
    upTo here offset = before here offset := by
  simp only [upTo, before, decide_eq_decide]
  omega

omit nesting in
theorem blockOf_upTo {group : RegionGroup}
    (elsewhere : ∀ clause ∈ members clauses group, startsAt here clause = false) :
    blockOf clauses (before here) group = blockOf clauses (upTo here) group := by
  refine blockOf_congr fun clause member => ?_
  have silent := elsewhere clause member
  simp only [startsAt, Bool.or_eq_false_iff, beq_eq_false_iff_ne] at silent
  exact ⟨(upTo_eq_before silent.1).symm, (upTo_eq_before silent.2).symm⟩

omit nesting in
/-- The handlers of a group that have begun, where one has and the next one has not. -/
theorem begun_of_split {group : RegionGroup} (past : Nat → Bool) {front behind : List Clause}
    {clause : Clause} (split : members clauses group = front ++ clause :: behind)
    (frontPast : ∀ other ∈ front, past other.entry)
    (behindAhead : ∀ other ∈ behind, past other.entry = false) :
    begun clauses past group = front ++ if past clause.entry then [clause] else [] := by
  have noneBehind : behind.filter (past ·.entry) = [] :=
    List.filter_eq_nil_iff.mpr fun other member => by simp [behindAhead other member]
  rw [begun, split, List.filter_append, List.filter_eq_self.mpr frontPast, List.filter_cons,
    noneBehind]

omit nesting in
/-- A handler that begins ends the one before it, or else the guarded range. -/
theorem startHandler_blockWith {group : RegionGroup} (past : Nat → Bool) {front : List Clause}
    (begins : (front.getLast?.map Clause.handlerEnd).getD group.tryEnd = here)
    (guarded : ∀ clause ∈ front, clause.guardedBy group)
    (started : ∀ clause ∈ front, past clause.handlerOffset)
    (flags : ClauseFlags) (class? : Option Token) (isFilter : Bool) (outer : List OpenBlock)
    (finished : List MarkedClause) :
    Blocks.startHandler flags class? isFilter here
        ⟨blockWith group past front :: outer, finished⟩ =
      some ⟨⟨group.tryOffset, some group.tryEnd,
          some ⟨flags, class?, if isFilter then some here else none,
            if isFilter then none else some here⟩⟩ :: outer,
        finished ++ front.getLast?.toList.map Clause.marked⟩ := by
  cases isLast : front.getLast? with
  | none =>
      rw [isLast] at begins
      have begins : group.tryEnd = here := begins
      simp [Blocks.startHandler, blockWith, OpenBlock.close, isLast, begins]
  | some last =>
      rw [isLast] at begins
      have begins : last.handlerEnd = here := begins
      have member := List.mem_of_getLast? isLast
      have closes := close_blockWith isLast (guarded last member) (started last member)
      have tried : { blockWith group past front with
            tryEnd? := some ((blockWith group past front).tryEnd?.getD here) } =
          blockWith group past front := by
        simp [blockWith, isLast]
      rw [begins] at closes
      simp only [Blocks.startHandler, tried, closes]
      simp [blockWith, isLast]

omit nesting in
/-- The handler of a clause that begins at an offset, with its filter if that begins there too. -/
theorem foldlM_eventsOf {clause : Clause} (starts : clause.entry = here)
    (entryLe : clause.entry ≤ clause.handlerOffset) {blocks : Blocks} {tryStart : Nat}
    {tryEnd? : Option Nat} {outer : List OpenBlock} {finished : List MarkedClause}
    (started : blocks.startHandler clause.kind.flags clause.caught?
        (decide (clause.kind = .filterClause)) here =
      some ⟨⟨tryStart, tryEnd?, some ⟨clause.kind.flags, clause.caught?,
          if decide (clause.kind = .filterClause) then some here else none,
          if decide (clause.kind = .filterClause) then none else some here⟩⟩ :: outer, finished⟩) :
    (eventsOf here clause).foldlM (Blocks.act here) blocks =
      some ⟨⟨tryStart, tryEnd?, some (pendingOf (upTo here) clause)⟩ :: outer, finished⟩ := by
  unfold Clause.entry at starts entryLe
  cases kind : clause.kind with
  | catchClause =>
      simp [kind, ClauseKind.flags, Clause.caught?] at starts started
      simp [eventsOf, handlerEvents, kind, starts, Blocks.act, started, pendingOf, upTo,
        Clause.caught?, Clause.filter?, ClauseKind.flags]
  | finallyClause =>
      simp [kind, ClauseKind.flags, Clause.caught?] at starts started
      simp [eventsOf, handlerEvents, kind, starts, Blocks.act, started, pendingOf, upTo,
        Clause.caught?, Clause.filter?, ClauseKind.flags]
  | faultClause =>
      simp [kind, ClauseKind.flags, Clause.caught?] at starts started
      simp [eventsOf, handlerEvents, kind, starts, Blocks.act, started, pendingOf, upTo,
        Clause.caught?, Clause.filter?, ClauseKind.flags]
  | filterClause =>
      simp [kind, ClauseKind.flags, Clause.caught?] at starts started entryLe
      by_cases together : clause.handlerOffset = here
      · simp [eventsOf, handlerEvents, kind, starts, together, Blocks.act, started,
          Blocks.startFiltered, pendingOf, upTo, Clause.caught?, Clause.filter?, ClauseKind.flags]
      · have later : ¬clause.handlerOffset ≤ here := by omega
        simp [eventsOf, handlerEvents, kind, starts, together, later, Blocks.act, started,
          pendingOf, upTo, Clause.caught?, Clause.filter?, ClauseKind.flags]

/-- The groups around an offset, the innermost one first. -/
structure Around (clauses : List Clause) (here : Nat) (groups : List RegionGroup) : Prop where
  mem_iff : ∀ group, group ∈ groups ↔
    group ∈ groupsOf clauses ∧ group.tryOffset < here ∧ here < group.lastEnd
  nested : groups.Pairwise fun inner outer => Spares clauses outer inner

omit nesting in
/-- The group of a clause that begins at an offset is the innermost one around the offset. -/
theorem Around.eq_cons {groups : List RegionGroup} (around : Around clauses here groups)
    {group : RegionGroup} (listed : group ∈ groups) {clause : Clause}
    (member : clause ∈ members clauses group) (boundary : here ∈ clause.boundaries) :
    ∃ outer, groups = group :: outer := by
  obtain ⟨inner, outer, split⟩ := List.append_of_mem listed
  cases inner with
  | nil => exact ⟨outer, split⟩
  | cons first inner =>
      have nested := around.nested
      rw [split] at nested
      have spares : Spares clauses group first :=
        (List.pairwise_append.mp nested).2.2 first (List.mem_cons_self ..) group
          (List.mem_cons_self ..)
      have firstAround := (around.mem_iff first).mp (by rw [split]; simp)
      have apart := spares clause member here boundary
      omega

/-- No handler in an open group ends where none begins. -/
theorem exists_start {group : RegionGroup} (listed : group ∈ groupsOf clauses)
    (within : here < group.lastEnd) {clause : Clause} (member : clause ∈ members clauses group)
    (ends : clause.handlerEnd = here) : ∃ next ∈ members clauses group, next.entry = here := by
  obtain ⟨next, nextMember, follows⟩ := nesting.exists_next listed member (by omega)
  exact ⟨next, nextMember, follows.trans ends⟩

/-- The block of a group whose clause has begun. -/
theorem blockOf_of_split {group : RegionGroup} (listed : group ∈ groupsOf clauses)
    {past : Nat → Bool} {front behind : List Clause} {clause : Clause}
    (split : members clauses group = front ++ clause :: behind)
    (begins : ∀ offset, offset ≤ clause.entry → past offset)
    (runs : ∀ offset, clause.handlerEnd ≤ offset → past offset = false) :
    blockOf clauses past group =
      ⟨group.tryOffset, some group.tryEnd, some (pendingOf past clause)⟩ := by
  obtain ⟨frontLt, leBehind⟩ := nesting.entry_of_split listed split
  have begun := begun_of_split past split
    (fun other member => begins _ (Nat.le_of_lt (frontLt other member)))
    (fun other member => runs _ (leBehind other member))
  rw [if_pos (begins _ (Nat.le_refl _))] at begun
  rw [blockOf, begun]
  simp [blockWith]

/-- Of a group, only the handler in front of a clause ends where the clause begins. -/
theorem getLast?_eq_some_iff {group : RegionGroup} (listed : group ∈ groupsOf clauses)
    {front behind : List Clause} {clause : Clause}
    (split : members clauses group = front ++ clause :: behind) (other : Clause) :
    front.getLast? = some other ↔
      other ∈ members clauses group ∧ other.handlerEnd = clause.entry := by
  have chained := nesting.chained group listed
  rw [split] at chained
  have begins := entry_of_chained chained
  have inFront (last : Clause) (isLast : front.getLast? = some last) :
      last ∈ members clauses group ∧ last.handlerEnd = clause.entry := by
    rw [isLast] at begins
    exact ⟨split ▸ List.mem_append_left _ (List.mem_of_getLast? isLast), begins.symm⟩
  refine ⟨inFront other, fun ⟨otherMember, ends⟩ => ?_⟩
  have order := nesting.inOrder listed (split ▸ List.mem_append_right _ (List.mem_cons_self ..))
  have isFront : other ∈ front := by
    rw [split] at otherMember
    rcases List.mem_append.mp otherMember with isFront | isBehind
    · exact isFront
    · have otherOrder := nesting.inOrder listed (split ▸ List.mem_append_right _ isBehind)
      have entryLe := order.entry_le
      have handlerLt := order.handler_lt
      have otherEntryLe := otherOrder.entry_le
      have otherHandlerLt := otherOrder.handler_lt
      rcases List.mem_cons.mp isBehind with rfl | isBehind
      · omega
      · have behindIt := (nesting.entry_of_split listed split).2 other isBehind
        omega
  obtain ⟨last, isLast⟩ : ∃ last, front.getLast? = some last :=
    Option.isSome_iff_exists.mp (List.getLast?_isSome.mpr (List.ne_nil_of_mem isFront))
  obtain ⟨lastMember, lastEnds⟩ := inFront last isLast
  rw [isLast, nesting.eq_of_handlerEnd listed otherMember lastMember (ends.trans lastEnds.symm)]

/-- A clause that begins in the innermost group ends the handler before it. -/
theorem foldlM_entry {group : RegionGroup} (listed : group ∈ groupsOf clauses) {clause : Clause}
    (member : clause ∈ members clauses group) (starts : clause.entry = here)
    (outer : List OpenBlock) (finished : List MarkedClause) :
    ∃ closed : List Clause,
      (eventsOf here clause).foldlM (Blocks.act here)
          ⟨blockOf clauses (before here) group :: outer, finished⟩ =
        some ⟨blockOf clauses (upTo here) group :: outer,
          finished ++ closed.map Clause.marked⟩ ∧
      closed.Nodup ∧
      ∀ other, other ∈ closed ↔ other ∈ members clauses group ∧ other.handlerEnd = here := by
  obtain ⟨front, behind, split⟩ := List.append_of_mem member
  obtain ⟨frontLt, leBehind⟩ := nesting.entry_of_split listed split
  have inOrder := nesting.inOrder listed member
  have entryLe := inOrder.entry_le
  have handlerLt := inOrder.handler_lt
  have chained := nesting.chained group listed
  rw [split] at chained
  have begins := (entry_of_chained chained).symm.trans starts
  have inFront (other : Clause) (otherMember : other ∈ front) :
      other ∈ members clauses group :=
    split ▸ List.mem_append_left _ otherMember
  have frontEnds (other : Clause) (otherMember : other ∈ front) : other.handlerEnd ≤ here := by
    have chain := pairwise_of_chained chained
    rw [← starts]
    exact (List.pairwise_append.mp chain).2.2 other otherMember clause (List.mem_cons_self ..)
  have beforeIt : blockOf clauses (before here) group = blockWith group (before here) front := by
    have begun := begun_of_split (before here) split
      (fun other otherMember => by simpa [before, ← starts] using frontLt other otherMember)
      (fun other otherMember => by
        have := leBehind other otherMember
        simp only [before, decide_eq_false_iff_not]
        omega)
    rw [blockOf, begun]
    simp [before, starts]
  have afterIt : blockOf clauses (upTo here) group =
      ⟨group.tryOffset, some group.tryEnd, some (pendingOf (upTo here) clause)⟩ := by
    refine blockOf_of_split nesting listed split (fun offset le => ?_) fun offset le => ?_
    · simp only [upTo, decide_eq_true_eq]
      omega
    · simp only [upTo, decide_eq_false_iff_not]
      omega
  have started := startHandler_blockWith (before here) begins
    (fun other otherMember => (mem_members.mp (inFront other otherMember)).2)
    (fun other otherMember => by
      have order := nesting.inOrder listed (inFront other otherMember)
      have := order.handler_lt
      have := frontEnds other otherMember
      simp only [before, decide_eq_true_eq]
      omega)
    clause.kind.flags clause.caught? (decide (clause.kind = .filterClause)) outer finished
  refine ⟨front.getLast?.toList, ?_, ?_, fun other => ?_⟩
  · rw [beforeIt, afterIt]
    exact foldlM_eventsOf starts entryLe started
  · cases front.getLast? <;> simp
  · rw [Option.mem_toList, ← starts]
    exact getLast?_eq_some_iff nesting listed split other

/-- A handler behind a filter ends no other handler. -/
theorem foldlM_filtered {group : RegionGroup} (listed : group ∈ groupsOf clauses)
    {clause : Clause} (member : clause ∈ members clauses group)
    (starts : clause.handlerOffset = here) (entered : clause.entry < here)
    (outer : List OpenBlock) (finished : List MarkedClause) :
    (eventsOf here clause).foldlM (Blocks.act here)
        ⟨blockOf clauses (before here) group :: outer, finished⟩ =
      some ⟨blockOf clauses (upTo here) group :: outer, finished⟩ := by
  obtain ⟨front, behind, split⟩ := List.append_of_mem member
  have handlerLt := (nesting.inOrder listed member).handler_lt
  have beforeIt : blockOf clauses (before here) group =
      ⟨group.tryOffset, some group.tryEnd, some (pendingOf (before here) clause)⟩ := by
    refine blockOf_of_split nesting listed split (fun offset le => ?_) fun offset le => ?_
    · simp only [before, decide_eq_true_eq]
      omega
    · simp only [before, decide_eq_false_iff_not]
      omega
  have afterIt : blockOf clauses (upTo here) group =
      ⟨group.tryOffset, some group.tryEnd, some (pendingOf (upTo here) clause)⟩ := by
    refine blockOf_of_split nesting listed split (fun offset le => ?_) fun offset le => ?_
    · simp only [upTo, decide_eq_true_eq]
      omega
    · simp only [upTo, decide_eq_false_iff_not]
      omega
  unfold Clause.entry at entered
  have kind : clause.kind = .filterClause := by
    refine Classical.byContradiction fun other => ?_
    rw [if_neg other] at entered
    omega
  rw [if_pos kind] at entered
  have passed : clause.filterOffset ≠ here := Nat.ne_of_lt entered
  rw [beforeIt, afterIt]
  simp [eventsOf, handlerEvents, kind, starts, passed, Blocks.act, Blocks.startFiltered, pendingOf,
    before, upTo, ClauseKind.flags]

/-- A handler of a group around an offset that ends there is one of the group of the clause
that begins there, and ends where the clause is entered. -/
theorem begins_of_ends {groups : List RegionGroup} (around : Around clauses here groups)
    {group : RegionGroup} (listed : group ∈ groupsOf clauses) {clause : Clause}
    (member : clause ∈ members clauses group)
    (starts : clause.entry = here ∨ clause.handlerOffset = here) {other : RegionGroup}
    (otherAround : other ∈ groups) {ended : Clause} (endedMember : ended ∈ members clauses other)
    (ends : ended.handlerEnd = here) : other = group ∧ clause.entry = here := by
  obtain ⟨clauseMember, guarded⟩ := mem_members.mp member
  obtain ⟨otherListed, _, otherWithin⟩ := (around.mem_iff other).mp otherAround
  obtain ⟨next, nextMember, nextStarts⟩ :=
    exists_start nesting otherListed otherWithin endedMember ends
  have same : next = clause := nesting.eq_of_starts (mem_members.mp nextMember).1 clauseMember
    (Or.inl nextStarts) starts
  subst same
  exact ⟨eq_of_guardedBy otherListed listed (mem_members.mp nextMember).2 guarded, nextStarts⟩

/-- The beginnings of handlers act on the innermost group. -/
theorem foldlM_starts {groups : List RegionGroup} (around : Around clauses here groups)
    (finished : List MarkedClause) :
    ∃ closed : List Clause,
      (clauses.flatMap (eventsOf here)).foldlM (Blocks.act here)
          ⟨groups.map (blockOf clauses (before here)), finished⟩ =
        some ⟨groups.map (blockOf clauses (upTo here)),
          finished ++ closed.map Clause.marked⟩ ∧
      closed.Nodup ∧
      ∀ clause, clause ∈ closed ↔
        ∃ group ∈ groups, clause ∈ members clauses group ∧ clause.handlerEnd = here := by
  rcases flatMap_eventsOf nesting here with
    ⟨clause, clauseMember, isStart, single⟩ | ⟨elsewhere, silent⟩
  · have starts : clause.entry = here ∨ clause.handlerOffset = here := by
      simpa [startsAt] using isStart
    obtain ⟨group, listed, guarded⟩ := (grouped_groupsOf clauses).covered clause clauseMember
    have member := mem_members.mpr ⟨clauseMember, guarded⟩
    obtain ⟨boundary, _, _, after, within⟩ := nesting.starts_within listed member starts
    have isAround := (around.mem_iff group).mpr ⟨listed, after, within⟩
    obtain ⟨outer, split⟩ := around.eq_cons isAround member boundary
    -- The clause belongs to the innermost group, so nothing begins in the groups around it.
    have outerStays : outer.map (blockOf clauses (before here)) =
        outer.map (blockOf clauses (upTo here)) := by
      refine List.map_congr_left fun other otherMember => blockOf_upTo fun second secondMember => ?_
      refine Bool.eq_false_iff.mpr fun alsoStarts => ?_
      have same : second = clause := nesting.eq_of_starts (mem_members.mp secondMember).1
        clauseMember (by simpa [startsAt] using alsoStarts) starts
      subst same
      have otherAround := (around.mem_iff other).mp (by rw [split]; simp [otherMember])
      have sameGroup := eq_of_guardedBy listed otherAround.1 guarded (mem_members.mp secondMember).2
      subst sameGroup
      have nested := around.nested
      rw [split] at nested
      have apart := (List.pairwise_cons.mp nested).1 group otherMember second member here boundary
      omega
    by_cases enters : clause.entry = here
    · obtain ⟨closed, folded, distinct, closedIff⟩ := foldlM_entry nesting listed member enters
        (outer.map (blockOf clauses (before here))) finished
      refine ⟨closed, ?_, distinct, fun ended => ?_⟩
      · rw [single, split, List.map_cons, List.map_cons, folded, outerStays]
      · rw [closedIff]
        constructor
        · exact fun inGroup => ⟨group, isAround, inGroup⟩
        · rintro ⟨other, otherAround, endedMember, ends⟩
          obtain ⟨rfl, _⟩ :=
            begins_of_ends nesting around listed member starts otherAround endedMember ends
          exact ⟨endedMember, ends⟩
    · have handlerStarts := starts.resolve_left enters
      have entered : clause.entry < here := by
        have entryLe := (nesting.inOrder listed member).entry_le
        omega
      refine ⟨[], ?_, .nil, fun ended => ⟨fun none => absurd none List.not_mem_nil, ?_⟩⟩
      · rw [single, split, List.map_cons, List.map_cons,
          foldlM_filtered nesting listed member handlerStarts entered, outerStays]
        simp
      · rintro ⟨other, otherAround, endedMember, ends⟩
        exact absurd
          (begins_of_ends nesting around listed member starts otherAround endedMember ends).2 enters
  · refine ⟨[], ?_, .nil, fun clause => ?_⟩
    · have stay : groups.map (blockOf clauses (before here)) =
          groups.map (blockOf clauses (upTo here)) :=
        List.map_congr_left fun group _ => blockOf_upTo fun clause member =>
          elsewhere clause (mem_members.mp member).1
      rw [silent, stay]
      simp
    · refine ⟨fun member => absurd member List.not_mem_nil, ?_⟩
      rintro ⟨group, isAround, member, ends⟩
      obtain ⟨listed, _, within⟩ := (around.mem_iff group).mp isAround
      obtain ⟨next, nextMember, starts⟩ := exists_start nesting listed within member ends
      have silentNext := elsewhere next (mem_members.mp nextMember).1
      simp [startsAt, starts] at silentNext

/-! ## Beginnings of blocks -/

omit nesting in
theorem foldlM_beginTry (count : Nat) (opened : List OpenBlock) (finished : List MarkedClause) :
    (List.replicate count RegionEvent.beginTry).foldlM (Blocks.act here) ⟨opened, finished⟩ =
      some ⟨List.replicate count ⟨here, none, none⟩ ++ opened, finished⟩ := by
  induction count generalizing opened with
  | zero => rfl
  | succ count ih =>
      rw [List.replicate_succ, List.foldlM_cons]
      refine (ih (⟨here, none, none⟩ :: opened)).trans ?_
      rw [List.replicate_succ', List.append_assoc]
      rfl

/-- Where the guarded range begins, the block of the group has no handler. -/
theorem blockOf_begun {group : RegionGroup} (listed : group ∈ groupsOf clauses)
    (begins : group.tryOffset = here) :
    blockOf clauses (upTo here) group = ⟨here, none, none⟩ := by
  have noneBegun : begun clauses (upTo here) group = [] := by
    refine List.filter_eq_nil_iff.mpr fun clause member => ?_
    have guard := nesting.tryOffset_lt listed
    have startLe := (nesting.inOrder listed member).start_le
    simp only [upTo, decide_eq_true_eq]
    omega
  simp [blockOf, blockWith, noneBegun, begins]

omit nesting in
theorem lastEnd_mem_boundaries {group : RegionGroup} (listed : group ∈ groupsOf clauses) :
    ∃ clause ∈ members clauses group,
      group.tryOffset ∈ clause.boundaries ∧ group.tryEnd ∈ clause.boundaries ∧
        group.lastEnd ∈ clause.boundaries := by
  obtain ⟨clause, member, guarded, ends⟩ := (grouped_groupsOf clauses).attained group listed
  obtain ⟨offset, rangeEnds⟩ := tryOffset_of_guardedBy guarded
  refine ⟨clause, mem_members.mpr ⟨member, guarded⟩, ?_, ?_, ?_⟩
  · rw [← offset]
    simp [Clause.boundaries]
  · rw [← rangeEnds]
    simp [Clause.boundaries]
  · rw [← ends]
    simp [Clause.boundaries]

omit nesting in
/-- Of two groups around an offset the inner one ends first. -/
theorem lastEnd_le {inner outer : RegionGroup} (listed : outer ∈ groupsOf clauses)
    (spares : Spares clauses outer inner) (starts : inner.tryOffset < outer.lastEnd) :
    inner.lastEnd ≤ outer.lastEnd := by
  obtain ⟨clause, member, _, _, boundary⟩ := lastEnd_mem_boundaries listed
  have apart := spares clause member _ boundary
  omega

/-- Groups that begin at the same offset, the one that ends first in front. -/
theorem spares_of_lastEnd_le {inner outer : RegionGroup} (innerListed : inner ∈ groupsOf clauses)
    (outerListed : outer ∈ groupsOf clauses) (differs : inner ≠ outer)
    (starts : inner.tryOffset = outer.tryOffset) (ends : inner.lastEnd ≤ outer.lastEnd) :
    Spares clauses outer inner := by
  rcases nesting.spares_or innerListed outerListed differs with spares | spares
  · obtain ⟨clause, member, _, boundary, _⟩ := lastEnd_mem_boundaries innerListed
    have apart := spares clause member _ boundary
    have := nesting.tryOffset_lt innerListed
    have := nesting.tryEnd_lt innerListed
    omega
  · exact spares

/-- A group that begins within another one is the inner one. -/
theorem spares_of_tryOffset {inner outer : RegionGroup} (innerListed : inner ∈ groupsOf clauses)
    (outerListed : outer ∈ groupsOf clauses) (after : outer.tryOffset < inner.tryOffset)
    (within : inner.tryOffset < outer.lastEnd) : Spares clauses outer inner := by
  have differs : inner ≠ outer := by
    rintro rfl
    omega
  rcases nesting.spares_or innerListed outerListed differs with spares | spares
  · obtain ⟨clause, member, boundary, _, _⟩ := lastEnd_mem_boundaries innerListed
    have apart := spares clause member _ boundary
    omega
  · exact spares

end Nested

end Regions

end Cil
