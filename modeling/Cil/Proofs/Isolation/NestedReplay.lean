import Cil.Proofs.Isolation.BlockEvents

/-!
# Replaying tables that nest

The events at an offset end the groups that end there, then begin handlers and then groups.
After the last offset the finished clauses are those of the table, in the order in which their
handlers end.
-/

namespace Cil

/-- What the events at some offsets do to the blocks. -/
def Blocks.replayAll (clauses : List Clause) (blocks : Blocks) (offsets : List Nat) :
    Option Blocks :=
  offsets.foldlM (fun blocks offset => blocks.replayAt clauses offset offset) blocks

namespace Regions

/-- How far a table is replayed: the groups that are open, the innermost one first, and the
clauses that are finished. -/
structure Replayed (clauses : List Clause) (past : Nat → Bool) (opens : List RegionGroup)
    (order : List Clause) (blocks : Blocks) : Prop where
  opens_perm : opens.Perm
    ((groupsOf clauses).filter fun group => past group.tryOffset && !past group.lastEnd)
  nested : opens.Pairwise fun inner outer => Spares clauses outer inner
  opened : blocks.opened = opens.map (blockOf clauses past)
  order_perm : order.Perm (clauses.filter (past ·.handlerEnd))
  sorted : order.Pairwise fun first second => first.handlerEnd ≤ second.handlerEnd
  finished : blocks.finished = order.map Clause.marked

section Nested

variable {clauses : List Clause} (nesting : WellNested clauses) {here : Nat}
include nesting

/-! ## One offset -/

omit nesting in
theorem nodup_groupsOf (clauses : List Clause) : (groupsOf clauses).Nodup :=
  List.Pairwise.of_map RegionGroup.range (fun _ _ differs same => differs (congrArg _ same))
    (grouped_groupsOf clauses).distinct

omit nesting in
/-- Groups that end at an offset come before those that end later. -/
theorem filter_append_filter {groups : List RegionGroup}
    (sorted : groups.Pairwise fun inner outer => inner.lastEnd ≤ outer.lastEnd)
    (ahead : ∀ group ∈ groups, here ≤ group.lastEnd) :
    groups.filter (·.lastEnd == here) ++ groups.filter (·.lastEnd != here) = groups := by
  induction groups with
  | nil => rfl
  | cons first groups ih =>
      obtain ⟨firstLe, sorted⟩ := List.pairwise_cons.mp sorted
      obtain ⟨firstAhead, ahead⟩ := List.forall_mem_cons.mp ahead
      by_cases ends : first.lastEnd = here
      · rw [List.filter_cons_of_pos (by simpa using ends),
          List.filter_cons_of_neg (by simpa using ends), List.cons_append, ih sorted ahead]
      · have later (group : RegionGroup) (member : group ∈ first :: groups) :
            group.lastEnd ≠ here := by
          rcases List.mem_cons.mp member with rfl | member
          · exact ends
          · have := firstLe group member
            omega
        rw [List.filter_eq_nil_iff.mpr fun group member => by simpa using later group member,
          List.filter_eq_self.mpr fun group member => by simpa using later group member,
          List.nil_append]


def beginning (clauses : List Clause) (here : Nat) : List RegionGroup :=
  ((groupsOf clauses).filter (·.tryOffset == here)).mergeSort
    fun inner outer => inner.lastEnd ≤ outer.lastEnd

omit nesting in
theorem perm_beginning (clauses : List Clause) (here : Nat) :
    (beginning clauses here).Perm ((groupsOf clauses).filter (·.tryOffset == here)) :=
  List.mergeSort_perm ..

omit nesting in
theorem mem_beginning {group : RegionGroup} : group ∈ beginning clauses here ↔
    group ∈ groupsOf clauses ∧ group.tryOffset = here := by
  rw [(perm_beginning clauses here).mem_iff, List.mem_filter, beq_iff_eq]

omit nesting in
theorem nodup_beginning (clauses : List Clause) (here : Nat) : (beginning clauses here).Nodup :=
  (perm_beginning clauses here).nodup_iff.mpr ((nodup_groupsOf clauses).filter _)

theorem nested_beginning (here : Nat) :
    (beginning clauses here).Pairwise fun inner outer => Spares clauses outer inner := by
  have sorted : (beginning clauses here).Pairwise fun inner outer =>
      decide (inner.lastEnd ≤ outer.lastEnd) = true := by
    refine List.pairwise_mergeSort (fun first second third le lt => ?_) (fun first second => ?_) _
    · simp only [decide_eq_true_eq] at le lt ⊢
      omega
    · simp only [Bool.or_eq_true, decide_eq_true_eq]
      omega
  refine ((nodup_beginning clauses here).and sorted).imp_of_mem ?_
  rintro inner outer innerBegins outerBegins ⟨differs, ends⟩
  obtain ⟨innerListed, innerStarts⟩ := mem_beginning.mp innerBegins
  obtain ⟨outerListed, outerStarts⟩ := mem_beginning.mp outerBegins
  exact spares_of_lastEnd_le nesting innerListed outerListed differs
    (innerStarts.trans outerStarts.symm) (of_decide_eq_true ends)

namespace Replayed

variable {opens : List RegionGroup} {order : List Clause} {blocks : Blocks}

omit nesting in
theorem mem_opens {past : Nat → Bool} (replayed : Replayed clauses past opens order blocks)
    {group : RegionGroup} : group ∈ opens ↔
      group ∈ groupsOf clauses ∧ past group.tryOffset ∧ past group.lastEnd = false := by
  rw [replayed.opens_perm.mem_iff, List.mem_filter]
  simp

omit nesting in
theorem mem_order {past : Nat → Bool} (replayed : Replayed clauses past opens order blocks)
    {clause : Clause} : clause ∈ order ↔ clause ∈ clauses ∧ past clause.handlerEnd := by
  rw [replayed.order_perm.mem_iff, List.mem_filter]

omit nesting in
theorem nodup_opens {past : Nat → Bool} (replayed : Replayed clauses past opens order blocks) :
    opens.Nodup :=
  replayed.opens_perm.nodup_iff.mpr ((nodup_groupsOf clauses).filter _)

theorem nodup_order {past : Nat → Bool} (replayed : Replayed clauses past opens order blocks) :
    order.Nodup :=
  replayed.order_perm.nodup_iff.mpr (nesting.nodup.filter _)

omit nesting in
/-- The open groups before an offset begin before it and end there or later. -/
theorem mem_opens_before (replayed : Replayed clauses (before here) opens order blocks)
    {group : RegionGroup} : group ∈ opens ↔
      group ∈ groupsOf clauses ∧ group.tryOffset < here ∧ here ≤ group.lastEnd := by
  rw [replayed.mem_opens]
  simp [before]

omit nesting in
theorem sorted_opens (replayed : Replayed clauses (before here) opens order blocks) :
    opens.Pairwise fun inner outer => inner.lastEnd ≤ outer.lastEnd := by
  refine replayed.nested.imp_of_mem fun {inner outer} innerOpen outerOpen spares => ?_
  obtain ⟨_, innerStarts, _⟩ := replayed.mem_opens_before.mp innerOpen
  obtain ⟨outerListed, _, outerEnds⟩ := replayed.mem_opens_before.mp outerOpen
  exact lastEnd_le outerListed spares (by omega)

/-- All groups that end at an offset are open before it. -/
theorem length_ending (replayed : Replayed clauses (before here) opens order blocks) :
    (opens.filter (·.lastEnd == here)).length =
      ((groupsOf clauses).filter (·.lastEnd == here)).length := by
  refine (replayed.opens_perm.filter _).length_eq.trans (congrArg List.length ?_)
  rw [List.filter_filter]
  refine List.filter_congr fun group listed => ?_
  have guard := nesting.tryOffset_lt listed
  have ends := nesting.tryEnd_lt listed
  by_cases atEnd : group.lastEnd = here
  · have started : group.tryOffset < here := by omega
    simp [before, atEnd, started]
  · simp [atEnd]

omit nesting in
theorem around (replayed : Replayed clauses (before here) opens order blocks) :
    Around clauses here (opens.filter (·.lastEnd != here)) := by
  refine ⟨fun group => ?_, replayed.nested.filter _⟩
  rw [List.mem_filter, replayed.mem_opens_before, bne_iff_ne]
  constructor
  · rintro ⟨⟨listed, starts, ends⟩, later⟩
    exact ⟨listed, starts, by omega⟩
  · rintro ⟨listed, starts, ends⟩
    exact ⟨⟨listed, starts, by omega⟩, by omega⟩

/-- The groups that begin at an offset lie within those around it. -/
theorem nested_append (replayed : Replayed clauses (before here) opens order blocks) :
    (beginning clauses here ++ opens.filter (·.lastEnd != here)).Pairwise
      fun inner outer => Spares clauses outer inner := by
  refine List.pairwise_append.mpr ⟨nested_beginning nesting here, replayed.around.nested, ?_⟩
  intro inner begins outer stays
  obtain ⟨innerListed, innerStarts⟩ := mem_beginning.mp begins
  obtain ⟨outerListed, outerStarts, outerEnds⟩ := (replayed.around.mem_iff outer).mp stays
  exact spares_of_tryOffset nesting innerListed outerListed (by omega) (by omega)

theorem opens_step (replayed : Replayed clauses (before here) opens order blocks) :
    (beginning clauses here ++ opens.filter (·.lastEnd != here)).Perm
      ((groupsOf clauses).filter fun group =>
        upTo here group.tryOffset && !upTo here group.lastEnd) := by
  refine (List.perm_ext_iff_of_nodup ?_ ((nodup_groupsOf clauses).filter _)).mpr fun group => ?_
  · refine List.nodup_append.mpr
      ⟨nodup_beginning clauses here, replayed.nodup_opens.filter _, ?_⟩
    rintro group begins other stays rfl
    have starts := (mem_beginning.mp begins).2
    have earlier := ((replayed.around.mem_iff group).mp stays).2.1
    omega
  · rw [List.mem_append, mem_beginning, replayed.around.mem_iff, List.mem_filter]
    simp only [upTo, Bool.and_eq_true, Bool.not_eq_true', decide_eq_true_eq,
      decide_eq_false_iff_not]
    constructor
    · rintro (⟨listed, starts⟩ | ⟨listed, starts, ends⟩)
      · have guard := nesting.tryOffset_lt listed
        have ends := nesting.tryEnd_lt listed
        exact ⟨listed, by omega, by omega⟩
      · exact ⟨listed, by omega, by omega⟩
    · rintro ⟨listed, starts, ends⟩
      by_cases begins : group.tryOffset = here
      · exact Or.inl ⟨listed, begins⟩
      · exact Or.inr ⟨listed, by omega, by omega⟩

/-- The clauses whose handlers end at an offset follow those that are finished before it. -/
theorem order_step (replayed : Replayed clauses (before here) opens order blocks)
    {closed : List Clause} (distinct : closed.Nodup)
    (closedIff : ∀ clause, clause ∈ closed ↔ clause ∈ clauses ∧ clause.handlerEnd = here) :
    (order ++ closed).Perm (clauses.filter (upTo here ·.handlerEnd)) ∧
      (order ++ closed).Pairwise fun first second => first.handlerEnd ≤ second.handlerEnd := by
  have earlier (clause : Clause) : clause ∈ order ↔
      clause ∈ clauses ∧ clause.handlerEnd < here := by
    rw [replayed.mem_order]
    simp [before]
  constructor
  · refine (List.perm_ext_iff_of_nodup ?_ (nesting.nodup.filter _)).mpr fun clause => ?_
    · refine List.nodup_append.mpr ⟨replayed.nodup_order nesting, distinct, ?_⟩
      rintro clause finished other closes rfl
      have := ((earlier clause).mp finished).2
      have := ((closedIff clause).mp closes).2
      omega
    · rw [List.mem_append, earlier, closedIff, List.mem_filter]
      simp only [upTo, decide_eq_true_eq]
      constructor
      · rintro (⟨member, ends⟩ | ⟨member, ends⟩)
        · exact ⟨member, by omega⟩
        · exact ⟨member, by omega⟩
      · rintro ⟨member, ends⟩
        by_cases endsHere : clause.handlerEnd = here
        · exact Or.inr ⟨member, endsHere⟩
        · exact Or.inl ⟨member, by omega⟩
  · refine List.pairwise_append.mpr ⟨replayed.sorted, ?_, fun first finished second closes => ?_⟩
    · refine List.pairwise_of_forall_mem_list fun first firstCloses second secondCloses => ?_
      have := ((closedIff first).mp firstCloses).2
      have := ((closedIff second).mp secondCloses).2
      omega
    · have := ((earlier first).mp finished).2
      have := ((closedIff second).mp closes).2
      omega

/-- The clauses of the groups that end at an offset and those of the groups that stay. -/
theorem closed_append (replayed : Replayed clauses (before here) opens order blocks)
    {ended next : List Clause} (endedDistinct : ended.Nodup) (nextDistinct : next.Nodup)
    (endedIff : ∀ clause, clause ∈ ended ↔ ∃ group ∈ opens.filter (·.lastEnd == here),
      clause ∈ members clauses group ∧ clause.handlerEnd = here)
    (nextIff : ∀ clause, clause ∈ next ↔ ∃ group ∈ opens.filter (·.lastEnd != here),
      clause ∈ members clauses group ∧ clause.handlerEnd = here) :
    (ended ++ next).Nodup ∧
      ∀ clause, clause ∈ ended ++ next ↔ clause ∈ clauses ∧ clause.handlerEnd = here := by
  constructor
  · refine List.nodup_append.mpr ⟨endedDistinct, nextDistinct, ?_⟩
    rintro clause isEnded other isNext rfl
    obtain ⟨group, groupEnds, member, _⟩ := (endedIff clause).mp isEnded
    obtain ⟨other, otherStays, otherMember, _⟩ := (nextIff clause).mp isNext
    obtain ⟨groupOpen, ends⟩ := List.mem_filter.mp groupEnds
    obtain ⟨otherOpen, stays⟩ := List.mem_filter.mp otherStays
    have same := eq_of_guardedBy (replayed.mem_opens.mp groupOpen).1
      (replayed.mem_opens.mp otherOpen).1 (mem_members.mp member).2 (mem_members.mp otherMember).2
    rw [same, beq_iff_eq] at ends
    exact absurd ends (bne_iff_ne.mp stays)
  · intro clause
    rw [List.mem_append, endedIff, nextIff]
    constructor
    · rintro (⟨group, _, member, ends⟩ | ⟨group, _, member, ends⟩)
      · exact ⟨(mem_members.mp member).1, ends⟩
      · exact ⟨(mem_members.mp member).1, ends⟩
    · rintro ⟨listedClause, ends⟩
      obtain ⟨group, listed, guarded⟩ := (grouped_groupsOf clauses).covered clause listedClause
      have member := mem_members.mpr ⟨listedClause, guarded⟩
      have bound := handlerEnd_le listed member
      have guard := nesting.tryOffset_lt listed
      have inOrder := nesting.inOrder listed member
      have := inOrder.start_le
      have := inOrder.entry_le
      have := inOrder.handler_lt
      have isOpen : group ∈ opens :=
        replayed.mem_opens_before.mpr ⟨listed, by omega, by omega⟩
      by_cases groupEnds : group.lastEnd = here
      · exact Or.inl ⟨group, List.mem_filter.mpr ⟨isOpen, by simpa using groupEnds⟩, member, ends⟩
      · exact Or.inr ⟨group, List.mem_filter.mpr ⟨isOpen, by simpa using groupEnds⟩, member, ends⟩

theorem step (replayed : Replayed clauses (before here) opens order blocks) :
    ∃ opens order after, blocks.replayAt clauses here here = some after ∧
      Replayed clauses (upTo here) opens order after := by
  have ahead (group : RegionGroup) (isOpen : group ∈ opens) : here ≤ group.lastEnd :=
    (replayed.mem_opens_before.mp isOpen).2.2
  have listed (group : RegionGroup) (ends : group ∈ opens.filter (·.lastEnd == here)) :
      group ∈ groupsOf clauses :=
    (replayed.mem_opens.mp (List.mem_filter.mp ends).1).1
  have apart := filter_append_filter replayed.sorted_opens ahead
  obtain ⟨ended, endRun, endedDistinct, endedIff⟩ := foldlM_endTry nesting
    blocks.finished (opens.filter (·.lastEnd != here)) listed
    (replayed.nodup_opens.filter _) (fun group ends => by simpa using (List.mem_filter.mp ends).2)
  obtain ⟨next, startRun, nextDistinct, nextIff⟩ :=
    foldlM_starts nesting replayed.around (blocks.finished ++ ended.map Clause.marked)
  obtain ⟨distinct, closedIff⟩ :=
    replayed.closed_append nesting endedDistinct nextDistinct endedIff nextIff
  obtain ⟨orderPerm, sorted⟩ := replayed.order_step nesting distinct closedIff
  have begun : (beginning clauses here).map (blockOf clauses (upTo here)) =
      List.replicate (beginning clauses here).length ⟨here, none, none⟩ := by
    refine List.eq_replicate_iff.mpr ⟨by simp, fun block member => ?_⟩
    obtain ⟨group, begins, rfl⟩ := List.mem_map.mp member
    obtain ⟨groupListed, starts⟩ := mem_beginning.mp begins
    exact blockOf_begun nesting groupListed starts
  refine ⟨_, _, ⟨_, (order ++ (ended ++ next)).map Clause.marked⟩, ?_,
    replayed.opens_step nesting, replayed.nested_append nesting, rfl, orderPerm, sorted, rfl⟩
  rw [apart, ← replayed.opened] at endRun
  rw [Blocks.replayAt, eventsAt_eq, List.foldlM_append, List.foldlM_append,
    ← replayed.length_ending nesting, endRun]
  refine (congrArg (Option.bind · _) startRun).trans ?_
  refine (foldlM_beginTry _ _ _).trans ?_
  rw [← (perm_beginning clauses here).length_eq, List.map_append, begun, replayed.finished]
  simp

omit nesting in
/-- Only what is past of the boundaries of clauses counts. -/
theorem congr {past later : Nat → Bool} (replayed : Replayed clauses past opens order blocks)
    (agree : ∀ clause ∈ clauses, ∀ boundary ∈ clause.boundaries, past boundary = later boundary) :
    Replayed clauses later opens order blocks := by
  have sameGroups : (groupsOf clauses).filter (fun group =>
        past group.tryOffset && !past group.lastEnd) =
      (groupsOf clauses).filter fun group => later group.tryOffset && !later group.lastEnd := by
    refine List.filter_congr fun group listed => ?_
    obtain ⟨clause, member, starts, _, ends⟩ := lastEnd_mem_boundaries listed
    have listedClause := (mem_members.mp member).1
    rw [agree clause listedClause _ starts, agree clause listedClause _ ends]
  have sameClauses : clauses.filter (past ·.handlerEnd) = clauses.filter (later ·.handlerEnd) :=
    List.filter_congr fun clause member =>
      agree clause member _ (by simp [Clause.boundaries])
  have sameBlocks : opens.map (blockOf clauses past) = opens.map (blockOf clauses later) := by
    refine List.map_congr_left fun group _ => blockOf_congr fun clause member => ?_
    have listedClause := (mem_members.mp member).1
    exact ⟨agree clause listedClause _ (entry_mem_boundaries clause),
      agree clause listedClause _ (by simp [Clause.boundaries])⟩
  exact ⟨sameGroups ▸ replayed.opens_perm, replayed.nested, replayed.opened.trans sameBlocks,
    sameClauses ▸ replayed.order_perm, replayed.sorted, replayed.finished⟩

end Replayed

/-! ## All offsets -/

omit nesting in
/-- In front of an offset stand the offsets before it. -/
theorem contains_eq_before {front rest : List Nat} {here boundary : Nat}
    (sorted : (front ++ here :: rest).Pairwise (· < ·))
    (listed : boundary ∈ front ++ here :: rest) :
    front.contains boundary = before here boundary := by
  obtain ⟨_, restSorted, apart⟩ := List.pairwise_append.mp sorted
  have restAhead := (List.pairwise_cons.mp restSorted).1
  rw [List.contains_eq_mem, before, decide_eq_decide]
  constructor
  · exact fun passed => apart boundary passed here (List.mem_cons_self ..)
  · intro earlier
    rcases List.mem_append.mp listed with passed | ahead
    · exact passed
    · rcases List.mem_cons.mp ahead with rfl | ahead
      · omega
      · have := restAhead boundary ahead
        omega

omit nesting in
theorem contains_concat_eq_upTo {front rest : List Nat} {here boundary : Nat}
    (sorted : (front ++ here :: rest).Pairwise (· < ·))
    (listed : boundary ∈ front ++ here :: rest) :
    (front ++ [here]).contains boundary = upTo here boundary := by
  have earlier := contains_eq_before sorted listed
  rw [List.contains_eq_mem, before, decide_eq_decide] at earlier
  rw [List.contains_eq_mem, upTo, decide_eq_decide, List.mem_append, List.mem_singleton, earlier]
  omega

/-- Replaying the rest of the offsets, where all boundaries of clauses are among the offsets. -/
theorem replayAll_rest (front : List Nat) {rest : List Nat} {opens : List RegionGroup}
    {order : List Clause} {blocks : Blocks} (sorted : (front ++ rest).Pairwise (· < ·))
    (complete : ∀ clause ∈ clauses, ∀ boundary ∈ clause.boundaries, boundary ∈ front ++ rest)
    (replayed : Replayed clauses front.contains opens order blocks) :
    ∃ order : List Clause,
      blocks.replayAll clauses rest = some ⟨[], order.map Clause.marked⟩ ∧
      order.Perm clauses ∧
      order.Pairwise fun first second => first.handlerEnd ≤ second.handlerEnd := by
  -- What is replayed so far depends on the offsets in front, which the induction takes along.
  induction rest generalizing front opens order blocks with
  | nil =>
      rw [List.append_nil] at complete
      have noneOpen : opens = [] := by
        refine List.eq_nil_iff_forall_not_mem.mpr fun group isOpen => ?_
        obtain ⟨listed, _, ahead⟩ := replayed.mem_opens.mp isOpen
        obtain ⟨clause, member, _, _, ends⟩ := lastEnd_mem_boundaries listed
        have passed := complete clause (mem_members.mp member).1 _ ends
        simp [passed] at ahead
      have allFinished : clauses.filter (front.contains ·.handlerEnd) = clauses :=
        List.filter_eq_self.mpr fun clause member => by
          simpa using complete clause member clause.handlerEnd (by simp [Clause.boundaries])
      have opened := replayed.opened
      rw [noneOpen] at opened
      refine ⟨order, ?_, allFinished ▸ replayed.order_perm, replayed.sorted⟩
      rw [Blocks.replayAll, List.foldlM_nil, ← replayed.finished, ← List.map_nil, ← opened]
      rfl
  | cons here rest ih =>
      have isBefore : Replayed clauses (before here) opens order blocks :=
        replayed.congr fun clause member boundary isBoundary =>
          contains_eq_before sorted (complete clause member boundary isBoundary)
      obtain ⟨opens, order, after, acts, upToHere⟩ := isBefore.step nesting
      have next : Replayed clauses (front ++ [here]).contains opens order after :=
        upToHere.congr fun clause member boundary isBoundary =>
          (contains_concat_eq_upTo sorted (complete clause member boundary isBoundary)).symm
      have whole : front ++ here :: rest = (front ++ [here]) ++ rest := by simp
      rw [whole] at sorted complete
      obtain ⟨order, folded, perm, orderSorted⟩ := ih _ sorted complete next
      refine ⟨order, ?_, perm, orderSorted⟩
      rw [Blocks.replayAll, List.foldlM_cons, acts]
      exact folded

/-- Replaying a table that nests at all offsets finishes all clauses, those with overlapping
guarded ranges in the order of the table. -/
theorem replayAll_nested {offsets : List Nat} (sorted : offsets.Pairwise (· < ·))
    (complete : ∀ clause ∈ clauses, ∀ boundary ∈ clause.boundaries, boundary ∈ offsets) :
    ∃ order : List Clause,
      Blocks.replayAll clauses ⟨[], []⟩ offsets = some ⟨[], order.map Clause.marked⟩ ∧
      order.Perm clauses ∧
      order.Pairwise fun first second =>
        first.Overlaps second → [first, second].Sublist clauses := by
  have start : Replayed clauses ([] : List Nat).contains [] [] ⟨[], []⟩ :=
    ⟨by simp, .nil, rfl, by simp, .nil, rfl⟩
  obtain ⟨order, folded, perm, ends⟩ := replayAll_rest nesting [] sorted complete start
  refine ⟨order, folded, perm, ?_⟩
  have distinct : order.Nodup := perm.nodup_iff.mpr nesting.nodup
  refine (distinct.and ends).imp_of_mem ?_
  rintro first second firstMember secondMember ⟨differs, endsFirst⟩ overlaps
  have inTable : clauses.Pairwise fun one other => [one, other].Sublist clauses :=
    List.pairwise_iff_forall_sublist.mpr id
  rcases or_of_pairwise inTable (perm.mem_iff.mp firstMember) (perm.mem_iff.mp secondMember)
    differs with inOrder | reversed
  · exact inOrder
  · have endsLater := List.pairwise_iff_forall_sublist.mp nesting.handlerEnd_lt reversed
      ⟨overlaps.2, overlaps.1⟩
    omega

end Nested

end Regions

end Cil
