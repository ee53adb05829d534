import Cil.Isolation.Regions

/-!
# Tables of clauses that nest

In a table that nests, the handlers of a guarded range follow it and each other without gaps,
ranges with their handlers are apart or lie within one part of the other, and clauses of inner
ranges come first.
-/

namespace Cil

namespace Clause

/-- Where the handler begins, together with its filter. -/
def entry (clause : Clause) : Nat :=
  if clause.kind = .filterClause then clause.filterOffset else clause.handlerOffset

/-- Whether a group of clauses guards the range of the clause. -/
def guardedBy (clause : Clause) (group : RegionGroup) : Bool :=
  group.tryOffset == clause.tryOffset && group.tryLength == clause.tryLength

/-- The guarded ranges of two clauses have an offset in common. -/
def Overlaps (first second : Clause) : Prop :=
  first.tryOffset < second.tryEnd ∧ second.tryOffset < first.tryEnd

instance (first second : Clause) : Decidable (first.Overlaps second) :=
  inferInstanceAs (Decidable (_ ∧ _))

end Clause

def RegionGroup.tryEnd (group : RegionGroup) : Nat :=
  min (group.tryOffset + group.tryLength) Clause.lastOffset

/-- The guarded range as it is written. -/
def RegionGroup.range (group : RegionGroup) : Nat × Nat :=
  (group.tryOffset, group.tryLength)

namespace Regions

def members (clauses : List Clause) (group : RegionGroup) : List Clause :=
  clauses.filter (·.guardedBy group)

/-- Handlers that stand one behind the other, from an offset on. -/
def Chained : (start : Nat) → List Clause → Prop
  | _, [] => True
  | start, clause :: rest =>
      clause.entry = start ∧ clause.entry ≤ clause.handlerOffset ∧
        clause.handlerOffset < clause.handlerEnd ∧ Chained clause.handlerEnd rest

instance decidableChained : (start : Nat) → (clauses : List Clause) →
    Decidable (Chained start clauses)
  | _, [] => isTrue trivial
  | _, clause :: rest =>
      have := decidableChained clause.handlerEnd rest
      inferInstanceAs (Decidable (_ ∧ _ ∧ _ ∧ _))

/-- No boundary of one group lies within the other, so that the other is outside of it or
within one of its parts. -/
def Spares (clauses : List Clause) (outer inner : RegionGroup) : Prop :=
  ∀ clause ∈ members clauses outer, ∀ boundary ∈ clause.boundaries,
    boundary ≤ inner.tryOffset ∨ inner.lastEnd ≤ boundary

instance (clauses : List Clause) (outer inner : RegionGroup) :
    Decidable (Spares clauses outer inner) :=
  inferInstanceAs (Decidable (∀ clause ∈ _, ∀ boundary ∈ _, _ ∨ _))

/-- A table of clauses that nests. -/
structure WellNested (clauses : List Clause) : Prop where
  /-- No guarded range is empty. -/
  guarded : ∀ clause ∈ clauses, clause.tryOffset < clause.tryEnd
  /-- The handlers of a guarded range stand right behind it, one behind the other. -/
  chained : ∀ group ∈ groupsOf clauses, Chained group.tryEnd (members clauses group)
  /-- Guarded ranges with their handlers are apart or nested. -/
  nested : (groupsOf clauses).Pairwise fun first second =>
    Spares clauses first second ∨ Spares clauses second first
  /-- Clauses of inner ranges come first. -/
  innerFirst : clauses.Pairwise fun first second => first.Overlaps second →
    second.tryOffset ≤ first.tryOffset ∧ first.tryEnd ≤ second.tryEnd

/-! ## Groups -/

theorem guardedBy_iff {clause : Clause} {group : RegionGroup} :
    clause.guardedBy group ↔ group.range = (clause.tryOffset, clause.tryLength) := by
  simp [Clause.guardedBy, RegionGroup.range]

def extend (clause : Clause) (group : RegionGroup) : RegionGroup :=
  if clause.guardedBy group then
    { group with lastEnd := max group.lastEnd clause.handlerEnd }
  else group

theorem range_extend (clause : Clause) (group : RegionGroup) :
    (extend clause group).range = group.range := by
  unfold extend
  split <;> rfl

theorem guardedBy_extend (clause other : Clause) (group : RegionGroup) :
    other.guardedBy (extend clause group) = other.guardedBy group := by
  unfold extend
  split <;> rfl

theorem addToGroups_cases {groups : List RegionGroup}
    (distinct : (groups.map RegionGroup.range).Nodup) (clause : Clause) :
    (∃ group ∈ groups, clause.guardedBy group) ∧
        addToGroups groups clause = groups.map (extend clause) ∨
      (∀ group ∈ groups, clause.guardedBy group = false) ∧
        addToGroups groups clause =
          groups ++ [⟨clause.tryOffset, clause.tryLength, clause.handlerEnd⟩] := by
  induction groups with
  | nil => exact Or.inr ⟨by simp, rfl⟩
  | cons first groups ih =>
      obtain ⟨fresh, distinct⟩ := List.nodup_cons.mp distinct
      unfold addToGroups
      split
      · rename_i same
        have guarded : clause.guardedBy first := by simp [Clause.guardedBy, same]
        have others : groups.map (extend clause) = groups := by
          refine (List.map_congr_left fun group member => ?_).trans (List.map_id groups)
          refine if_neg fun alsoGuarded => fresh ?_
          rw [guardedBy_iff.mp guarded, ← guardedBy_iff.mp alsoGuarded]
          exact List.mem_map_of_mem member
        refine Or.inl ⟨⟨first, List.mem_cons_self .., guarded⟩, ?_⟩
        rw [List.map_cons, others, extend, if_pos guarded]
      · rename_i differs
        have unguarded : clause.guardedBy first = false := by
          simpa [Clause.guardedBy] using differs
        rcases ih distinct with ⟨⟨group, member, guarded⟩, added⟩ | ⟨noneGuards, added⟩
        · refine Or.inl ⟨⟨group, List.mem_cons_of_mem _ member, guarded⟩, ?_⟩
          rw [added, List.map_cons, extend, if_neg (by simp [unguarded])]
        · exact Or.inr ⟨List.forall_mem_cons.mpr ⟨unguarded, noneGuards⟩, by rw [added]; rfl⟩

/-- Groups that stand for the clauses of a table, one for each guarded range. -/
structure Grouped (clauses : List Clause) (groups : List RegionGroup) : Prop where
  distinct : (groups.map RegionGroup.range).Nodup
  covered : ∀ clause ∈ clauses, ∃ group ∈ groups, clause.guardedBy group
  bounded : ∀ group ∈ groups, ∀ clause ∈ clauses, clause.guardedBy group →
    clause.handlerEnd ≤ group.lastEnd
  attained : ∀ group ∈ groups, ∃ clause ∈ clauses, clause.guardedBy group ∧
    clause.handlerEnd = group.lastEnd

/-- The group that guards the range of a new clause takes it in. -/
theorem Grouped.extended {clauses : List Clause} {groups : List RegionGroup}
    (grouped : Grouped clauses groups) {clause : Clause} {guard : RegionGroup}
    (guardMember : guard ∈ groups) (guarded : clause.guardedBy guard) :
    Grouped (clauses ++ [clause]) (groups.map (extend clause)) := by
  refine ⟨?_, fun other member => ?_, fun group member other otherMember isGuarded => ?_,
    fun group member => ?_⟩
  · have same : groups.map (RegionGroup.range ∘ extend clause) = groups.map RegionGroup.range :=
      List.map_congr_left fun group _ => range_extend clause group
    rw [List.map_map, same]
    exact grouped.distinct
  · have covered : ∃ group ∈ groups, other.guardedBy group := by
      rcases List.mem_append.mp member with member | member
      · exact grouped.covered other member
      · rw [List.mem_singleton.mp member]
        exact ⟨guard, guardMember, guarded⟩
    obtain ⟨group, groupMember, isGuarded⟩ := covered
    exact ⟨extend clause group, List.mem_map_of_mem groupMember,
      (guardedBy_extend clause other group).trans isGuarded⟩
  · obtain ⟨original, originalMember, rfl⟩ := List.mem_map.mp member
    rw [guardedBy_extend] at isGuarded
    rcases List.mem_append.mp otherMember with otherMember | otherMember
    · have bound := grouped.bounded original originalMember other otherMember isGuarded
      unfold extend
      split
      · exact Nat.le_trans bound (Nat.le_max_left _ _)
      · exact bound
    · obtain rfl := List.mem_singleton.mp otherMember
      rw [extend, if_pos isGuarded]
      exact Nat.le_max_right _ _
  · obtain ⟨original, originalMember, rfl⟩ := List.mem_map.mp member
    obtain ⟨last, lastMember, lastGuarded, lastEnd⟩ := grouped.attained original originalMember
    unfold extend
    split
    · rename_i isGuarded
      rcases Nat.le_total original.lastEnd clause.handlerEnd with le | le
      · exact ⟨clause, List.mem_append_right _ (List.mem_singleton.mpr rfl), isGuarded,
          (Nat.max_eq_right le).symm⟩
      · exact ⟨last, List.mem_append_left _ lastMember, lastGuarded,
          lastEnd.trans (Nat.max_eq_left le).symm⟩
    · exact ⟨last, List.mem_append_left _ lastMember, lastGuarded, lastEnd⟩

/-- A clause with a guarded range of its own gets a group of its own. -/
theorem Grouped.added {clauses : List Clause} {groups : List RegionGroup}
    (grouped : Grouped clauses groups) {clause : Clause}
    (noneGuards : ∀ group ∈ groups, clause.guardedBy group = false) :
    Grouped (clauses ++ [clause])
      (groups ++ [⟨clause.tryOffset, clause.tryLength, clause.handlerEnd⟩]) := by
  have ownGuard : clause.guardedBy
      ⟨clause.tryOffset, clause.tryLength, clause.handlerEnd⟩ = true := by
    simp [Clause.guardedBy]
  refine ⟨?_, fun other member => ?_, fun group member other otherMember isGuarded => ?_,
    fun group member => ?_⟩
  · rw [List.map_append]
    refine List.nodup_append.mpr ⟨grouped.distinct, by simp, fun range member own isOwn => ?_⟩
    obtain ⟨group, groupMember, rfl⟩ := List.mem_map.mp member
    rw [List.mem_singleton.mp isOwn]
    intro same
    have guards := guardedBy_iff.mpr (same.trans (guardedBy_iff.mp ownGuard))
    rw [noneGuards group groupMember] at guards
    cases guards
  · rcases List.mem_append.mp member with member | member
    · obtain ⟨group, groupMember, isGuarded⟩ := grouped.covered other member
      exact ⟨group, List.mem_append_left _ groupMember, isGuarded⟩
    · rw [List.mem_singleton.mp member]
      exact ⟨_, List.mem_append_right _ (List.mem_singleton.mpr rfl), ownGuard⟩
  · rcases List.mem_append.mp member with member | member
    · rcases List.mem_append.mp otherMember with otherMember | otherMember
      · exact grouped.bounded group member other otherMember isGuarded
      · rw [List.mem_singleton.mp otherMember, noneGuards group member] at isGuarded
        cases isGuarded
    · rcases List.mem_append.mp otherMember with otherMember | otherMember
      -- A clause of the table in the new group would have a group with the range already.
      · obtain ⟨guard, guardMember, guards⟩ := grouped.covered other otherMember
        rw [List.mem_singleton.mp member] at isGuarded
        have sameRange := (guardedBy_iff.mp guards).trans (guardedBy_iff.mp isGuarded).symm
        have guardsOwn := guardedBy_iff.mpr (sameRange.trans (guardedBy_iff.mp ownGuard))
        rw [noneGuards guard guardMember] at guardsOwn
        cases guardsOwn
      · obtain rfl := List.mem_singleton.mp otherMember
        exact Nat.le_of_eq (congrArg RegionGroup.lastEnd (List.mem_singleton.mp member)).symm
  · rcases List.mem_append.mp member with member | member
    · obtain ⟨last, lastMember, lastGuarded, lastEnd⟩ := grouped.attained group member
      exact ⟨last, List.mem_append_left _ lastMember, lastGuarded, lastEnd⟩
    · rw [List.mem_singleton.mp member]
      exact ⟨clause, List.mem_append_right _ (List.mem_singleton.mpr rfl), ownGuard, rfl⟩

theorem Grouped.concat {clauses : List Clause} {groups : List RegionGroup}
    (grouped : Grouped clauses groups) (clause : Clause) :
    Grouped (clauses ++ [clause]) (addToGroups groups clause) := by
  rcases addToGroups_cases grouped.distinct clause with
    ⟨⟨guard, guardMember, guarded⟩, added⟩ | ⟨noneGuards, added⟩
  · exact added ▸ grouped.extended guardMember guarded
  · exact added ▸ grouped.added noneGuards

theorem grouped_groupsOf (clauses : List Clause) : Grouped clauses (groupsOf clauses) := by
  have run (rest before : List Clause) (groups : List RegionGroup)
      (grouped : Grouped before groups) :
      Grouped (before ++ rest) (rest.foldl addToGroups groups) := by
    -- The groups stand for the clauses in front of the rest.
    induction rest generalizing before groups with
    | nil => simpa using grouped
    | cons clause rest ih =>
        have next := ih (before ++ [clause]) _ (grouped.concat clause)
        rwa [List.append_assoc] at next
  exact run clauses [] [] ⟨by simp, by simp, by simp, by simp⟩

/-! ## Chains -/

/-- The boundaries of a handler in a chain, in order. -/
structure InOrder (start : Nat) (clause : Clause) : Prop where
  start_le : start ≤ clause.entry
  entry_le : clause.entry ≤ clause.handlerOffset
  handler_lt : clause.handlerOffset < clause.handlerEnd

theorem inOrder_of_chained {start : Nat} {clauses : List Clause}
    (chained : Chained start clauses) : ∀ clause ∈ clauses, InOrder start clause := by
  induction clauses generalizing start with
  | nil => simp
  | cons first clauses ih =>
      obtain ⟨starts, entryLe, handlerLt, chained⟩ := chained
      refine List.forall_mem_cons.mpr ⟨⟨Nat.le_of_eq starts.symm, entryLe, handlerLt⟩, ?_⟩
      intro clause member
      have inOrder := ih chained clause member
      refine ⟨?_, inOrder.entry_le, inOrder.handler_lt⟩
      have := inOrder.start_le
      omega

theorem pairwise_of_chained {start : Nat} {clauses : List Clause}
    (chained : Chained start clauses) :
    clauses.Pairwise fun first second => first.handlerEnd ≤ second.entry := by
  induction clauses generalizing start with
  | nil => exact .nil
  | cons first clauses ih =>
      obtain ⟨_, _, _, chained⟩ := chained
      exact List.pairwise_cons.mpr
        ⟨fun later member => (inOrder_of_chained chained later member).start_le, ih chained⟩

theorem chained_of_append {start : Nat} {front behind : List Clause} {clause : Clause}
    (chained : Chained start (front ++ clause :: behind)) : Chained clause.handlerEnd behind := by
  induction front generalizing start with
  | nil => exact chained.2.2.2
  | cons first front ih => exact ih chained.2.2.2

/-- The first handler of a chain begins where the chain does, the others where the ones before
them end. -/
theorem entry_of_chained {start : Nat} {front behind : List Clause} {clause : Clause}
    (chained : Chained start (front ++ clause :: behind)) :
    clause.entry = (front.getLast?.map Clause.handlerEnd).getD start := by
  induction front generalizing start with
  | nil => exact chained.1
  | cons first front ih =>
      rw [ih chained.2.2.2]
      cases front with
      | nil => rfl
      | cons second front =>
          rw [List.getLast?_cons_cons, List.getLast?_eq_some_getLast (List.cons_ne_nil _ _)]
          rfl

theorem or_of_pairwise {α : Type} {relation : α → α → Prop} {items : List α}
    (pairwise : items.Pairwise relation) {first second : α} (firstMember : first ∈ items)
    (secondMember : second ∈ items) (differs : first ≠ second) :
    relation first second ∨ relation second first := by
  have either : items.Pairwise fun one other =>
      one ≠ other → relation one other ∨ relation other one :=
    pairwise.imp fun related _ => Or.inl related
  have flipped : items.Pairwise (flip fun one other =>
      one ≠ other → relation one other ∨ relation other one) :=
    pairwise.imp fun related _ => Or.inr related
  exact either.forall_of_forall_of_flip (fun _ _ same => absurd rfl same) flipped firstMember
    secondMember differs

theorem mem_members {clauses : List Clause} {group : RegionGroup} {clause : Clause} :
    clause ∈ members clauses group ↔ clause ∈ clauses ∧ clause.guardedBy group :=
  List.mem_filter

/-- A clause belongs to one group. -/
theorem eq_of_guardedBy {clauses : List Clause} {clause : Clause} {first second : RegionGroup}
    (firstListed : first ∈ groupsOf clauses) (secondListed : second ∈ groupsOf clauses)
    (firstGuards : clause.guardedBy first) (secondGuards : clause.guardedBy second) :
    first = second := by
  refine Classical.byContradiction fun differs => ?_
  have distinct := List.pairwise_map.mp (grouped_groupsOf clauses).distinct
  have same := (guardedBy_iff.mp firstGuards).trans (guardedBy_iff.mp secondGuards).symm
  rcases or_of_pairwise distinct firstListed secondListed differs with other | other
  · exact other same
  · exact other same.symm

theorem tryOffset_of_guardedBy {clause : Clause} {group : RegionGroup}
    (guarded : clause.guardedBy group) :
    clause.tryOffset = group.tryOffset ∧ clause.tryEnd = group.tryEnd := by
  obtain ⟨offset, length⟩ := Prod.mk.inj (guardedBy_iff.mp guarded)
  exact ⟨offset.symm, by rw [Clause.tryEnd, RegionGroup.tryEnd, offset, length]⟩

theorem handlerEnd_le {clauses : List Clause} {group : RegionGroup}
    (listed : group ∈ groupsOf clauses) {clause : Clause}
    (member : clause ∈ members clauses group) : clause.handlerEnd ≤ group.lastEnd :=
  (grouped_groupsOf clauses).bounded group listed clause (mem_members.mp member).1
    (mem_members.mp member).2

theorem entry_mem_boundaries (clause : Clause) : clause.entry ∈ clause.boundaries := by
  unfold Clause.entry Clause.boundaries
  split <;> simp

namespace WellNested

variable {clauses : List Clause} (nesting : WellNested clauses) {group : RegionGroup}
include nesting

theorem inOrder (listed : group ∈ groupsOf clauses) {clause : Clause}
    (member : clause ∈ members clauses group) : InOrder group.tryEnd clause :=
  inOrder_of_chained (nesting.chained group listed) clause member

/-- The last handler of a group ends where the group ends. -/
theorem exists_last (listed : group ∈ groupsOf clauses) :
    ∃ front last, members clauses group = front ++ [last] ∧ last.handlerEnd = group.lastEnd := by
  obtain ⟨last, member, guarded, ends⟩ := (grouped_groupsOf clauses).attained group listed
  obtain ⟨front, behind, split⟩ := List.append_of_mem (mem_members.mpr ⟨member, guarded⟩)
  cases behind with
  | nil => exact ⟨front, last, split, ends⟩
  | cons later behind =>
      have chain := pairwise_of_chained (nesting.chained group listed)
      rw [split] at chain
      have follows : last.handlerEnd ≤ later.entry :=
        (List.pairwise_cons.mp (List.pairwise_append.mp chain).2.1).1 later (List.mem_cons_self ..)
      have laterMember : later ∈ members clauses group := by
        rw [split]
        simp
      have bound := handlerEnd_le listed laterMember
      have inOrder := nesting.inOrder listed laterMember
      have := inOrder.entry_le
      have := inOrder.handler_lt
      omega

/-- Handlers of a group end at different offsets. -/
theorem eq_of_handlerEnd (listed : group ∈ groupsOf clauses) {first second : Clause}
    (firstMember : first ∈ members clauses group) (secondMember : second ∈ members clauses group)
    (same : first.handlerEnd = second.handlerEnd) : first = second := by
  refine Classical.byContradiction fun differs => ?_
  have firstOrder := nesting.inOrder listed firstMember
  have secondOrder := nesting.inOrder listed secondMember
  have := firstOrder.entry_le
  have := firstOrder.handler_lt
  have := secondOrder.entry_le
  have := secondOrder.handler_lt
  have chain := pairwise_of_chained (nesting.chained group listed)
  rcases or_of_pairwise chain firstMember secondMember differs with follows | follows <;> omega

theorem tryOffset_lt (listed : group ∈ groupsOf clauses) : group.tryOffset < group.tryEnd := by
  obtain ⟨clause, member, guarded, _⟩ := (grouped_groupsOf clauses).attained group listed
  obtain ⟨offset, ends⟩ := tryOffset_of_guardedBy guarded
  rw [← offset, ← ends]
  exact nesting.guarded clause member

theorem tryEnd_lt (listed : group ∈ groupsOf clauses) : group.tryEnd < group.lastEnd := by
  obtain ⟨clause, member, guarded, ends⟩ := (grouped_groupsOf clauses).attained group listed
  have inOrder := nesting.inOrder listed (mem_members.mpr ⟨member, guarded⟩)
  have := inOrder.start_le
  have := inOrder.entry_le
  have := inOrder.handler_lt
  omega

theorem spares_or (listed : group ∈ groupsOf clauses) {other : RegionGroup}
    (otherListed : other ∈ groupsOf clauses) (differs : group ≠ other) :
    Spares clauses group other ∨ Spares clauses other group := by
  rcases or_of_pairwise nesting.nested listed otherListed differs with spares | spares
  · exact spares
  · exact spares.symm

/-- Handlers that stand before another one begin before it, those that stand behind it begin
where it ends or later. -/
theorem entry_of_split (listed : group ∈ groupsOf clauses) {front behind : List Clause}
    {clause : Clause} (split : members clauses group = front ++ clause :: behind) :
    (∀ other ∈ front, other.entry < clause.entry) ∧
      ∀ other ∈ behind, clause.handlerEnd ≤ other.entry := by
  have chain := pairwise_of_chained (nesting.chained group listed)
  rw [split] at chain
  obtain ⟨_, behindChain, apart⟩ := List.pairwise_append.mp chain
  refine ⟨fun other member => ?_, (List.pairwise_cons.mp behindChain).1⟩
  have follows := apart other member clause (List.mem_cons_self ..)
  have inOrder := nesting.inOrder listed (split ▸ List.mem_append_left _ member)
  have := inOrder.entry_le
  have := inOrder.handler_lt
  omega

/-- A handler that ends before its group is followed by another one. -/
theorem exists_next (listed : group ∈ groupsOf clauses) {clause : Clause}
    (member : clause ∈ members clauses group) (inside : clause.handlerEnd ≠ group.lastEnd) :
    ∃ next ∈ members clauses group, next.entry = clause.handlerEnd := by
  obtain ⟨front, behind, split⟩ := List.append_of_mem member
  cases behind with
  | nil =>
      obtain ⟨others, last, lastSplit, lastEnd⟩ := nesting.exists_last listed
      obtain ⟨_, same⟩ := List.append_inj' (split.symm.trans lastSplit) rfl
      cases same
      exact absurd lastEnd inside
  | cons next behind =>
      have chained := nesting.chained group listed
      rw [split] at chained
      refine ⟨next, by rw [split]; simp, ?_⟩
      exact (chained_of_append chained).1

/-- Where a clause has its filter or its handler begin, its group is open. -/
theorem starts_within (listed : group ∈ groupsOf clauses) {clause : Clause}
    (member : clause ∈ members clauses group) {offset : Nat}
    (starts : clause.entry = offset ∨ clause.handlerOffset = offset) :
    offset ∈ clause.boundaries ∧ clause.entry ≤ offset ∧ offset < clause.handlerEnd ∧
      group.tryOffset < offset ∧ offset < group.lastEnd := by
  have inOrder := nesting.inOrder listed member
  have bound := handlerEnd_le listed member
  have guard := nesting.tryOffset_lt listed
  have := inOrder.start_le
  have := inOrder.entry_le
  have := inOrder.handler_lt
  refine ⟨?_, by omega, by omega, by omega, by omega⟩
  rcases starts with rfl | rfl
  · exact entry_mem_boundaries clause
  · simp [Clause.boundaries]

/-- At most one clause has its filter or its handler begin at an offset. -/
theorem eq_of_starts {first second : Clause} {offset : Nat} (firstMember : first ∈ clauses)
    (secondMember : second ∈ clauses)
    (firstStarts : first.entry = offset ∨ first.handlerOffset = offset)
    (secondStarts : second.entry = offset ∨ second.handlerOffset = offset) : first = second := by
  obtain ⟨group, listed, guarded⟩ := (grouped_groupsOf clauses).covered first firstMember
  obtain ⟨other, otherListed, otherGuarded⟩ :=
    (grouped_groupsOf clauses).covered second secondMember
  have member := mem_members.mpr ⟨firstMember, guarded⟩
  have otherMember := mem_members.mpr ⟨secondMember, otherGuarded⟩
  obtain ⟨boundary, after, before, within⟩ := nesting.starts_within listed member firstStarts
  obtain ⟨otherBoundary, otherAfter, otherBefore, otherWithin⟩ :=
    nesting.starts_within otherListed otherMember secondStarts
  by_cases same : group = other
  · subst same
    refine Classical.byContradiction fun differs => ?_
    have chain := pairwise_of_chained (nesting.chained group listed)
    rcases or_of_pairwise chain member otherMember differs with follows | follows <;> omega
  · rcases nesting.spares_or listed otherListed same with spares | spares
    · have := spares first member offset boundary
      omega
    · have := spares second otherMember offset otherBoundary
      omega

theorem nodup : clauses.Nodup := by
  refine List.pairwise_iff_forall_sublist.mpr fun {first second} sublist same => ?_
  subst same
  have member : first ∈ clauses := sublist.subset (List.mem_cons_self ..)
  obtain ⟨group, listed, guarded⟩ := (grouped_groupsOf clauses).covered first member
  have twice : [first, first].Sublist (members clauses group) := by
    have filtered := sublist.filter (·.guardedBy group)
    simpa [members, guarded] using filtered
  have chain := pairwise_of_chained (nesting.chained group listed)
  have follows := List.pairwise_iff_forall_sublist.mp chain twice
  have inOrder := nesting.inOrder listed (mem_members.mpr ⟨member, guarded⟩)
  have := inOrder.entry_le
  have := inOrder.handler_lt
  omega

/-- Of two clauses with overlapping guarded ranges, the first one in the table has its handler
end first. -/
theorem handlerEnd_lt : clauses.Pairwise fun first second =>
    first.Overlaps second → first.handlerEnd < second.handlerEnd := by
  refine List.pairwise_iff_forall_sublist.mpr fun {first second} sublist overlaps => ?_
  have inner := List.pairwise_iff_forall_sublist.mp nesting.innerFirst sublist overlaps
  have firstMember : first ∈ clauses := sublist.subset (by simp)
  have secondMember : second ∈ clauses := sublist.subset (by simp)
  obtain ⟨group, listed, guarded⟩ := (grouped_groupsOf clauses).covered first firstMember
  obtain ⟨other, otherListed, otherGuarded⟩ :=
    (grouped_groupsOf clauses).covered second secondMember
  have member := mem_members.mpr ⟨firstMember, guarded⟩
  have otherMember := mem_members.mpr ⟨secondMember, otherGuarded⟩
  have secondOrder := nesting.inOrder otherListed otherMember
  have := secondOrder.start_le
  have := secondOrder.entry_le
  have := secondOrder.handler_lt
  by_cases same : group = other
  · subst same
    have both : [first, second].Sublist (members clauses group) := by
      have filtered := sublist.filter (·.guardedBy group)
      simpa [members, guarded, otherGuarded] using filtered
    have chain := pairwise_of_chained (nesting.chained group listed)
    have follows := List.pairwise_iff_forall_sublist.mp chain both
    omega
  · unfold Clause.Overlaps at overlaps
    have range := tryOffset_of_guardedBy guarded
    have otherRange := tryOffset_of_guardedBy otherGuarded
    have bound := handlerEnd_le listed member
    have otherLast := nesting.tryEnd_lt otherListed
    rcases nesting.spares_or listed otherListed same with spares | spares
    · have := spares first member first.tryEnd (by simp [Clause.boundaries])
      omega
    · have := spares second otherMember second.tryEnd (by simp [Clause.boundaries])
      omega

end WellNested

end Regions

end Cil
