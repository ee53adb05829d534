import Cil.Proofs.Isolation.NestedBlocks

/-!
# Tables that do not nest

The clauses that a replayed table gives are those of blocks, so they nest.  A table without
empty parts that gives its own clauses nests.
-/

namespace Cil

/-! ## Clauses of tables -/

namespace Clause

/-- No part of the clause is empty. -/
structure Solid (clause : Clause) : Prop where
  guarded : clause.tryOffset < clause.tryEnd
  entry_le : clause.entry ≤ clause.handlerOffset
  handler_lt : clause.handlerOffset < clause.handlerEnd

theorem entry_marked (clause : Clause) : clause.marked.entry = clause.entry := by
  simp only [MarkedClause.entry, marked, filter?, entry]
  split <;> rfl

theorem mem_boundaries_marked {clause : Clause} {boundary : Nat} :
    boundary ∈ clause.marked.boundaries ↔ boundary ∈ clause.boundaries := by
  simp only [MarkedClause.boundaries, boundaries, marked, filter?]
  split <;> simp

/-- A clause is finished before another one. -/
def Precedes (first second : Clause) : Prop :=
  (∀ boundary ∈ second.boundaries, boundary ≤ first.tryOffset ∨ first.handlerEnd ≤ boundary) ∨
    first.tryOffset = second.tryOffset ∧ first.tryEnd = second.tryEnd ∧
      first.handlerEnd ≤ second.entry

theorem precedes_of_marked {first second : Clause}
    (precedes : first.marked.Precedes second.marked) : first.Precedes second := by
  rcases precedes with spared | ⟨starts, ends, follows⟩
  · exact Or.inl fun boundary isBoundary =>
      spared boundary (mem_boundaries_marked.mpr isBoundary)
  · rw [entry_marked] at follows
    exact Or.inr ⟨starts, ends, follows⟩

end Clause

namespace Regions

theorem exists_boundary_of_eventsAt {clauses : List Clause} {offset : Nat}
    (happens : eventsAt clauses offset ≠ []) :
    ∃ clause ∈ clauses, offset ∈ clause.boundaries := by
  obtain ⟨regionEvent, listed⟩ := List.exists_mem_of_ne_nil _ happens
  obtain ⟨⟨position, _⟩, atOffset, rfl⟩ := List.mem_map.mp listed
  obtain ⟨member, here⟩ := List.mem_filter.mp atOffset
  have here : position = offset := beq_iff_eq.mp here
  rw [← here]
  rw [events, List.mem_append, List.mem_append] at member
  rcases member with (ends | handler) | begins
  · obtain ⟨group, listed, same⟩ := List.mem_map.mp ends
    obtain ⟨clause, inGroup, _, _, boundary⟩ := lastEnd_mem_boundaries listed
    cases same
    exact ⟨clause, (mem_members.mp inGroup).1, boundary⟩
  · obtain ⟨clause, listed, inHandler⟩ := List.mem_flatMap.mp handler
    refine ⟨clause, listed, ?_⟩
    unfold handlerEvents at inHandler
    unfold Clause.boundaries
    split at inHandler <;> rename_i kind <;> simp [kind] at inHandler ⊢ <;> grind
  · obtain ⟨group, listed, same⟩ := List.mem_map.mp begins
    obtain ⟨clause, inGroup, boundary, _, _⟩ := lastEnd_mem_boundaries listed
    cases same
    exact ⟨clause, (mem_members.mp inGroup).1, boundary⟩

/-! ## Orders of clauses -/

/-- An order of the clauses of a table in which the handlers of blocks end. -/
structure Finishing (clauses order : List Clause) : Prop where
  solid : ∀ clause ∈ clauses, clause.Solid
  perm : order.Perm clauses
  /-- Clauses with overlapping guarded ranges are in the order of the table. -/
  agrees : order.Pairwise fun first second =>
    first.Overlaps second → [first, second].Sublist clauses
  ordered : order.Pairwise Clause.Precedes
  follows : ∀ clause ∈ clauses, clause.tryEnd ≤ clause.entry ∧ (clause.entry = clause.tryEnd ∨
    ∃ earlier ∈ clauses, earlier.tryOffset = clause.tryOffset ∧ earlier.tryEnd = clause.tryEnd ∧
      earlier.handlerEnd = clause.entry)

theorem not_sublist_of_nodup {α : Type} {items : List α} (distinct : items.Nodup)
    {first second : α} (sublist : [first, second].Sublist items) :
    ¬ [second, first].Sublist items := by
  induction items with
  | nil => cases sublist
  | cons item items ih =>
      obtain ⟨fresh, distinct⟩ := List.nodup_cons.mp distinct
      intro reversed
      cases sublist with
      | cons _ sublist =>
          cases reversed with
          | cons _ reversed => exact ih distinct sublist reversed
          | cons_cons _ reversed => exact fresh (sublist.subset (by simp))
      | cons_cons _ sublist =>
          cases reversed with
          | cons _ reversed => exact fresh (reversed.subset (by simp))
          | cons_cons _ reversed => exact fresh (sublist.subset (by simp))

namespace Finishing

variable {clauses order : List Clause} (finishing : Finishing clauses order)
include finishing

theorem tryEnd_lt {clause : Clause} (member : clause ∈ clauses) :
    clause.tryOffset < clause.tryEnd ∧ clause.tryEnd ≤ clause.entry ∧
      clause.entry < clause.handlerEnd ∧ clause.entry ≤ clause.handlerOffset := by
  have solid := finishing.solid clause member
  have := solid.guarded
  have := solid.entry_le
  have := solid.handler_lt
  have := (finishing.follows clause member).1
  omega

/-- Guarded ranges that end at the same offset are as long as they are written. -/
theorem guardedBy_of_same {first second : Clause} {group : RegionGroup}
    (firstMember : first ∈ clauses) (secondMember : second ∈ clauses)
    (starts : first.tryOffset = second.tryOffset) (ends : first.tryEnd = second.tryEnd)
    (guarded : second.guardedBy group) : first.guardedBy group := by
  have firstParts := finishing.tryEnd_lt firstMember
  have secondParts := finishing.tryEnd_lt secondMember
  have range := guardedBy_iff.mp guarded
  refine guardedBy_iff.mpr (range.trans (Prod.ext_iff.mpr ⟨starts.symm, ?_⟩))
  unfold Clause.tryEnd at ends firstParts secondParts
  unfold Clause.handlerEnd at firstParts secondParts
  dsimp only
  omega

theorem nodup_order : order.Nodup := by
  refine finishing.ordered.imp_of_mem fun {first second} firstMember _ precedes same => ?_
  subst same
  have parts := finishing.tryEnd_lt (finishing.perm.mem_iff.mp firstMember)
  rcases precedes with spared | ⟨_, _, follows⟩
  · have := spared first.tryEnd (by simp [Clause.boundaries])
    omega
  · omega

theorem nodup : clauses.Nodup :=
  finishing.perm.nodup_iff.mp finishing.nodup_order

/-- Of two clauses one is finished before the other. -/
theorem precedes_or {first second : Clause} (firstMember : first ∈ clauses)
    (secondMember : second ∈ clauses) (differs : first ≠ second) :
    first.Precedes second ∨ second.Precedes first :=
  or_of_pairwise finishing.ordered (finishing.perm.mem_iff.mpr firstMember)
    (finishing.perm.mem_iff.mpr secondMember) differs

/-- Of two clauses with overlapping guarded ranges, the first one in the table is finished
first. -/
theorem precedes_of_sublist {first second : Clause} (sublist : [first, second].Sublist clauses)
    (overlaps : first.Overlaps second) : first.Precedes second := by
  have firstMember : first ∈ clauses := sublist.subset (by simp)
  have secondMember : second ∈ clauses := sublist.subset (by simp)
  have differs : first ≠ second :=
    List.pairwise_iff_forall_sublist.mp finishing.nodup sublist
  rcases or_of_pairwise (finishing.ordered.and finishing.agrees)
      (finishing.perm.mem_iff.mpr firstMember) (finishing.perm.mem_iff.mpr secondMember)
      differs with ⟨precedes, _⟩ | ⟨_, agrees⟩
  · exact precedes
  · exact absurd sublist
      (not_sublist_of_nodup finishing.nodup (agrees ⟨overlaps.2, overlaps.1⟩))

theorem innerFirst : clauses.Pairwise fun first second => first.Overlaps second →
    second.tryOffset ≤ first.tryOffset ∧ first.tryEnd ≤ second.tryEnd := by
  refine List.pairwise_iff_forall_sublist.mpr fun {first second} sublist overlaps => ?_
  have firstParts := finishing.tryEnd_lt (sublist.subset (List.mem_cons_self ..))
  have precedes := finishing.precedes_of_sublist sublist overlaps
  unfold Clause.Overlaps at overlaps
  rcases precedes with spared | ⟨starts, ends, _⟩
  · have := spared second.tryOffset (by simp [Clause.boundaries])
    have := spared second.tryEnd (by simp [Clause.boundaries])
    omega
  · omega

/-- Handlers of a block end before the next ones begin. -/
theorem follows_of_members (group : RegionGroup) :
    (members clauses group).Pairwise fun first second => first.handlerEnd ≤ second.entry := by
  refine List.pairwise_iff_forall_sublist.mpr fun {first second} sublist => ?_
  obtain ⟨firstMember, firstGuarded⟩ := mem_members.mp (sublist.subset (List.mem_cons_self ..))
  obtain ⟨secondMember, secondGuarded⟩ := mem_members.mp
    (sublist.subset (List.mem_cons_of_mem _ (List.mem_singleton.mpr rfl)))
  have firstRange := tryOffset_of_guardedBy firstGuarded
  have secondRange := tryOffset_of_guardedBy secondGuarded
  have firstParts := finishing.tryEnd_lt firstMember
  have secondParts := finishing.tryEnd_lt secondMember
  have overlaps : first.Overlaps second := by
    unfold Clause.Overlaps
    omega
  rcases finishing.precedes_of_sublist (sublist.trans List.filter_sublist) overlaps with
    spared | ⟨_, _, follows⟩
  · have := spared second.tryEnd (by simp [Clause.boundaries])
    omega
  · exact follows

theorem entry_of_members {group : RegionGroup} {front behind : List Clause} {clause : Clause}
    (split : members clauses group = front ++ clause :: behind) :
    clause.entry = (front.getLast?.map Clause.handlerEnd).getD group.tryEnd := by
  have inGroup {other : Clause} (member : other ∈ front ++ clause :: behind) :
      other ∈ clauses ∧ other.guardedBy group :=
    mem_members.mp (split ▸ member)
  have isMember : clause ∈ front ++ clause :: behind := by simp
  have parts := finishing.tryEnd_lt (inGroup isMember).1
  have range := tryOffset_of_guardedBy (inGroup isMember).2
  have chain := finishing.follows_of_members group
  rw [split] at chain
  obtain ⟨frontChain, behindChain, across⟩ := List.pairwise_append.mp chain
  have notBehind {earlier : Clause} (isBehind : earlier ∈ clause :: behind)
      (ends : earlier.handlerEnd = clause.entry) : False := by
    have earlierParts := finishing.tryEnd_lt (inGroup (List.mem_append_right _ isBehind)).1
    rcases List.mem_cons.mp isBehind with rfl | isBehind
    · omega
    · have := (List.pairwise_cons.mp behindChain).1 earlier isBehind
      omega
  -- A handler begins where the guarded range ends or where an earlier handler of the group does.
  have begins : clause.entry = group.tryEnd ∨
      ∃ earlier ∈ front, earlier.handlerEnd = clause.entry := by
    rcases (finishing.follows clause (inGroup isMember).1).2 with
      atEnd | ⟨earlier, member, starts, ends, handlerEnd⟩
    · exact Or.inl (atEnd.trans range.2)
    · have guarded := finishing.guardedBy_of_same member (inGroup isMember).1 starts ends
        (inGroup isMember).2
      have listed : earlier ∈ front ++ clause :: behind :=
        split ▸ mem_members.mpr ⟨member, guarded⟩
      rcases List.mem_append.mp listed with isFront | isBehind
      · exact Or.inr ⟨earlier, isFront, handlerEnd⟩
      · exact absurd handlerEnd fun ends => notBehind isBehind ends
  cases isLast : front.getLast? with
  | none =>
      obtain rfl := List.getLast?_eq_none_iff.mp isLast
      rcases begins with atEnd | ⟨earlier, isFront, _⟩
      · exact atEnd
      · exact absurd isFront List.not_mem_nil
  | some last =>
      obtain ⟨others, rfl⟩ := List.getLast?_eq_some_iff.mp isLast
      have lastMember : last ∈ others ++ [last] := by simp
      have lastParts := finishing.tryEnd_lt (inGroup (List.mem_append_left _ lastMember)).1
      have lastRange := tryOffset_of_guardedBy (inGroup (List.mem_append_left _ lastMember)).2
      have lastEnds := across last lastMember clause (List.mem_cons_self ..)
      rcases begins with atEnd | ⟨earlier, isFront, ends⟩
      · omega
      · rcases List.mem_append.mp isFront with isOther | isLast
        · have := (List.pairwise_append.mp frontChain).2.2 earlier isOther last
            (List.mem_singleton.mpr rfl)
          omega
        · rw [List.mem_singleton.mp isLast] at ends
          exact ends.symm

omit finishing in
theorem chained_of_entries {start : Nat} {handlers : List Clause}
    (solid : ∀ clause ∈ handlers, clause.Solid)
    (entries : ∀ front clause behind, handlers = front ++ clause :: behind →
      clause.entry = (front.getLast?.map Clause.handlerEnd).getD start) :
    Chained start handlers := by
  induction handlers generalizing start with
  | nil => trivial
  | cons first handlers ih =>
      obtain ⟨firstSolid, solid⟩ := List.forall_mem_cons.mp solid
      refine ⟨entries [] first handlers rfl, firstSolid.entry_le, firstSolid.handler_lt,
        ih solid fun front clause behind split => ?_⟩
      rw [entries (first :: front) clause behind (by rw [split]; rfl)]
      cases front with
      | nil => rfl
      | cons second front =>
          rw [List.getLast?_cons_cons, List.getLast?_eq_some_getLast (List.cons_ne_nil _ _)]
          rfl

theorem boundary_le {clause : Clause} (member : clause ∈ clauses) {boundary : Nat}
    (isBoundary : boundary ∈ clause.boundaries) : boundary ≤ clause.handlerEnd := by
  have parts := finishing.tryEnd_lt member
  have handlerLt := (finishing.solid clause member).handler_lt
  unfold Clause.entry at parts
  unfold Clause.boundaries at isBoundary
  rcases List.mem_append.mp isBoundary with isBoundary | isFilter
  · simp only [List.mem_cons, List.not_mem_nil, or_false] at isBoundary
    omega
  · split at isFilter
    · rename_i kind
      rw [if_pos kind] at parts
      have := List.mem_singleton.mp isFilter
      omega
    · exact absurd isFilter List.not_mem_nil

/-- Clauses of different groups have different guarded ranges, so one of them spares the
other. -/
theorem spared_of_precedes {group other : RegionGroup} (listed : group ∈ groupsOf clauses)
    (otherListed : other ∈ groupsOf clauses) (differs : group ≠ other) {first second : Clause}
    (firstMember : first ∈ members clauses group)
    (secondMember : second ∈ members clauses other) :
    (∀ boundary ∈ second.boundaries,
        boundary ≤ first.tryOffset ∨ first.handlerEnd ≤ boundary) ∨
      ∀ boundary ∈ first.boundaries,
        boundary ≤ second.tryOffset ∨ second.handlerEnd ≤ boundary := by
  obtain ⟨firstListed, firstGuarded⟩ := mem_members.mp firstMember
  obtain ⟨secondListed, secondGuarded⟩ := mem_members.mp secondMember
  have apart (starts : first.tryOffset = second.tryOffset) (ends : first.tryEnd = second.tryEnd) :
      False :=
    differs (eq_of_guardedBy listed otherListed firstGuarded
      (finishing.guardedBy_of_same firstListed secondListed starts ends secondGuarded))
  have distinct : first ≠ second := by
    rintro rfl
    exact apart rfl rfl
  rcases finishing.precedes_or firstListed secondListed distinct with
    (spared | ⟨starts, ends, _⟩) | (spared | ⟨starts, ends, _⟩)
  · exact Or.inl spared
  · exact absurd ends fun ends => apart starts ends
  · exact Or.inr spared
  · exact absurd ends.symm fun ends => apart starts.symm ends

/-- Of two groups one lies within a part of the other or outside of it. -/
theorem spares_or {group other : RegionGroup} (listed : group ∈ groupsOf clauses)
    (otherListed : other ∈ groupsOf clauses) (differs : group ≠ other) :
    Spares clauses group other ∨ Spares clauses other group := by
  obtain ⟨last, lastListed, lastGuarded, lastEnd⟩ :=
    (grouped_groupsOf clauses).attained group listed
  obtain ⟨otherLast, otherLastListed, otherLastGuarded, otherLastEnd⟩ :=
    (grouped_groupsOf clauses).attained other otherListed
  have range := tryOffset_of_guardedBy lastGuarded
  have otherRange := tryOffset_of_guardedBy otherLastGuarded
  have parts := finishing.tryEnd_lt lastListed
  have otherParts := finishing.tryEnd_lt otherLastListed
  by_cases spares : Spares clauses group other
  · exact Or.inl spares
  unfold Spares at spares
  simp only [Classical.not_forall, not_or, Nat.not_le] at spares
  obtain ⟨crossing, crossingMember, boundary, isBoundary, after, within⟩ := spares
  obtain ⟨crossingListed, crossingGuarded⟩ := mem_members.mp crossingMember
  have crossingRange := tryOffset_of_guardedBy crossingGuarded
  have crossingParts := finishing.tryEnd_lt crossingListed
  have le := finishing.boundary_le crossingListed isBoundary
  -- The clause with a boundary within the other group is finished before that group.
  have around : other.tryOffset ≤ group.tryOffset ∧
      (other.tryEnd ≤ group.tryOffset ∨ crossing.handlerEnd ≤ other.tryEnd) := by
    rcases finishing.spared_of_precedes listed otherListed differs crossingMember
      (mem_members.mpr ⟨otherLastListed, otherLastGuarded⟩) with spared | spared
    · have := spared otherLast.tryOffset (by simp [Clause.boundaries])
      have := spared otherLast.tryEnd (by simp [Clause.boundaries])
      omega
    · have := spared boundary isBoundary
      omega
  refine Or.inr fun clause member position isPosition => ?_
  obtain ⟨clauseListed, clauseGuarded⟩ := mem_members.mp member
  have clauseRange := tryOffset_of_guardedBy clauseGuarded
  have clauseParts := finishing.tryEnd_lt clauseListed
  have positionLe := finishing.boundary_le clauseListed isPosition
  rcases finishing.spared_of_precedes listed otherListed differs
    (mem_members.mpr ⟨lastListed, lastGuarded⟩) member with spared | spared
  · have := spared position isPosition
    omega
  · have := spared last.tryOffset (by simp [Clause.boundaries])
    have := spared last.tryEnd (by simp [Clause.boundaries])
    omega

/-- A table whose handlers end in the order of blocks nests. -/
theorem wellNested : WellNested clauses :=
  { guarded := fun clause member => (finishing.solid clause member).guarded
    chained := fun _ _ => chained_of_entries
      (fun clause member => finishing.solid clause (mem_members.mp member).1)
      fun _ _ _ split => finishing.entry_of_members split
    nested := (nodup_groupsOf clauses).imp_of_mem fun listed otherListed differs =>
      finishing.spares_or listed otherListed differs
    innerFirst := finishing.innerFirst }

end Finishing

/-- What replaying a table finishes. -/
theorem recorded_of_replayAll {clauses : List Clause} {offsets : List Nat} {after : Blocks}
    (sorted : offsets.Pairwise (· < ·))
    (replays : Blocks.replayAll clauses ⟨[], []⟩ offsets = some after) :
    ∃ stop, Recorded (fun offset => ∃ clause ∈ clauses, offset ∈ clause.boundaries) stop after := by
  have fromZero : (0 :: offsets).Pairwise (· ≤ ·) :=
    List.pairwise_cons.mpr ⟨fun offset _ => Nat.zero_le offset, sorted.imp Nat.le_of_lt⟩
  exact (Recorded.start _ 0).replayAll fromZero
    (fun offset happens => exists_boundary_of_eventsAt happens) replays

/-- A table without empty parts whose replay finishes its own clauses, those with overlapping
guarded ranges in the order of the table, nests. -/
theorem wellNested_of_replayAll {clauses order : List Clause} {offsets : List Nat}
    (solid : ∀ clause ∈ clauses, clause.Solid) (sorted : offsets.Pairwise (· < ·))
    (replays : Blocks.replayAll clauses ⟨[], []⟩ offsets =
      some ⟨[], order.map Clause.marked⟩)
    (perm : order.Perm clauses)
    (agrees : order.Pairwise fun first second =>
      first.Overlaps second → [first, second].Sublist clauses) : WellNested clauses := by
  obtain ⟨stop, recorded⟩ := recorded_of_replayAll sorted replays
  have ordered := (List.pairwise_map.mp recorded.ordered).imp Clause.precedes_of_marked
  have finishing : Finishing clauses order := by
    refine ⟨solid, perm, agrees, ordered, fun clause member => ?_⟩
    obtain ⟨le, follows⟩ := recorded.follows clause.marked
      (List.mem_map_of_mem (perm.mem_iff.mpr member))
    rw [Clause.entry_marked] at le follows
    refine ⟨le, follows.imp_right ?_⟩
    rintro ⟨marked, isMarked, starts, ends, handlerEnd⟩
    obtain ⟨earlier, earlierMember, rfl⟩ := List.mem_map.mp isMarked
    exact ⟨earlier, perm.mem_iff.mp earlierMember, starts, ends, handlerEnd⟩
  exact finishing.wellNested

end Regions

end Cil
