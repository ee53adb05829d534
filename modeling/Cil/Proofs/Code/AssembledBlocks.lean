import Cil.Proofs.Code.MarkedPrograms
import Cil.Proofs.Code.MaxStack

/-!
# The clauses of assembled blocks

If a program with paired markers assembles, the code has one clause for each handler, in the order
in which the handlers end, and each range lies where the markers stand.  Only the guarded range goes
on up to the first handler.
-/

namespace Cil

theorem forall₂_iff_of_related {α β : Type} {related other : α → β → Prop} {holds : α → Prop}
    {first : List α} {second : List β} (relates : List.Forall₂ related first second)
    (same : ∀ left right, left ∈ first → related left right → (other left right ↔ holds left)) :
    List.Forall₂ other first second ↔ ∀ left ∈ first, holds left := by
  induction relates with
  | nil => simp
  | cons head _ ih =>
      rw [List.forall₂_cons, List.forall_mem_cons, same _ _ List.mem_cons_self head,
        ih fun left right member => same left right (List.mem_cons_of_mem _ member)]

/-- In finished code two marks have two offsets. -/
theorem Encoder.Finished.mark_inj {shortens : Bool} {outline : Encoder.Outline} {code : EmittedCode}
    {instructions : List Instruction}
    (finished : Encoder.Finished shortens outline code instructions) {first second : Mark}
    (before : first ≤ second) (within : second ≤ outline.here)
    (same : code.startOf instructions first = code.startOf instructions second) :
    first = second := by
  by_contra differ
  have less : first < second := Nat.lt_of_le_of_ne before differ
  have count : outline.here ≤ instructions.length := by
    rw [← finished.reads.length_eq, Encoder.Outline.terminated, List.length_append]
    exact Nat.le_add_right _ _
  have inside : first < instructions.length := Nat.lt_of_lt_of_le less (Nat.le_trans within count)
  have found : instructions[first]? = some instructions[first] := List.getElem?_eq_getElem inside
  refine differ (Encoder.mark_eq finished.decoded found ?_).symm
  rw [← same, EmittedCode.startOf, found]
  rfl

namespace Assembler

/-! ## What markers may say -/

mutual

/-- No instruction stands between the end of a guarded range and the first handler of its block. -/
def Program.Adjoins : Program → Prop
  | .done => True
  | .code _ _ rest => rest.Adjoins
  | .block _ guarded between first others rest =>
      sizeOfStatements between.statements = 0 ∧ guarded.Adjoins ∧ between.Adjoins ∧
        first.Adjoins ∧ others.Adjoins ∧ rest.Adjoins

def Handler.Adjoins : Handler → Prop
  | .plain _ body => body.Adjoins
  | .filtered test body => test.Adjoins ∧ body.Adjoins

def Handlers.Adjoins : Handlers → Prop
  | .none => True
  | .next handler others => handler.Adjoins ∧ others.Adjoins

end

def Program.HasNoBlock : Program → Prop
  | .done => True
  | .code _ _ rest => rest.HasNoBlock
  | .block _ _ _ _ _ _ => False

def Handler.HasNoBlock : Handler → Prop
  | .plain _ body => body.HasNoBlock
  | .filtered test body => test.HasNoBlock ∧ body.HasNoBlock

def Handlers.HaveNoBlock : Handlers → Prop
  | .none => True
  | .next handler others => handler.HasNoBlock ∧ others.HaveNoBlock

mutual

/-- Of the handlers of a block only the first one has blocks within. -/
def Program.NestsFirst : Program → Prop
  | .done => True
  | .code _ _ rest => rest.NestsFirst
  | .block _ guarded between first others rest =>
      guarded.NestsFirst ∧ between.NestsFirst ∧ first.NestsFirst ∧ others.HaveNoBlock ∧
        rest.NestsFirst

def Handler.NestsFirst : Handler → Prop
  | .plain _ body => body.NestsFirst
  | .filtered test body => test.NestsFirst ∧ body.NestsFirst

end

/-! ## Places of handlers -/

/-- A place that does not stand behind another one. -/
structure Place.Before (first last : Place) : Prop where
  statement : first.statement ≤ last.statement
  mark : first.mark ≤ last.mark

theorem Place.Before.refl (place : Place) : place.Before place :=
  ⟨Nat.le_refl _, Nat.le_refl _⟩

theorem Place.Before.trans {first middle last : Place} (before : first.Before middle)
    (behind : middle.Before last) : first.Before last :=
  ⟨Nat.le_trans before.statement behind.statement, Nat.le_trans before.mark behind.mark⟩

theorem Place.before_behind (place : Place) (statements : List Statement) :
    place.Before (place.behind statements) :=
  ⟨Nat.le_add_right _ _, Nat.le_add_right _ _⟩

/-- A handler belongs to a block that stands between two places. -/
structure Handled.Within (handled : Handled) (first last : Place) : Prop where
  opens : first.statement ≤ handled.block.opens.statement
  closes : handled.block.closes.statement ≤ last.statement
  proper : handled.block.opens.statement < handled.block.closes.statement
  guarded : handled.block.guardEnd.mark ≤ handled.clause.tryEnd
  mark : handled.clause.tryEnd ≤ last.mark

theorem Handled.Within.mono {handled : Handled} {first last outerFirst outerLast : Place}
    (within : handled.Within first last) (before : outerFirst.Before first)
    (behind : last.Before outerLast) : handled.Within outerFirst outerLast :=
  ⟨Nat.le_trans before.statement within.opens, Nat.le_trans within.closes behind.statement,
    within.proper, within.guarded, Nat.le_trans within.mark behind.mark⟩

/-- Of two blocks one behind the other none stands in the other. -/
theorem Handled.Within.apart {earlier later : Handled} {first middle last : Place}
    (before : earlier.Within first middle) (behind : later.Within middle last) :
    ¬ later.block.Inside earlier.block := by
  rintro ⟨_, closes⟩
  have := before.closes
  have := behind.opens
  have := behind.proper
  omega

/-- The places of a block stand one behind the other. -/
structure Extent.Ordered (block : Extent) : Prop where
  proper : block.opens.statement < block.opened.statement
  opened : block.opens.Before block.opened
  guardEnd : block.opened.Before block.guardEnd
  unguarded : block.guardEnd.Before block.unguarded
  handlers : block.unguarded.Before block.handlers
  later : block.handlers.Before block.later
  closes : block.later.Before block.closes

theorem Extent.ordered_of (name : String) (guarded between : Program) (first : Handler)
    (others : Handlers) (place : Place) :
    (of name guarded between first others place).Ordered where
  proper := Nat.lt_succ_self _
  opened := Place.before_behind _ _
  guardEnd := Place.before_behind _ _
  unguarded := Place.before_behind _ _
  handlers := Place.before_behind _ _
  later := Place.before_behind _ _
  closes := Place.before_behind _ _

/-- The handlers in the parts of a block, and those in the program behind it, stand where the parts
do. -/
structure Extent.Splits (block : Extent) (last : Place)
    (guarded between first others rest : List Handled) : Prop where
  ordered : block.Ordered
  guarded : ∀ handled ∈ guarded, handled.Within block.opened block.guardEnd
  between : ∀ handled ∈ between, handled.Within block.unguarded block.handlers
  first : ∀ handled ∈ first, handled.Within block.handlers block.later
  others : ∀ handled ∈ others, handled.block = block ∧ handled.clause.tryEnd = block.handlers.mark ∨
    handled.Within block.later block.closes
  rest : ∀ handled ∈ rest, handled.Within block.closes last
  stop : block.closes.Before last

namespace Extent

variable {block : Extent} {last : Place} {guarded between first others rest : List Handled}
  {handled : Handled}

theorem Ordered.toHandlers (ordered : block.Ordered) : block.opens.Before block.handlers :=
  ordered.opened.trans (ordered.guardEnd.trans (ordered.unguarded.trans ordered.handlers))

theorem Ordered.toCloses (ordered : block.Ordered) : block.handlers.Before block.closes :=
  ordered.later.trans ordered.closes

/-- A handler of a block belongs to it from its start to its end. -/
theorem Ordered.within (ordered : block.Ordered) (isOwn : handled.block = block)
    (isEnd : handled.clause.tryEnd = block.handlers.mark) :
    handled.Within block.opens block.closes := by
  subst isOwn
  refine ⟨Nat.le_refl _, Nat.le_refl _, ?_, ?_, ?_⟩
  · have behind := ordered.guardEnd.trans (ordered.unguarded.trans ordered.handlers)
    exact Nat.lt_of_lt_of_le ordered.proper (behind.trans ordered.toCloses).statement
  · rw [isEnd]
    exact (ordered.unguarded.trans ordered.handlers).mark
  · rw [isEnd]
    exact ordered.toCloses.mark

theorem Splits.within (splits : block.Splits last guarded between first others rest)
    {clause : MarkedClause} (isEnd : clause.tryEnd = block.handlers.mark) :
    ∀ handled ∈ guarded ++ between ++ first ++ [⟨block, clause⟩] ++ others ++ rest,
      handled.Within block.opens last := by
  have ordered := splits.ordered
  have toStop := ordered.toCloses.trans splits.stop
  have own {handled : Handled} (isOwn : handled.block = block)
      (isEnd : handled.clause.tryEnd = block.handlers.mark) : handled.Within block.opens last :=
    (ordered.within isOwn isEnd).mono (.refl _) splits.stop
  intro handled member
  simp only [List.mem_append, List.mem_singleton] at member
  obtain ((((inGuarded | inBetween) | inFirst) | isFirst) | inOthers) | inRest := member
  · exact (splits.guarded handled inGuarded).mono ordered.opened
      ((ordered.unguarded.trans ordered.handlers).trans toStop)
  · exact (splits.between handled inBetween).mono
      (ordered.opened.trans (ordered.guardEnd.trans ordered.unguarded)) toStop
  · exact (splits.first handled inFirst).mono ordered.toHandlers
      (ordered.closes.trans splits.stop)
  · subst isFirst
    exact own rfl isEnd
  · obtain ⟨isOwn, isEnd⟩ | within := splits.others handled inOthers
    · exact own isOwn isEnd
    · exact within.mono (ordered.toHandlers.trans ordered.later) splits.stop
  · exact (splits.rest handled inRest).mono (ordered.toHandlers.trans ordered.toCloses) (.refl _)

theorem splits_of (name : String) {guarded between rest : Program} {first : Handler}
    {others : Handlers} (place : Place)
    (guardedWithin : ∀ place, ∀ handled ∈ guarded.handled place,
      handled.Within place (place.behind guarded.statements))
    (betweenWithin : ∀ place, ∀ handled ∈ between.handled place,
      handled.Within place (place.behind between.statements))
    (firstWithin : ∀ place, ∀ handled ∈ first.nested name place,
      handled.Within place (place.behind (first.statements name)))
    (othersWithin : ∀ (block : Extent) place, ∀ handled ∈ others.handled name block place,
      handled.block = block ∧ handled.clause.tryEnd = block.handlers.mark ∨
        handled.Within place (place.behind (others.statements name)))
    (restWithin : ∀ place, ∀ handled ∈ rest.handled place,
      handled.Within place (place.behind rest.statements)) :
    let block := of name guarded between first others place
    block.Splits (place.behind (Program.block name guarded between first others rest).statements)
      (guarded.handled block.opened) (between.handled block.unguarded)
      (first.nested name block.handlers) (others.handled name block block.later)
      (rest.handled block.closes) := by
  intro block
  rw [← closes_behind]
  exact ⟨ordered_of .., guardedWithin _, betweenWithin _, firstWithin _, othersWithin _ _,
    restWithin _, Place.before_behind _ _⟩

end Extent

mutual

theorem Program.within : ∀ (program : Program) {place : Place},
    ∀ handled ∈ program.handled place, handled.Within place (place.behind program.statements)
  | .done, _, _, member => nomatch member
  | .code statement _ rest, place, handled, member => by
      have within := rest.within handled member
      rw [Place.behind_behind] at within
      exact within.mono (place.before_behind [statement]) (.refl _)
  | .block name guarded between first others rest, place, handled, member => by
      have splits := Extent.splits_of name place (fun _ => guarded.within)
        (fun _ => between.within) (fun _ => first.within) (fun _ _ => others.within)
        (fun _ => rest.within)
      exact splits.within (first.clause_tryEnd ..) handled member

theorem Handler.within : ∀ (handler : Handler) {name : String} {place : Place},
    ∀ handled ∈ handler.nested name place,
      handled.Within place (place.behind (handler.statements name))
  | .plain kind body, name, place, handled, member => by
      have within := body.within handled member
      rw [Place.behind_behind] at within
      refine within.mono (place.before_behind _) ?_
      rw [Handler.statements, ← Place.behind_behind place (_ :: body.statements)]
      exact Place.before_behind _ _
  | .filtered test body, name, place, handled, member => by
      rw [Handler.statements, ← Place.behind_behind place (_ ++ _),
        ← Place.behind_behind place (_ :: test.statements)]
      rw [Handler.nested, List.mem_append] at member
      obtain inTest | inBody := member
      · have within := test.within handled inTest
        rw [Place.behind_behind] at within
        exact within.mono (place.before_behind _)
          ((Place.before_behind _ _).trans (Place.before_behind _ _))
      · have within := body.within handled inBody
        rw [Place.behind_behind _ [_]] at within
        exact within.mono ((place.before_behind _).trans (Place.before_behind _ _))
          (Place.before_behind _ _)

theorem Handlers.within : ∀ (handlers : Handlers) {name : String} {block : Extent} {place : Place},
    ∀ handled ∈ handlers.handled name block place,
      handled.block = block ∧ handled.clause.tryEnd = block.handlers.mark ∨
        handled.Within place (place.behind (handlers.statements name))
  | .none, _, _, _, _, member => nomatch member
  | .next handler others, name, block, place, handled, member => by
      rw [Handlers.statements, ← Place.behind_behind]
      simp only [Handlers.handled, List.mem_append, List.mem_singleton] at member
      obtain (inHandler | isOwn) | inOthers := member
      · exact .inr ((handler.within handled inHandler).mono (.refl _)
          (Place.before_behind _ _))
      · subst isOwn
        exact .inl ⟨rfl, handler.clause_tryEnd ..⟩
      · exact (others.within handled inOthers).imp_right fun within =>
          within.mono (place.before_behind _) (.refl _)

end

/-! ## When the clauses are as the markers say -/

theorem Extent.handlers_eq_iff (name : String) (guarded between : Program) (first : Handler)
    (others : Handlers) (place : Place) :
    (of name guarded between first others place).handlers.mark =
        (of name guarded between first others place).guardEnd.mark ↔
      sizeOfStatements between.statements = 0 := by
  simp [of, Place.behind, sizeOfStatements, Statement.size, Statement.isMarker]

mutual

theorem Program.adjoins_iff : ∀ (program : Program) {place : Place},
    (∀ handled ∈ program.handled place, handled.clause.tryEnd = handled.block.guardEnd.mark) ↔
      program.Adjoins
  | .done, _ => by simp [Program.handled, Program.Adjoins]
  | .code _ _ rest, _ => rest.adjoins_iff
  | .block name guarded between first others rest, place => by
      have adjoins := Extent.handlers_eq_iff name guarded between first others place
      simp only [Program.handled, List.forall_mem_append, List.forall_mem_singleton,
        first.clause_tryEnd, adjoins, guarded.adjoins_iff, between.adjoins_iff, first.adjoins_iff,
        rest.adjoins_iff, Program.Adjoins]
      by_cases adjoin : sizeOfStatements between.statements = 0
      · rw [others.adjoins_iff (adjoins.mpr adjoin)]
        tauto
      · simp [adjoin]

theorem Handler.adjoins_iff : ∀ (handler : Handler) {name : String} {place : Place},
    (∀ handled ∈ handler.nested name place,
      handled.clause.tryEnd = handled.block.guardEnd.mark) ↔ handler.Adjoins
  | .plain _ body, _, _ => body.adjoins_iff
  | .filtered test body, _, _ => by
      rw [Handler.nested, List.forall_mem_append, test.adjoins_iff, body.adjoins_iff,
        Handler.Adjoins]

theorem Handlers.adjoins_iff : ∀ (handlers : Handlers) {name : String} {block : Extent}
    {place : Place}, block.handlers.mark = block.guardEnd.mark →
      ((∀ handled ∈ handlers.handled name block place,
        handled.clause.tryEnd = handled.block.guardEnd.mark) ↔ handlers.Adjoins)
  | .none, _, _, _, _ => by simp [Handlers.handled, Handlers.Adjoins]
  | .next handler others, _, _, _, same => by
      rw [Handlers.handled, List.forall_mem_append, List.forall_mem_append,
        List.forall_mem_singleton, handler.adjoins_iff, others.adjoins_iff same,
        handler.clause_tryEnd, Handlers.Adjoins]
      simp [same]

end

/-- No handler stands behind one of a block that encloses its own. -/
def InnerFirst (handled : List Handled) : Prop :=
  handled.Pairwise fun earlier later => ¬ later.block.Inside earlier.block

instance (handled : List Handled) : Decidable (InnerFirst handled) :=
  inferInstanceAs (Decidable (List.Pairwise _ _))

theorem innerFirst_append {first second : List Handled}
    (apart : ∀ earlier ∈ first, ∀ later ∈ second, ¬ later.block.Inside earlier.block) :
    InnerFirst (first ++ second) ↔ InnerFirst first ∧ InnerFirst second := by
  simp only [InnerFirst, List.pairwise_append]
  exact ⟨fun whole => ⟨whole.1, whole.2.1⟩, fun parts => ⟨parts.1, parts.2, apart⟩⟩

theorem Program.handled_eq_nil_iff : ∀ (program : Program) {place : Place},
    program.handled place = [] ↔ program.HasNoBlock
  | .done, _ => by simp [Program.handled, HasNoBlock]
  | .code _ _ rest, _ => rest.handled_eq_nil_iff
  | .block .., _ => by simp [Program.handled, HasNoBlock]

theorem Handler.nested_eq_nil_iff (handler : Handler) {name : String} {place : Place} :
    handler.nested name place = [] ↔ handler.HasNoBlock := by
  cases handler with
  | plain kind body => exact body.handled_eq_nil_iff
  | filtered test body =>
      rw [Handler.nested, List.append_eq_nil_iff, test.handled_eq_nil_iff,
        body.handled_eq_nil_iff, HasNoBlock]

theorem Handlers.all_own_iff : ∀ (handlers : Handlers) {name : String} {block : Extent}
    {place : Place}, block.opens.statement < place.statement →
      ((∀ handled ∈ handlers.handled name block place, handled.block = block) ↔
        handlers.HaveNoBlock)
  | .none, _, _, _, _ => by simp [Handlers.handled, HaveNoBlock]
  | .next handler others, name, block, place, opens => by
      have laterOpens : block.opens.statement <
          (place.behind (handler.statements name)).statement :=
        Nat.lt_of_lt_of_le opens (place.before_behind _).statement
      have nested : (∀ handled ∈ handler.nested name place, handled.block = block) ↔
          handler.HasNoBlock := by
        rw [← handler.nested_eq_nil_iff, List.eq_nil_iff_forall_not_mem]
        refine forall_congr' fun handled => forall_congr' fun member => ?_
        have := (handler.within handled member).opens
        refine ⟨fun same => ?_, False.elim⟩
        rw [same] at this
        omega
      rw [Handlers.handled, List.forall_mem_append, List.forall_mem_append,
        List.forall_mem_singleton, others.all_own_iff laterOpens, nested, HaveNoBlock]
      simp

/-- Behind the first handler of a block its clause stands in front of those of all blocks within,
so there may be none. -/
theorem Handlers.innerFirst_iff (handlers : Handlers) {name : String} {block : Extent}
    {place : Place} {clause : MarkedClause} (opens : block.opens.statement < place.statement)
    (closes : (place.behind (handlers.statements name)).statement ≤ block.closes.statement) :
    InnerFirst (⟨block, clause⟩ :: handlers.handled name block place) ↔ handlers.HaveNoBlock := by
  have outside (inner : Extent) (same : inner = block) : ¬ inner.Inside block := by
    rintro ⟨less, _⟩
    rw [same] at less
    exact Nat.lt_irrefl _ less
  rw [← handlers.all_own_iff opens]
  refine ⟨fun innerFirst handled member => ?_, fun own => ?_⟩
  · by_contra other
    obtain ⟨isOwn, _⟩ | within := handlers.within handled member
    · exact other isOwn
    · exact (List.pairwise_cons.mp innerFirst).1 handled member
        ⟨Nat.lt_of_lt_of_le opens within.opens, Nat.le_trans within.closes closes⟩
  · refine List.pairwise_cons.mpr ⟨fun later member => outside _ (own later member), ?_⟩
    refine List.Pairwise.imp_of_mem (fun {earlier later} isEarlier isLater _ => ?_)
      (List.pairwise_of_forall fun _ _ => trivial)
    rw [own earlier isEarlier]
    exact outside _ (own later isLater)

/-- What stands in a block stands in front of all further handlers of that block and of all that
stands behind. -/
theorem innerFirst_part {part behind : List Handled} {block : Extent} {start middle last : Place}
    (opens : block.opens.statement < start.statement)
    (inPart : ∀ handled ∈ part, handled.Within start middle)
    (isBehind : ∀ handled ∈ behind, handled.block = block ∨ handled.Within middle last)
    (toMiddle : start.Before middle) (toLast : middle.Before last) :
    (InnerFirst (part ++ behind) ↔ InnerFirst part ∧ InnerFirst behind) ∧
      ∀ handled ∈ part ++ behind, handled.block = block ∨ handled.Within start last := by
  constructor
  · refine innerFirst_append fun earlier isEarlier later isLater => ?_
    have within := inPart earlier isEarlier
    obtain isOwn | isWithin := isBehind later isLater
    · rintro ⟨less, _⟩
      have := within.opens
      rw [isOwn] at less
      omega
    · exact within.apart isWithin
  · refine List.forall_mem_append.mpr ⟨fun handled member => ?_, fun handled member => ?_⟩
    · exact .inr ((inPart handled member).mono (.refl _) toLast)
    · exact (isBehind handled member).imp_right fun within => within.mono toMiddle (.refl _)

/-- Of the handlers of a block and those around it only further handlers of the block can break the
order. -/
theorem Extent.Splits.innerFirst_iff {block : Extent} {last : Place}
    {guarded between first others rest : List Handled} {clause : MarkedClause}
    (splits : block.Splits last guarded between first others rest)
    (isEnd : clause.tryEnd = block.handlers.mark) :
    InnerFirst (guarded ++ between ++ first ++ [⟨block, clause⟩] ++ others ++ rest) ↔
      InnerFirst guarded ∧ InnerFirst between ∧ InnerFirst first ∧
        InnerFirst (⟨block, clause⟩ :: others) ∧ InnerFirst rest := by
  have ordered := splits.ordered
  have toLast := ordered.toCloses.trans splits.stop
  have proper (place : Place) (before : block.opened.Before place) :
      block.opens.statement < place.statement :=
    Nat.lt_of_lt_of_le ordered.proper before.statement
  have unguarded := ordered.guardEnd.trans ordered.unguarded
  have handlers := unguarded.trans ordered.handlers
  have inOthers : ∀ handled ∈ ⟨block, clause⟩ :: others, handled.Within block.opens block.closes ∧
      (handled.block = block ∨ handled.Within block.later block.closes) := by
    refine List.forall_mem_cons.mpr ⟨⟨ordered.within rfl isEnd, .inl rfl⟩, fun handled member => ?_⟩
    obtain ⟨isOwn, isEnd⟩ | within := splits.others handled member
    · exact ⟨ordered.within isOwn isEnd, .inl isOwn⟩
    · exact ⟨within.mono (ordered.toHandlers.trans ordered.later) (.refl _), .inr within⟩
  have apart : InnerFirst ((⟨block, clause⟩ :: others) ++ rest) ↔
      InnerFirst (⟨block, clause⟩ :: others) ∧ InnerFirst rest :=
    innerFirst_append fun earlier isEarlier later isLater =>
      (inOthers earlier isEarlier).1.apart (splits.rest later isLater)
  have behindFirst : ∀ handled ∈ (⟨block, clause⟩ :: others) ++ rest,
      handled.block = block ∨ handled.Within block.later last := by
    refine List.forall_mem_append.mpr ⟨fun handled member => ?_, fun handled member => ?_⟩
    · exact (inOthers handled member).2.imp_right fun within => within.mono (.refl _) splits.stop
    · exact .inr ((splits.rest handled member).mono ordered.closes (.refl _))
  obtain ⟨firstApart, behindBetween⟩ := innerFirst_part (proper _ handlers) splits.first
    behindFirst ordered.later (ordered.closes.trans splits.stop)
  obtain ⟨betweenApart, behindGuarded⟩ := innerFirst_part (proper _ unguarded) splits.between
    behindBetween ordered.handlers toLast
  obtain ⟨guardedApart, _⟩ := innerFirst_part (proper _ (.refl _))
    (fun handled member => (splits.guarded handled member).mono (.refl _) ordered.unguarded)
    behindGuarded unguarded (ordered.handlers.trans toLast)
  rw [← apart, ← firstApart, ← betweenApart, ← guardedApart]
  simp

mutual

theorem Program.innerFirst_iff : ∀ (program : Program) {place : Place},
    InnerFirst (program.handled place) ↔ program.NestsFirst
  | .done, _ => by simp [Program.handled, Program.NestsFirst, InnerFirst]
  | .code _ _ rest, _ => rest.innerFirst_iff
  | .block name guarded between first others rest, place => by
      have splits := Extent.splits_of name place (fun _ => guarded.within)
        (fun _ => between.within) (fun _ => first.within) (fun _ _ => others.within)
        (fun _ => rest.within)
      rw [Program.handled, splits.innerFirst_iff (first.clause_tryEnd ..), guarded.innerFirst_iff,
        between.innerFirst_iff, first.innerFirst_iff, rest.innerFirst_iff, Program.NestsFirst,
        others.innerFirst_iff ?_ (Nat.le_refl _)]
      have ordered := splits.ordered
      exact Nat.lt_of_lt_of_le ordered.proper (ordered.guardEnd.trans (ordered.unguarded.trans
        (ordered.handlers.trans ordered.later))).statement

theorem Handler.innerFirst_iff : ∀ (handler : Handler) {name : String} {place : Place},
    InnerFirst (handler.nested name place) ↔ handler.NestsFirst
  | .plain _ body, _, _ => body.innerFirst_iff
  | .filtered test body, name, place => by
      rw [Handler.nested, innerFirst_append, test.innerFirst_iff, body.innerFirst_iff,
        Handler.NestsFirst]
      intro earlier isEarlier later isLater
      have before := test.within earlier isEarlier
      have behind := body.within later isLater
      rw [Place.behind_behind] at before
      exact before.apart (behind.mono (Place.before_behind _ _) (.refl _))

end

/-! ## Assembled code -/

/-- The code of a program with paired markers has one clause for each handler, in the order in which
the handlers end, and the ranges of handlers and filters lie where the markers stand.  A guarded
range goes on up to the first handler of its block.  So each guarded range ends at its marker if and
only if no instruction stands between the two, and clauses of inner blocks come first if and only if
only first handlers have blocks within. -/
theorem Program.clauses_of_assembleAll {module? : Option Module} {program : Program}
    {code : EmittedCode} (ran : assembleAll module? program.statements = .ok code) :
    ∃ outline instructions, Encoder.Finished true outline code instructions ∧
      EmitsInOrder module? program.statements outline.emitted ∧
      List.Forall₂ (fun handled clause =>
        handled.clause.LiesAt (code.startOf instructions) clause)
        (program.handled .start) code.clauses ∧
      (List.Forall₂ (fun handled clause =>
        clause.tryOffset + clause.tryLength =
          code.startOf instructions handled.block.guardEnd.mark)
        (program.handled .start) code.clauses ↔ program.Adjoins) ∧
      (InnerFirst (program.handled .start) ↔ program.NestsFirst) := by
  obtain ⟨last, ended, lastRan, endedRan, names, outline, instructions, finished, here, blocks,
    inOrder⟩ := finished_of_assembleAll ran
  have brings := program.brings lastRan
  obtain ⟨settled, lastDepth⟩ := View.settled_of_flush endedRan
  have level : last.depth = View.empty.depth := by
    rw [← lastDepth, View.depth, settled, names]
    rfl
  have flushed := brings.flushed level .start (View.flush_of_settled rfl) rfl
  obtain rfl := Option.some.inj (endedRan.symm.trans flushed)
  have lie : List.Forall₂ (fun handled clause =>
      handled.clause.LiesAt (code.startOf instructions) clause)
      (program.handled .start) code.clauses := by
    have clauses := finished.clauses
    rw [blocks] at clauses
    exact List.forall₂_map_left_iff.mp clauses
  refine ⟨outline, instructions, finished, inOrder, lie, ?_, program.innerFirst_iff⟩
  rw [← program.adjoins_iff]
  refine forall₂_iff_of_related lie fun handled clause member lies => ?_
  have within := program.within handled member
  rw [lies.tryEnd]
  have bound : handled.clause.tryEnd ≤ outline.here :=
    Nat.le_trans within.mark (Nat.le_of_eq here.symm)
  exact ⟨fun same => (finished.mark_inj within.guarded bound same.symm).symm,
    fun same => by rw [same]⟩

namespace CleanedUp

/-- Code that is cleaned up after, within a block with a filter. -/
def program : Program :=
  .block "outer"
    (.block "inner" (.code (.branch .leave "behind") rfl .done) .done
      (.plain .finallyBlock (.code (.plain .endfinally) rfl .done)) .none
      (.code (.label "behind") rfl (.code (.branch .leave "done") rfl .done)))
    .done
    (.filtered
      (.code (.plain .pop) rfl (.code (.constant 1) rfl (.code (.plain .endfilter) rfl .done)))
      (.code (.plain .pop) rfl (.code (.branch .leave "done") rfl .done)))
    .none
    (.code (.label "done") rfl (.code (.plain .ret) rfl .done))

/-- All ranges are as the markers say, and the inner clause comes first. -/
theorem clauses_delimit : ∃ code, assembleAll none program.statements = .ok code ∧
    ∃ instructions, Instruction.decodeAll code.code = .ok instructions ∧
      List.Forall₂ (fun handled clause =>
        handled.clause.LiesAt (code.startOf instructions) clause)
        (program.handled .start) code.clauses ∧
      List.Forall₂ (fun handled clause =>
        clause.tryOffset + clause.tryLength =
          code.startOf instructions handled.block.guardEnd.mark)
        (program.handled .start) code.clauses ∧
      InnerFirst (program.handled .start) := by
  have assembled : (assembleAll none program.statements).toOption.isSome := by decide +kernel
  cases ran : assembleAll none program.statements with
  | error error =>
      rw [ran] at assembled
      cases assembled
  | ok code =>
      obtain ⟨_, instructions, finished, _, lie, adjoins, nests⟩ :=
        Program.clauses_of_assembleAll ran
      refine ⟨code, rfl, instructions, finished.decoded, lie, adjoins.mpr ?_, nests.mpr ?_⟩
      · simp [program, Program.Adjoins, Handler.Adjoins, Handlers.Adjoins, Program.statements,
          sizeOfStatements]
      · simp [program, Program.NestsFirst, Handler.NestsFirst, Handlers.HaveNoBlock]

end CleanedUp

namespace StrayInstruction

/-- A block with an instruction in front of its first handler, and a block in its second one. -/
def program : Program :=
  .block "outer" (.code (.plain .nop) rfl (.code (.branch .leave "done") rfl .done))
    (.code (.plain .nop) rfl .done)
    (.plain (.exception ⟨0x01000001⟩)
      (.code (.plain .pop) rfl (.code (.branch .leave "done") rfl .done)))
    (.next
      (.plain (.exception ⟨0x01000002⟩)
        (.code (.plain .pop) rfl
          (.block "inner" (.code (.branch .leave "caught") rfl .done) .done
            (.plain .finallyBlock (.code (.plain .endfinally) rfl .done)) .none
            (.code (.label "caught") rfl (.code (.branch .leave "done") rfl .done)))))
      .none)
    (.code (.label "done") rfl (.code (.plain .ret) rfl .done))

def code : EmittedCode :=
  { code := [0x00, 0xDE, 0x0A, 0x00, 0x26, 0xDE, 0x06, 0x26, 0xDE, 0x01, 0xDC, 0xDE, 0x00, 0x2A]
    maxStack := 1, labels := [("caught", 11), ("done", 13)]
    clauses :=
      [ { flags := ClauseFlags.exception, tryOffset := 0, tryLength := 4, handlerOffset := 4
          handlerLength := 3, class? := some ⟨0x01000001⟩, filterOffset := 0 },
        { flags := ClauseFlags.finallyBlock, tryOffset := 8, tryLength := 2, handlerOffset := 10
          handlerLength := 1, class? := none, filterOffset := 0 },
        { flags := ClauseFlags.exception, tryOffset := 0, tryLength := 4, handlerOffset := 7
          handlerLength := 6, class? := some ⟨0x01000002⟩, filterOffset := 0 } ] }

/-- The outer block guards two instructions, and its ranges go on behind the third one, at the
offset 4.  The clause of the inner block stands behind one of the outer block. -/
theorem range_overshoots : (assembleAll none program.statements).toOption = some code ∧
    (Instruction.decodeAll code.code).toOption.map (·.map (·.offset)) =
      some [0, 1, 3, 4, 5, 7, 8, 10, 11, 13] ∧
    (program.handled .start).map (fun handled =>
      (handled.block.opens.mark, handled.block.guardEnd.mark, handled.clause.tryEnd)) =
        [(0, 2, 3), (6, 7, 7), (0, 2, 3)] ∧
    ¬ InnerFirst (program.handled .start) := by
  decide +kernel

end StrayInstruction

end Assembler

end Cil
