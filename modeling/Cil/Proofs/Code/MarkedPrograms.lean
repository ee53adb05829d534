import Cil.Proofs.Code.AssemblerSteps

/-!
# Programs with paired markers

A program whose markers are paired is a tree of blocks.  What it does to the view of an assembler
is said part by part.  The end of a block is put off until it is known whether another handler
follows, so a handler may go on with another block of the same name; then a block is left open.
-/

namespace Cil

/-- The block of a clause before the handler has ended. -/
def MarkedClause.openBlock (clause : MarkedClause) : OpenBlock :=
  { tryStart := clause.tryStart, tryEnd? := some clause.tryEnd
    current? := some
      { flags := clause.flags, class? := clause.class?, filterStart? := clause.filterStart?
        handlerStart? := some clause.handlerStart } }

namespace Assembler

/-! ## Programs with paired markers -/

/-- What a handler without a filter is for. -/
inductive HandlerKind
  | exception (exceptionClass : Token)
  | finallyBlock
  | fault

namespace HandlerKind

def start (name : String) : HandlerKind → Statement
  | exception exceptionClass => .catchStart name exceptionClass
  | finallyBlock => .finallyStart name
  | fault => .faultStart name

def event : HandlerKind → RegionEvent
  | exception exceptionClass => .beginCatch exceptionClass
  | finallyBlock => .beginFinally
  | fault => .beginFault

def flags : HandlerKind → ClauseFlags
  | exception _ => ClauseFlags.exception
  | finallyBlock => ClauseFlags.finallyBlock
  | fault => ClauseFlags.fault

def class? : HandlerKind → Option Token
  | exception exceptionClass => some exceptionClass
  | finallyBlock | fault => none

end HandlerKind

mutual

/-- A program with paired markers.  A block guards what stands up to its `tryEnd`, and something may
stand between this and its first handler. -/
inductive Program
  | done
  | code (statement : Statement) (isCode : statement.isMarker = false) (rest : Program)
  | block (name : String) (guarded between : Program) (first : Handler) (others : Handlers)
      (rest : Program)

inductive Handler
  | plain (kind : HandlerKind) (body : Program)
  | filtered (test body : Program)

/-- The handlers of a block that follow its first one. -/
inductive Handlers
  | none
  | next (handler : Handler) (others : Handlers)

end

mutual

def Program.statements : Program → List Statement
  | .done => []
  | .code statement _ rest => statement :: rest.statements
  | .block name guarded between first others rest =>
      .tryStart name :: guarded.statements ++ .tryEnd name :: between.statements ++
        first.statements name ++ others.statements name ++ rest.statements

def Handler.statements (name : String) : Handler → List Statement
  | .plain kind body => kind.start name :: body.statements ++ [.handlerEnd name]
  | .filtered test body =>
      .filterStart name :: test.statements ++ .filterHandlerStart name :: body.statements ++
        [.handlerEnd name]

def Handlers.statements (name : String) : Handlers → List Statement
  | .none => []
  | .next handler others => handler.statements name ++ others.statements name

end

/-! ## Where handlers stand -/

/-- A place in a program: how many statements stand in front of it, and how many instructions these
emit. -/
structure Place where
  statement : Nat
  mark : Mark

namespace Place

def start : Place := ⟨0, 0⟩

def behind (place : Place) (statements : List Statement) : Place :=
  ⟨place.statement + statements.length, place.mark + sizeOfStatements statements⟩

theorem behind_behind (place : Place) (first second : List Statement) :
    (place.behind first).behind second = place.behind (first ++ second) := by
  simp [behind, sizeOfStatements_append, Nat.add_assoc]

theorem behind_nil (place : Place) : place.behind [] = place :=
  rfl

theorem mark_behind_marker (place : Place) {marker : Statement} (isMarker : marker.isMarker) :
    (place.behind [marker]).mark = place.mark := by
  cases marker <;> first | rfl | cases isMarker

end Place

/-- The places of a block: in front of its `tryStart` and behind it, in front of its `tryEnd` and
behind it, where its first handler starts, where this ends, and where the last one ends. -/
structure Extent where
  opens : Place
  opened : Place
  guardEnd : Place
  unguarded : Place
  handlers : Place
  later : Place
  closes : Place

def Extent.of (name : String) (guarded between : Program) (first : Handler) (others : Handlers)
    (place : Place) : Extent :=
  let opened := place.behind [.tryStart name]
  let guardEnd := opened.behind guarded.statements
  let unguarded := guardEnd.behind [.tryEnd name]
  let handlers := unguarded.behind between.statements
  let later := handlers.behind (first.statements name)
  { opens := place, opened, guardEnd, unguarded, handlers, later
    closes := later.behind (others.statements name) }

/-- One block stands in another one. -/
def Extent.Inside (inner outer : Extent) : Prop :=
  outer.opens.statement < inner.opens.statement ∧ inner.closes.statement ≤ outer.closes.statement

instance (inner outer : Extent) : Decidable (inner.Inside outer) :=
  inferInstanceAs (Decidable (_ ∧ _))

/-- A handler, its block, and its clause. -/
structure Handled where
  block : Extent
  clause : MarkedClause

/-- The clause of a handler at a place. -/
def Handler.clause (name : String) (block : Extent) (place : Place) : Handler → MarkedClause
  | .plain kind body =>
      { flags := kind.flags, class? := kind.class?
        tryStart := block.opens.mark, tryEnd := block.handlers.mark, handlerStart := place.mark
        handlerEnd := (place.behind (kind.start name :: body.statements)).mark
        filterStart? := none }
  | .filtered test body =>
      let handler := place.behind (.filterStart name :: test.statements)
      { flags := ClauseFlags.filter, class? := none
        tryStart := block.opens.mark, tryEnd := block.handlers.mark, handlerStart := handler.mark
        handlerEnd := (handler.behind (.filterHandlerStart name :: body.statements)).mark
        filterStart? := some place.mark }

mutual

/-- The handlers of a program at a place, in the order in which they end. -/
def Program.handled (place : Place) : Program → List Handled
  | .done => []
  | .code statement _ rest => rest.handled (place.behind [statement])
  | .block name guarded between first others rest =>
      let block := Extent.of name guarded between first others place
      guarded.handled block.opened ++ between.handled block.unguarded ++
        first.nested name block.handlers ++ [⟨block, first.clause name block block.handlers⟩] ++
        others.handled name block block.later ++ rest.handled block.closes

/-- The handlers of blocks within a handler. -/
def Handler.nested (name : String) (place : Place) : Handler → List Handled
  | .plain kind body => body.handled (place.behind [kind.start name])
  | .filtered test body =>
      test.handled (place.behind [.filterStart name]) ++
        body.handled
          ((place.behind (.filterStart name :: test.statements)).behind [.filterHandlerStart name])

def Handlers.handled (name : String) (block : Extent) (place : Place) : Handlers → List Handled
  | .none => []
  | .next handler others =>
      handler.nested name place ++ [⟨block, handler.clause name block place⟩] ++
        others.handled name block (place.behind (handler.statements name))

end

/-- Behind a block the program goes on. -/
theorem Extent.closes_behind (name : String) (guarded between : Program) (first : Handler)
    (others : Handlers) (rest : Program) (place : Place) :
    (of name guarded between first others place).closes.behind rest.statements =
      place.behind (Program.block name guarded between first others rest).statements := by
  simp only [of, Place.behind_behind, Program.statements, List.append_assoc, List.cons_append,
    List.nil_append]

namespace View

variable {view next : View} {name : String}

/-! ## Inside a block -/

/-- A settled view after code, with the clauses of the blocks in it. -/
def reach (view : View) (here : Mark) (clauses : List MarkedClause) : View :=
  { view with here, blocks := ⟨view.blocks.opened, view.blocks.finished ++ clauses⟩ }

/-- A view inside a block. -/
def inBlock (base : View) (name : String) (block : OpenBlock) (here : Mark)
    (clauses : List MarkedClause) : View :=
  { here, blocks := ⟨block :: base.blocks.opened, base.blocks.finished ++ clauses⟩
    names := name :: base.names, closing? := none }

variable {base : View}

/-- A view of a block that is pending behind its handlers. -/
def handled (base : View) (name : String) (clauses : List MarkedClause) (last : MarkedClause) :
    View :=
  { base.inBlock name last.openBlock last.handlerEnd clauses with closing? := some name }

theorem reach_nil (base : View) : base.reach base.here [] = base := by
  simp [reach]

theorem reach_reach (here there : Mark) (clauses more : List MarkedClause) :
    (base.reach here clauses).reach there more = base.reach there (clauses ++ more) := by
  simp [reach]

theorem reach_inBlock (block : OpenBlock) (here there : Mark) (clauses more : List MarkedClause) :
    (base.inBlock name block here clauses).reach there more =
      base.inBlock name block there (clauses ++ more) := by
  simp [reach, inBlock]

theorem depth_inBlock (settled : base.closing? = none) (block : OpenBlock) (here : Mark)
    (clauses : List MarkedClause) :
    (base.inBlock name block here clauses).depth = base.depth + 1 := by
  simp [depth, inBlock, settled]

/-- The end of a block adds the clause of its last handler. -/
theorem flush_handled (settled : base.closing? = none) (clauses : List MarkedClause)
    (last : MarkedClause) :
    (base.handled name clauses last).flush =
      some (base.reach last.handlerEnd (clauses ++ [last])) := by
  simp [flush, handled, inBlock, act, Blocks.act, Blocks.endBlock, MarkedClause.openBlock,
    OpenBlock.close, reach, settled]

theorem tryStart_eq_some (started : view.step (.tryStart name) = some next) :
    ∃ base, view.flush = some base ∧
      next = base.inBlock name ⟨base.here, none, none⟩ base.here [] := by
  obtain ⟨base, flushRan, acted⟩ := Option.bind_eq_some_iff.mp started
  cases acted
  obtain ⟨settled, _⟩ := settled_of_flush flushRan
  exact ⟨base, flushRan, by simp [inBlock, settled]⟩

end View

namespace Handler

def event : Handler → RegionEvent
  | .plain kind _ => kind.event
  | .filtered _ _ => .beginFilter

def start (name : String) : Handler → Statement
  | .plain kind _ => kind.start name
  | .filtered _ _ => .filterStart name

/-- The statements of a handler behind its start. -/
def inside (name : String) : Handler → List Statement
  | .plain _ body => body.statements ++ [.handlerEnd name]
  | .filtered test body =>
      test.statements ++ .filterHandlerStart name :: body.statements ++ [.handlerEnd name]

/-- The block of a handler that has started at a mark. -/
def openBlock (block : Extent) (mark : Mark) : Handler → OpenBlock
  | .plain kind _ =>
      { tryStart := block.opens.mark, tryEnd? := some block.handlers.mark
        current? := some
          { flags := kind.flags, class? := kind.class?, filterStart? := none
            handlerStart? := some mark } }
  | .filtered _ _ =>
      { tryStart := block.opens.mark, tryEnd? := some block.handlers.mark
        current? := some
          { flags := ClauseFlags.filter, class? := none, filterStart? := some mark
            handlerStart? := none } }

variable (handler : Handler) {name : String} {view next base : View}

theorem statements_eq (name : String) :
    handler.statements name = handler.start name :: handler.inside name := by
  cases handler <;> simp [Handler.statements, start, inside]

theorem mark_behind (name : String) (block : Extent) (place : Place) :
    (place.behind (handler.statements name)).mark =
      (handler.clause name block place).handlerEnd := by
  have ended (before : List Statement) :
      (place.behind (before ++ [.handlerEnd name])).mark = (place.behind before).mark := by
    rw [← Place.behind_behind, Place.mark_behind_marker _ rfl]
  cases handler with
  | plain kind body => exact ended _
  | filtered test body =>
      rw [Handler.statements, ended, ← Place.behind_behind]
      rfl

theorem clause_tryStart (name : String) (block : Extent) (place : Place) :
    (handler.clause name block place).tryStart = block.opens.mark := by
  cases handler <;> rfl

theorem clause_tryEnd (name : String) (block : Extent) (place : Place) :
    (handler.clause name block place).tryEnd = block.handlers.mark := by
  cases handler <;> rfl

theorem step_start (name : String) :
    view.step (handler.start name) = (view.prepare name).bind (·.act handler.event) := by
  cases handler with
  | plain kind body => cases kind <;> rfl
  | filtered test body => rfl

/-- A handler ends the one in front of it and starts. -/
theorem act_event {block : Extent} {opened : OpenBlock} {mark : Mark}
    {clauses closed : List MarkedClause} (start : opened.tryStart = block.opens.mark)
    (stop : opened.tryEnd?.getD mark = block.handlers.mark)
    (closes : { opened with tryEnd? := some block.handlers.mark }.close mark = some closed) :
    (base.inBlock name opened mark clauses).act handler.event =
      some (base.inBlock name (handler.openBlock block mark) mark (clauses ++ closed)) := by
  have starts (flags : ClauseFlags) (class? : Option Token) (isFilter : Bool) :
      Blocks.startHandler flags class? isFilter mark
          (base.inBlock name opened mark clauses).blocks =
        some
          { opened :=
              { tryStart := block.opens.mark, tryEnd? := some block.handlers.mark
                current? := some
                  { flags, class?, filterStart? := if isFilter then some mark else none
                    handlerStart? := if isFilter then none else some mark } } ::
                base.blocks.opened
            finished := base.blocks.finished ++ (clauses ++ closed) } := by
    rw [start] at closes
    simp [Blocks.startHandler, View.inBlock, start, stop, closes]
  have acts : Blocks.act mark (base.inBlock name opened mark clauses).blocks handler.event =
      some (base.inBlock name (handler.openBlock block mark) mark (clauses ++ closed)).blocks := by
    cases handler with
    | plain kind body => cases kind <;> exact starts _ _ false
    | filtered test body => exact starts _ _ true
  rw [View.act]
  change (Blocks.act mark _ _).map _ = _
  rw [acts]
  rfl

/-- The guarded range of a block goes on up to its first handler. -/
theorem act_first (block : Extent) (clauses : List MarkedClause) :
    (base.inBlock name ⟨block.opens.mark, none, none⟩ block.handlers.mark clauses).act
        handler.event =
      some (base.inBlock name (handler.openBlock block block.handlers.mark) block.handlers.mark
        clauses) := by
  have acts : (base.inBlock name ⟨block.opens.mark, none, none⟩ block.handlers.mark clauses).act
      handler.event = some (base.inBlock name (handler.openBlock block block.handlers.mark)
        block.handlers.mark (clauses ++ [])) := handler.act_event rfl rfl rfl
  rwa [List.append_nil] at acts

/-- Where a further handler starts, the one in front of it ends. -/
theorem act_next {block : Extent} {clauses : List MarkedClause} {current : MarkedClause}
    (start : current.tryStart = block.opens.mark) (stop : current.tryEnd = block.handlers.mark) :
    (base.inBlock name current.openBlock current.handlerEnd clauses).act handler.event =
      some (base.inBlock name (handler.openBlock block current.handlerEnd) current.handlerEnd
        (clauses ++ [current])) := by
  refine handler.act_event start stop ?_
  simp [OpenBlock.close, MarkedClause.openBlock, ← stop]

/-- The handler of a filter starts where the filter ends. -/
theorem act_filtered {test body : Program} (block : Extent) (place : Place)
    {clauses : List MarkedClause} :
    (base.inBlock name ((Handler.filtered test body).openBlock block place.mark)
        (place.behind (.filterStart name :: test.statements)).mark clauses).act
        .beginFilteredHandler =
      some (base.inBlock name ((Handler.filtered test body).clause name block place).openBlock
        (place.behind (.filterStart name :: test.statements)).mark clauses) := by
  simp [View.act, View.inBlock, Blocks.act, Blocks.startFiltered, openBlock, Handler.clause,
    MarkedClause.openBlock]

end Handler

/-! ## Runs of the parts of a program -/

open View (settled_of_flush flush_of_settled)

/-- What a program does to a view.  No block that is open in front of it ends, and if none is left
open, the clauses are those of its handlers. -/
structure Program.Brings (program : Program) (before after : View) : Prop where
  depth : before.depth ≤ after.depth
  flushed : after.depth = before.depth → ∀ {base : View} (place : Place),
    before.flush = some base → base.here = place.mark →
      after.flush = some (base.reach (place.behind program.statements).mark
        ((program.handled place).map Handled.clause))

/-- What a handler does to a view, from its start on. -/
structure Handler.Brings (handler : Handler) (name : String) (before after : View) : Prop where
  closing : after.closing? = some name
  depth : before.depth ≤ after.depth + 1
  handled : before.depth = after.depth + 1 → ∀ {base : View} (block : Extent) (place : Place)
    {clauses : List MarkedClause},
    before = base.inBlock name (handler.openBlock block place.mark) place.mark clauses →
      after = base.handled name (clauses ++ (handler.nested name place).map Handled.clause)
        (handler.clause name block place)

/-- What the further handlers of a block do to a view, behind a handler. -/
structure Handlers.Brings (handlers : Handlers) (name : String) (before after : View) : Prop where
  closing : after.closing? = some name
  depth : before.depth ≤ after.depth
  handled : after.depth = before.depth → ∀ {base : View} (block : Extent) (place : Place)
    {clauses : List MarkedClause} {current : MarkedClause},
    before = base.handled name clauses current → current.tryStart = block.opens.mark →
      current.tryEnd = block.handlers.mark → current.handlerEnd = place.mark →
      ∃ more last, after = base.handled name more last ∧
        last.handlerEnd = (place.behind (handlers.statements name)).mark ∧
        more ++ [last] =
          clauses ++ current :: (handlers.handled name block place).map Handled.clause

/-- All runs of a program bring what they should. -/
abbrev Program.RunsBring (program : Program) : Prop :=
  ∀ {before after : View}, before.run program.statements = some after →
    program.Brings before after

abbrev Handler.RunsBring (handler : Handler) (name : String) : Prop :=
  ∀ {before after : View}, before.run (handler.inside name) = some after →
    handler.Brings name before after

abbrev Handlers.RunsBring (handlers : Handlers) (name : String) : Prop :=
  ∀ {before after : View}, before.closing? = some name →
    before.run (handlers.statements name) = some after → handlers.Brings name before after

section Runs

variable {before after : View} {name : String}

theorem brings_done : Program.done.Brings before before where
  depth := Nat.le_refl _
  flushed _ {base} place flushRan here := by
    rw [flushRan, Program.statements, Place.behind_nil, ← here]
    exact congrArg some (View.reach_nil base).symm

theorem brings_code {statement : Statement} {rest : Program}
    (isCode : statement.isMarker = false)
    (restBrings : rest.RunsBring)
    (ran : before.run (statement :: rest.statements) = some after) :
    (Program.code statement isCode rest).Brings before after := by
  obtain ⟨middle, stepRan, restRan⟩ := View.run_cons_eq_some.mp ran
  rw [View.step_code isCode] at stepRan
  obtain ⟨flushed, flushRan, rfl⟩ := Option.map_eq_some_iff.mp stepRan
  obtain ⟨settled, same⟩ := settled_of_flush flushRan
  have brings := restBrings restRan
  have moved : flushed.depth ≤ after.depth := brings.depth
  refine ⟨by omega, fun level {base} place baseRan here => ?_⟩
  obtain rfl : flushed = base := Option.some.inj (flushRan.symm.trans baseRan)
  have isPlace : flushed.here + statement.size = (place.behind [statement]).mark := by
    rw [here]
    rfl
  have restFlushed := brings.flushed (level.trans same.symm) _ (flush_of_settled settled) isPlace
  rw [Place.behind_behind] at restFlushed
  exact restFlushed

/-- A body up to the end of its handler. -/
theorem brings_body {body : Program} {ended : View} (brings : body.Brings before after)
    (endRan : after.step (.handlerEnd name) = some ended) :
    ended.closing? = some name ∧ before.depth ≤ ended.depth + 1 ∧
      (before.depth = ended.depth + 1 → ∀ {base : View} (place : Place) {last : MarkedClause}
        {clauses : List MarkedClause},
        before = base.inBlock name last.openBlock place.mark clauses →
          last.handlerEnd = (place.behind body.statements).mark →
          ended = base.handled name (clauses ++ (body.handled place).map Handled.clause) last) := by
  obtain ⟨flushed, flushRan, rfl, _, deeper⟩ := View.handlerEnd_eq_some endRan
  have moved := brings.depth
  refine ⟨rfl, by omega, ?_⟩
  rintro level base place last clauses rfl stop
  have bodyFlushed := brings.flushed (by omega) place (flush_of_settled rfl) rfl
  rw [View.reach_inBlock, ← stop] at bodyFlushed
  obtain rfl := Option.some.inj (flushRan.symm.trans bodyFlushed)
  rfl

theorem brings_plain {kind : HandlerKind} {body : Program}
    (bodyBrings : body.RunsBring)
    (ran : before.run ((Handler.plain kind body).inside name) = some after) :
    (Handler.plain kind body).Brings name before after := by
  obtain ⟨middle, bodyRan, endRan⟩ := View.run_append_eq_some.mp ran
  rw [View.run_singleton] at endRan
  obtain ⟨closing, depth, handled⟩ := brings_body (bodyBrings bodyRan) endRan
  refine ⟨closing, depth, fun level {base} block place {clauses} begun => ?_⟩
  have isPlace : (place.behind [kind.start name]).mark = place.mark :=
    place.mark_behind_marker (by cases kind <;> rfl)
  refine handled level (place.behind [kind.start name]) ?_ ?_
  · rw [begun, isPlace]
    rfl
  · rw [Place.behind_behind]
    rfl

theorem brings_filtered {test body : Program}
    (testBrings : test.RunsBring)
    (bodyBrings : body.RunsBring)
    (ran : before.run ((Handler.filtered test body).inside name) = some after) :
    (Handler.filtered test body).Brings name before after := by
  obtain ⟨middle, ran, endRan⟩ := View.run_append_eq_some.mp ran
  obtain ⟨tested, testRan, ran⟩ := View.run_append_eq_some.mp ran
  obtain ⟨started, startRan, bodyRan⟩ := View.run_cons_eq_some.mp ran
  rw [View.run_singleton] at endRan
  obtain ⟨expected, expectRan, acted⟩ := Option.bind_eq_some_iff.mp startRan
  obtain ⟨flushed, flushRan, expectRan⟩ := Option.bind_eq_some_iff.mp expectRan
  obtain ⟨rfl, _⟩ := View.eq_of_expect expectRan
  have brings := testBrings testRan
  have moved := brings.depth
  obtain ⟨_, flushDepth⟩ := settled_of_flush flushRan
  obtain ⟨_, actDepth⟩ := View.settled_of_act acted
  obtain ⟨closing, depth, handled⟩ := brings_body (bodyBrings bodyRan) endRan
  refine ⟨closing, by omega, ?_⟩
  rintro level base block place clauses rfl
  have testPlace : (place.behind [.filterStart name]).mark = place.mark :=
    place.mark_behind_marker rfl
  have testFlushed := brings.flushed (by omega) (place.behind [.filterStart name])
    (flush_of_settled rfl) testPlace.symm
  rw [View.reach_inBlock, Place.behind_behind] at testFlushed
  obtain rfl := Option.some.inj (flushRan.symm.trans testFlushed)
  obtain rfl := Option.some.inj ((Handler.act_filtered block place).symm.trans acted)
  have bodyPlace :
      ((place.behind (.filterStart name :: test.statements)).behind
        [.filterHandlerStart name]).mark =
      (place.behind (.filterStart name :: test.statements)).mark :=
    Place.mark_behind_marker _ rfl
  have bodyEnded := handled (by omega) _ (congrArg (base.inBlock name _ · _) bodyPlace.symm) ?_
  · rw [bodyEnded, Handler.nested, List.map_append, List.append_assoc]
  · rw [Place.behind_behind]
    rfl

theorem brings_none (pending : before.closing? = some name) :
    Handlers.none.Brings name before before where
  closing := pending
  depth := Nat.le_refl _
  handled _ {base} block place {clauses current} begun _ _ ended := by
    refine ⟨clauses, current, begun, ended, ?_⟩
    rw [Handlers.handled, List.map_nil]

/-- Each further handler goes on with the block that is pending behind the one in front of it. -/
theorem brings_next {handler : Handler} {others : Handlers}
    (handlerBrings : handler.RunsBring name)
    (othersBrings : others.RunsBring name)
    (pending : before.closing? = some name)
    (ran : before.run ((Handlers.next handler others).statements name) = some after) :
    (Handlers.next handler others).Brings name before after := by
  obtain ⟨behind, handlerRan, othersRan⟩ := View.run_append_eq_some.mp ran
  rw [handler.statements_eq] at handlerRan
  obtain ⟨started, startRan, insideRan⟩ := View.run_cons_eq_some.mp handlerRan
  rw [handler.step_start] at startRan
  obtain ⟨prepared, prepareRan, acted⟩ := Option.bind_eq_some_iff.mp startRan
  rw [View.prepare, if_pos pending] at prepareRan
  obtain rfl := Option.some.inj prepareRan
  obtain ⟨_, startDepth⟩ := View.settled_of_act acted
  have inner : View.depth { before with closing? := none } = before.names.length := rfl
  have outer : before.depth = before.names.length - 1 := by simp [View.depth, pending]
  have first := handlerBrings insideRan
  have rest := othersBrings first.closing othersRan
  have firstDepth := first.depth
  have restDepth := rest.depth
  refine ⟨rest.closing, by omega, ?_⟩
  rintro level base block place clauses current rfl start stop ended
  have named : (base.handled name clauses current).names.length = base.names.length + 1 := rfl
  have begun : started =
      base.inBlock name (handler.openBlock block place.mark) place.mark (clauses ++ [current]) := by
    rw [← ended]
    exact Option.some.inj (acted.symm.trans (handler.act_next start stop))
  have firstHandled := first.handled (by omega) block place begun
  obtain ⟨more, last, rfl, lastEnd, same⟩ :=
    rest.handled (by omega) block (place.behind (handler.statements name)) firstHandled
      (handler.clause_tryStart ..) (handler.clause_tryEnd ..) (handler.mark_behind ..).symm
  refine ⟨more, last, rfl, ?_, ?_⟩
  · rw [lastEnd, Place.behind_behind]
    rfl
  · rw [same, Handlers.handled]
    simp

/-- A block up to the start of its first handler.  No handler of another block that is pending goes
on there, or a block would be left open. -/
theorem starts_block {guarded between : Program} {first : Handler} {others : Handlers}
    {opened guardedEnd unguarded ready started : View}
    (openRan : before.step (.tryStart name) = some opened)
    (guardedBrings : guarded.Brings opened guardedEnd)
    (endRan : guardedEnd.step (.tryEnd name) = some unguarded)
    (betweenBrings : between.Brings unguarded ready)
    (startRan : ready.step (first.start name) = some started) :
    before.depth + 1 ≤ started.depth ∧
      (started.depth = before.depth + 1 → ∀ {base : View} (place : Place),
        before.flush = some base → base.here = place.mark →
          let block := Extent.of name guarded between first others place
          started = base.inBlock name (first.openBlock block block.handlers.mark)
            block.handlers.mark ((guarded.handled block.opened ++
              between.handled block.unguarded).map Handled.clause)) := by
  rw [first.step_start] at startRan
  obtain ⟨prepared, prepareRan, acted⟩ := Option.bind_eq_some_iff.mp startRan
  obtain ⟨flushed, endRan, expectRan⟩ := Option.bind_eq_some_iff.mp endRan
  obtain ⟨rfl, _⟩ := View.eq_of_expect expectRan
  obtain ⟨base, baseRan, rfl⟩ := View.tryStart_eq_some openRan
  obtain ⟨settled, baseDepth⟩ := settled_of_flush baseRan
  obtain ⟨_, endDepth⟩ := settled_of_flush endRan
  obtain ⟨_, prepareDepth, unprepared⟩ := View.prepare_eq_some prepareRan
  obtain ⟨_, startDepth⟩ := View.settled_of_act acted
  have openDepth : View.depth (base.inBlock name ⟨base.here, none, none⟩ base.here []) =
      base.depth + 1 := View.depth_inBlock settled _ _ _
  have guardedDepth := guardedBrings.depth
  have betweenDepth := betweenBrings.depth
  -- A handler that goes on with a pending block opens that again, which is one block too many.
  refine ⟨by omega, fun level otherBase place sameRan here => ?_⟩
  intro block
  obtain rfl := Option.some.inj (baseRan.symm.trans sameRan)
  have guardedFlushed := guardedBrings.flushed (by omega) block.opened (flush_of_settled rfl) here
  rw [View.reach_inBlock, List.nil_append, here] at guardedFlushed
  obtain rfl := Option.some.inj (endRan.symm.trans guardedFlushed)
  have betweenFlushed := betweenBrings.flushed (by omega) block.unguarded (flush_of_settled rfl) rfl
  rw [View.reach_inBlock, ← List.map_append] at betweenFlushed
  obtain rfl := Option.some.inj ((unprepared (by omega) (by omega)).symm.trans betweenFlushed)
  exact Option.some.inj (acted.symm.trans (first.act_first block _))

/-- A block opens, and as often as its handlers start they end, the last one with the block. -/
theorem brings_block {guarded between rest : Program} {first : Handler} {others : Handlers}
    (guardedBrings : guarded.RunsBring)
    (betweenBrings : between.RunsBring)
    (firstBrings : first.RunsBring name)
    (othersBrings : others.RunsBring name)
    (restBrings : rest.RunsBring)
    (ran : before.run (Program.block name guarded between first others rest).statements =
      some after) :
    (Program.block name guarded between first others rest).Brings before after := by
  obtain ⟨behind, ran, restRan⟩ := View.run_append_eq_some.mp ran
  obtain ⟨once, ran, othersRan⟩ := View.run_append_eq_some.mp ran
  obtain ⟨ready, ran, firstRan⟩ := View.run_append_eq_some.mp ran
  obtain ⟨guardedEnd, ran, betweenRan⟩ := View.run_append_eq_some.mp ran
  obtain ⟨opened, openRan, guardedRan⟩ := View.run_cons_eq_some.mp ran
  obtain ⟨unguarded, endRan, betweenRan⟩ := View.run_cons_eq_some.mp betweenRan
  rw [first.statements_eq] at firstRan
  obtain ⟨started, startRan, insideRan⟩ := View.run_cons_eq_some.mp firstRan
  obtain ⟨startDepth, begun⟩ := starts_block openRan (guardedBrings guardedRan) endRan
    (betweenBrings betweenRan) startRan
  have firstOut := firstBrings insideRan
  have firstDepth := firstOut.depth
  have othersOut := othersBrings firstOut.closing othersRan
  have othersDepth := othersOut.depth
  have restOut := restBrings restRan
  have restDepth := restOut.depth
  -- Only a handler ends lower than it starts, and by one block: if the end is level, so are all
  -- parts.
  refine ⟨by omega, fun level base place baseRan here => ?_⟩
  obtain ⟨settled, _⟩ := settled_of_flush baseRan
  let block := Extent.of name guarded between first others place
  have firstHandled := firstOut.handled (by omega) block block.handlers
    (begun (by omega) place baseRan here)
  obtain ⟨more, last, rfl, lastEnd, same⟩ := othersOut.handled (by omega) block block.later
    firstHandled (first.clause_tryStart ..) (first.clause_tryEnd ..) (first.mark_behind ..).symm
  have restFlushed := restOut.flushed (by omega) block.closes
    (View.flush_handled settled more last) lastEnd
  rw [View.reach_reach, same, Extent.closes_behind] at restFlushed
  rw [restFlushed, Program.handled]
  simp [block]

end Runs

mutual

theorem Program.brings : ∀ program : Program, program.RunsBring
  | .done => fun ran => by
      cases ran
      exact brings_done
  | .code _ isCode rest => brings_code isCode rest.brings
  | .block _ guarded between first others rest =>
      brings_block guarded.brings between.brings first.brings others.brings rest.brings

theorem Handler.brings : ∀ (handler : Handler) {name : String}, handler.RunsBring name
  | .plain _ body, _ => brings_plain body.brings
  | .filtered test body, _ => brings_filtered test.brings body.brings

theorem Handlers.brings : ∀ (handlers : Handlers) {name : String}, handlers.RunsBring name
  | .none, _ => fun pending ran => by
      cases ran
      exact brings_none pending
  | .next handler others, _ => brings_next handler.brings others.brings

end

end Assembler

end Cil
