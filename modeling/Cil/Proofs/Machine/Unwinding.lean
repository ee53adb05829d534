import Cil.Machine.Thread
import Cil.Proofs.Machine.Running

/-!
# Where exceptions that escape from handlers are handled

An exception that escapes from a finally or fault handler is dispatched again from the start of
that handler.  The clauses that then run or receive it guard the whole handler, with one kind
of exception: a guarded range within the handler that begins with it guards its start, too.

To speak about what happens on the way, unwinding is carried out once more with a log of its
events, which changes nothing about its result.
-/

namespace Cil

namespace Clause

/-- The guarded range, the handler and the filter of a clause, from start to stop. -/
def ranges (clause : Clause) : List (Nat × Nat) :=
  [(clause.tryOffset, clause.tryEnd), (clause.handlerOffset, clause.handlerEnd)] ++
    if clause.kind = .filterClause then [(clause.filterOffset, clause.handlerOffset)] else []

/-- Any two ranges are apart, or one of them lies within the other. -/
def Nest (clauses : List Clause) : Prop :=
  ∀ first ∈ clauses.flatMap ranges, ∀ second ∈ clauses.flatMap ranges,
    (first.2 ≤ second.1 ∨ second.2 ≤ first.1) ∨ (first.1 ≤ second.1 ∧ second.2 ≤ first.2) ∨
      (second.1 ≤ first.1 ∧ first.2 ≤ second.2)

instance (clauses : List Clause) : Decidable (Nest clauses) :=
  inferInstanceAs (Decidable (∀ _ ∈ clauses.flatMap ranges, ∀ _ ∈ clauses.flatMap ranges,
    _ ∨ _ ∨ _))

/-- The guarded range encloses the whole handler of another clause. -/
def Encloses (clause handler : Clause) : Prop :=
  clause.tryOffset ≤ handler.handlerOffset ∧ handler.handlerEnd ≤ clause.tryEnd

/-- The guarded range begins with the handler of another clause and ends within it. -/
def BeginsInside (clause handler : Clause) : Prop :=
  clause.tryOffset = handler.handlerOffset ∧ clause.tryEnd < handler.handlerEnd

instance (clause handler : Clause) : Decidable (clause.Encloses handler) :=
  inferInstanceAs (Decidable (_ ∧ _))

instance (clause handler : Clause) : Decidable (clause.BeginsInside handler) :=
  inferInstanceAs (Decidable (_ ∧ _))

/-- A clause that guards the start of a handler encloses the handler, unless it begins there
and ends inside. -/
theorem Nest.encloses_iff {clauses : List Clause} (nest : Nest clauses) {clause handler : Clause}
    (member : clause ∈ clauses) (isHandler : handler ∈ clauses)
    (covers : clause.covers (positionOf handler.handlerOffset)) :
    clause.Encloses handler ↔ ¬ clause.BeginsInside handler := by
  have nests := nest _ (List.mem_flatMap.mpr ⟨clause, member, List.mem_cons_self ..⟩) _
    (List.mem_flatMap.mpr ⟨handler, isHandler, List.mem_cons_of_mem _ (List.mem_cons_self ..)⟩)
  obtain ⟨starts, ends⟩ := Bool.and_eq_true_iff.mp covers
  have starts := of_decide_eq_true starts
  have ends := of_decide_eq_true ends
  unfold positionOf at starts ends
  have inside : clause.tryEnd ≤ lastOffset := Nat.min_le_right ..
  have stop : handler.handlerEnd ≤ handler.handlerOffset + handler.handlerLength :=
    Nat.min_le_left ..
  unfold Encloses BeginsInside
  omega

end Clause

/-! ## Events -/

/-- What happens while execution unwinds. -/
inductive UnwindingEvent
  | runs (clause : Clause)
  | escapes (clause : Clause) (exception : HeapRef)
  | receives (clause : Clause) (exception : HeapRef)
deriving DecidableEq

namespace UnwindingEvent

/-- The events after an escape from a handler, up to the next one, are about clauses that are
related to that handler. -/
def Confined (allowed : (handler clause : Clause) → Prop) :
    (escaped? : Option Clause) → List UnwindingEvent → Prop
  | _, [] => True
  | _, escapes handler _ :: rest => Confined allowed (some handler) rest
  | escaped?, runs clause :: rest | escaped?, receives clause _ :: rest =>
      (∀ handler ∈ escaped?, allowed handler clause) ∧ Confined allowed escaped? rest

end UnwindingEvent

namespace Exec

open UnwindingEvent

variable (runBlock : BlockRunner) (context : Context)

/-- Events with the result that they lead to. -/
abbrev Log (α : Type) := List UnwindingEvent × EStateM.Result Error Machine α

def handlersLog : List Clause → Machine → Log (Option Raised)
  | [], machine => ([], .ok none machine)
  | clause :: rest, machine =>
    match catchThrown (runHandler runBlock clause) context machine with
    | .ok (.ok ()) machine =>
      let (events, result) := handlersLog rest machine
      (runs clause :: events, result)
    | .ok (.error exception) machine =>
      ([runs clause, escapes clause exception],
        .ok (some ⟨clause.handlerOffset, exception⟩) machine)
    | .error error machine => ([runs clause], .error error machine)

def blockRunner (run : Runner) (code : MethodCode) (scope : Scope) (frame rounds : Nat) :
    BlockRunner := fun block stack => do
  execute run code scope frame rounds (some block) (← position code block.start) none stack

/-- The clauses that guard the position of an exception, and the first one that accepts it. -/
def choose (clauses : List Clause) (block? : Option Block) (raised : Raised) :
    Exec (List (Clause × Nat) × Option (Clause × Nat)) := do
  let type ← readHeap (·.typeOf raised.exception)
  let guarding := Clause.guarding clauses block? (Clause.positionOf raised.offset)
  return (guarding, ← select? runBlock type raised.exception guarding)

/-- Dispatches an exception with a log. -/
def dispatchLog (clauses : List Clause) (frame : Nat) (block? : Option Block) :
    (rounds : Nat) → Raised → Machine → Log Raised
  | 0, _, machine => ([], .error .outOfFuel machine)
  | rounds + 1, raised, machine =>
    match choose runBlock clauses block? raised context machine with
    | .error error machine => ([], .error error machine)
    | .ok (guarding, selected?) machine =>
      let (events, result) :=
        handlersLog runBlock context (Clause.unwound guarding selected?) machine
      match result, selected? with
      | .error error machine, _ => (events, .error error machine)
      | .ok (some replacement) machine, _ =>
        let (more, result) := dispatchLog clauses frame block? rounds replacement machine
        (events ++ more, result)
      | .ok none machine, some (clause, index) =>
        (events ++ [receives clause raised.exception],
          (do
            remember frame index raised.exception
            return ⟨clause.handlerOffset, raised.exception⟩ : Exec Raised) context machine)
      | .ok none machine, none => (events, .error (.thrown raised.exception) machine)

/-- Goes on where an exception is handled. -/
def goToHandler (code : MethodCode) :
    EStateM.Result Error Machine Raised → EStateM.Result Error Machine Continuation
  | .ok handled machine =>
    goTo code handled.offset [.object handled.exception] context machine
  | .error error machine => .error error machine

/-- Follows an effect with a log. -/
def followLog (code : MethodCode) (frame : Nat) (block? : Option Block)
    (rounds index offset : Nat) (effect : Effect) (machine : Machine) : Log Continuation :=
  match effect with
  | .thrown exception =>
    let (events, result) := dispatchLog runBlock context code.clauses frame block? rounds
      ⟨offset, exception⟩ machine
    (events, goToHandler context code result)
  | .leave target =>
    let origin := Clause.positionOf offset
    let stop := Clause.positionOf target
    let (events, result) :=
      handlersLog runBlock context (Clause.left code.clauses block? origin stop) machine
    match result with
    | .ok (some raised) machine =>
      let (more, result) :=
        dispatchLog runBlock context code.clauses frame block? rounds raised machine
      (events ++ more, goToHandler context code result)
    | .ok none machine =>
      (events, (do forget code.clauses frame origin stop; goTo code target []) context machine)
    | .error error machine => (events, .error error machine)
  | other => ([], follow runBlock code frame block? rounds index offset other context machine)

/-! ## The log changes nothing -/

section Erasure

variable {runBlock : BlockRunner} {context : Context}

theorem handlersLog_snd (handlers : List Clause) (machine : Machine) :
    (handlersLog runBlock context handlers machine).2 =
      runHandlers runBlock handlers context machine := by
  induction handlers generalizing machine with
  | nil => rfl
  | cons clause rest ih =>
      unfold handlersLog runHandlers
      rw [bind_run]
      rcases catchThrown (runHandler runBlock clause) context machine with
        ⟨_ | _, middle⟩ | ⟨error, middle⟩
      · rfl
      · exact ih middle
      · rfl

theorem dispatch_succ (clauses : List Clause) (frame : Nat) (block? : Option Block)
    (rounds : Nat) (raised : Raised) (machine : Machine) :
    dispatch runBlock clauses frame block? (rounds + 1) raised context machine =
      (do
        let (guarding, selected?) ← choose runBlock clauses block? raised
        match ← runHandlers runBlock (Clause.unwound guarding selected?) with
        | some replacement => dispatch runBlock clauses frame block? rounds replacement
        | none =>
          match selected? with
          | some (clause, index) =>
            remember frame index raised.exception
            return ⟨clause.handlerOffset, raised.exception⟩
          | none => throw (.thrown raised.exception) : Exec Raised) context machine := by
  rw [dispatch, choose]
  simp only [bind_run]
  rcases readHeap (·.typeOf raised.exception) context machine with
    ⟨type, middle⟩ | ⟨error, middle⟩
  · dsimp only
    rcases select? runBlock type raised.exception _ context middle with
      ⟨selected?, final⟩ | ⟨error, final⟩
    · rfl
    · rfl
  · rfl

theorem dispatchLog_snd (clauses : List Clause) (frame : Nat) (block? : Option Block)
    (rounds : Nat) (raised : Raised) (machine : Machine) :
    (dispatchLog runBlock context clauses frame block? rounds raised machine).2 =
      dispatch runBlock clauses frame block? rounds raised context machine := by
  induction rounds generalizing raised machine with
  | zero => rfl
  | succ rounds ih =>
      rw [dispatch_succ, bind_run, dispatchLog]
      rcases choose runBlock clauses block? raised context machine with
        ⟨⟨guarding, selected?⟩, middle⟩ | ⟨error, middle⟩
      · dsimp only
        rw [bind_run, ← handlersLog_snd]
        rcases handlersLog runBlock context (Clause.unwound guarding selected?) middle with
          ⟨events, ⟨_ | replacement, final⟩ | ⟨error, final⟩⟩
        · cases selected? <;> rfl
        · exact ih replacement final
        · rfl
      · rfl

theorem followLog_snd (code : MethodCode) (frame : Nat) (block? : Option Block)
    (rounds index offset : Nat) (effect : Effect) (machine : Machine) :
    (followLog runBlock context code frame block? rounds index offset effect machine).2 =
      follow runBlock code frame block? rounds index offset effect context machine := by
  have handled (raised : Raised) (machine : Machine) :
      goToHandler context code (dispatchLog runBlock context code.clauses frame block? rounds
        raised machine).2 = handle runBlock code frame block? rounds raised context machine := by
    rw [dispatchLog_snd, handle, bind_run]
    cases dispatch runBlock code.clauses frame block? rounds raised context machine <;> rfl
  cases effect with
  | thrown exception => exact handled _ machine
  | leave target =>
      rw [followLog, follow, bind_run, leave, bind_run, ← handlersLog_snd]
      dsimp only
      rcases handlersLog runBlock context (Clause.left code.clauses block?
        (Clause.positionOf offset) (Clause.positionOf target)) machine with
          ⟨events, ⟨_ | raised, final⟩ | ⟨error, final⟩⟩
      · dsimp only
        rw [bind_run, bind_run]
        cases forget code.clauses frame _ _ context final <;> rfl
      · exact handled raised final
      · rfl
  | _ => rfl

end Erasure

end Exec

/-! ## Events after an escape -/

namespace UnwindingEvent

variable {allowed : (handler clause : Clause) → Prop} {escaped? : Option Clause}

/-- The handler of the last escape. -/
def escapedAfter : (escaped? : Option Clause) → List UnwindingEvent → Option Clause
  | escaped?, [] => escaped?
  | _, escapes handler _ :: rest => escapedAfter (some handler) rest
  | escaped?, runs _ :: rest | escaped?, receives _ _ :: rest => escapedAfter escaped? rest

theorem confined_append {first second : List UnwindingEvent} :
    Confined allowed escaped? (first ++ second) ↔
      Confined allowed escaped? first ∧ Confined allowed (escapedAfter escaped? first) second := by
  induction first generalizing escaped? with
  | nil => simp [Confined, escapedAfter]
  | cons event first ih => cases event <;> simp [Confined, escapedAfter, ih, and_assoc]

end UnwindingEvent

namespace Exec

open UnwindingEvent

variable {allowed : (handler clause : Clause) → Prop} {escaped? : Option Clause}
  {runBlock : BlockRunner} {context : Context} {machine final : Machine}
  {events : List UnwindingEvent}

theorem confined_handlersLog {handlers : List Clause}
    (each : ∀ clause ∈ handlers, ∀ handler ∈ escaped?, allowed handler clause) :
    Confined allowed escaped? (handlersLog runBlock context handlers machine).1 := by
  induction handlers generalizing machine with
  | nil => trivial
  | cons clause rest ih =>
      obtain ⟨first, others⟩ := List.forall_mem_cons.mp each
      unfold handlersLog
      rcases catchThrown (runHandler runBlock clause) context machine with
        ⟨_ | _, middle⟩ | ⟨error, middle⟩
      · exact ⟨first, trivial⟩
      · exact ⟨first, ih others⟩
      · exact ⟨first, trivial⟩

/-- After an escape the exception is dispatched from the start of the handler. -/
theorem escapedAfter_handlersLog {handlers : List Clause} {raised? : Option Raised}
    (log : handlersLog runBlock context handlers machine = (events, .ok raised? final)) :
    match raised? with
    | none => escapedAfter escaped? events = escaped?
    | some raised => ∃ handler ∈ handlers, escapedAfter escaped? events = some handler ∧
        raised.offset = handler.handlerOffset := by
  induction handlers generalizing machine events with
  | nil =>
      cases log
      rfl
  | cons clause rest ih =>
      unfold handlersLog at log
      split at log
      · obtain ⟨rfl, rest⟩ := Prod.mk.inj log
        have later := ih (Prod.ext rfl rest)
        cases raised? with
        | none => exact later
        | some raised =>
            obtain ⟨handler, member, escaped, offset⟩ := later
            exact ⟨handler, List.mem_cons_of_mem _ member, escaped, offset⟩
      · cases log
        exact ⟨clause, List.mem_cons_self .., rfl, rfl⟩
      · cases log

theorem mem_of_select? {type : Token} {exception : HeapRef} {candidates : List (Clause × Nat)}
    {selected : Clause × Nat}
    (ran : select? runBlock type exception candidates context machine =
      .ok (some selected) final) : selected ∈ candidates := by
  induction candidates generalizing machine with
  | nil => cases ran
  | cons candidate rest ih =>
      rw [select?, bind_run] at ran
      split at ran
      · split at ran
        · cases ran
          exact List.mem_cons_self ..
        · exact List.mem_cons_of_mem _ (ih ran)
      · cases ran

/-- The clauses that take part in dispatching guard the position of the exception. -/
theorem covers_of_choose {clauses : List Clause} {block? : Option Block} {raised : Raised}
    {guarding : List (Clause × Nat)} {selected? : Option (Clause × Nat)}
    (chosen : choose runBlock clauses block? raised context machine =
      .ok (guarding, selected?) final) :
    (∀ candidate ∈ guarding, candidate.1 ∈ clauses ∧
      candidate.1.covers (Clause.positionOf raised.offset)) ∧
      ∀ selected ∈ selected?, selected ∈ guarding := by
  rw [choose, bind_run] at chosen
  split at chosen
  · rw [bind_run] at chosen
    split at chosen
    · rename_i found
      cases chosen
      refine ⟨fun candidate member => ?_, fun selected isSelected => ?_⟩
      · obtain ⟨listed, guards⟩ := List.mem_filter.mp member
        exact ⟨List.fst_mem_of_mem_zipIdx listed, (Bool.and_eq_true_iff.mp guards).1⟩
      · cases isSelected
        exact mem_of_select? found
    · cases chosen
  · cases chosen

theorem mem_of_mem_unwound {guarding : List (Clause × Nat)} {selected? : Option (Clause × Nat)}
    {clause : Clause} (member : clause ∈ Clause.unwound guarding selected?) :
    ∃ index, (clause, index) ∈ guarding := by
  obtain ⟨⟨_, index⟩, unwound, rfl⟩ := List.mem_map.mp member
  exact ⟨index, (List.mem_filter.mp unwound).1⟩

/-- Dispatching an exception that escaped from a handler is confined to what is allowed for
the clauses that guard the start of the handler. -/
theorem confined_dispatchLog {clauses : List Clause}
    (allows : ∀ clause ∈ clauses, ∀ handler ∈ clauses,
      clause.covers (Clause.positionOf handler.handlerOffset) → allowed handler clause)
    {frame rounds : Nat} {block? : Option Block} {raised : Raised}
    (escaped : ∀ handler ∈ escaped?, handler ∈ clauses ∧
      raised.offset = handler.handlerOffset) :
    Confined allowed escaped?
      (dispatchLog runBlock context clauses frame block? rounds raised machine).1 := by
  -- The escape that the events follow changes from round to round and is generalized with them.
  induction rounds generalizing escaped? raised machine with
  | zero => trivial
  | succ rounds ih =>
      unfold dispatchLog
      split
      · trivial
      rename_i guarding selected? middle chosen
      obtain ⟨guards, selects⟩ := covers_of_choose chosen
      have each (candidate : Clause × Nat) (member : candidate ∈ guarding) :
          ∀ handler ∈ escaped?, allowed handler candidate.1 := by
        intro handler isHandler
        obtain ⟨listed, offset⟩ := escaped handler isHandler
        obtain ⟨isClause, covers⟩ := guards candidate member
        rw [offset] at covers
        exact allows candidate.1 isClause handler listed covers
      have eachUnwound : ∀ clause ∈ Clause.unwound guarding selected?,
          ∀ handler ∈ escaped?, allowed handler clause := by
        intro clause member
        obtain ⟨index, listed⟩ := mem_of_mem_unwound member
        exact each _ listed
      have confined : Confined allowed escaped?
          (handlersLog runBlock context (Clause.unwound guarding selected?) middle).1 :=
        confined_handlersLog eachUnwound
      rcases logged : handlersLog runBlock context (Clause.unwound guarding selected?) middle with
        ⟨events, ⟨_ | replacement, final⟩ | ⟨error, final⟩⟩
      · rw [logged] at confined
        cases selected? with
        | none => exact confined
        | some selected =>
            refine confined_append.mpr ⟨confined, ?_, trivial⟩
            rw [escapedAfter_handlersLog logged]
            exact each selected (selects selected rfl)
      -- A handler was left by an exception: the next round starts at that handler.
      · rw [logged] at confined
        obtain ⟨handler, member, escapes, offset⟩ := escapedAfter_handlersLog logged
        obtain ⟨index, listed⟩ := mem_of_mem_unwound member
        refine confined_append.mpr ⟨confined, ih ?_⟩
        rw [escapes]
        rintro _ ⟨⟩
        exact ⟨(guards _ listed).1, offset⟩
      · rw [logged] at confined
        exact confined

/-- Where regions nest, the clauses that run or receive an exception that escaped from a handler
enclose the handler, but for those that begin with the handler and end inside. -/
theorem followed_escapes_confined {code : MethodCode} (nest : Clause.Nest code.clauses)
    (runBlock : BlockRunner) (context : Context) (frame : Nat) (block? : Option Block)
    (rounds index offset : Nat) (effect : Effect) (machine : Machine) :
    let log := followLog runBlock context code frame block? rounds index offset effect machine
    log.2 = follow runBlock code frame block? rounds index offset effect context machine ∧
      Confined (fun handler clause => clause.Encloses handler ↔ ¬ clause.BeginsInside handler)
        none log.1 := by
  refine ⟨followLog_snd .., ?_⟩
  have allows : ∀ clause ∈ code.clauses, ∀ handler ∈ code.clauses,
      clause.covers (Clause.positionOf handler.handlerOffset) →
        (clause.Encloses handler ↔ ¬ clause.BeginsInside handler) :=
    fun clause member handler isHandler covers => nest.encloses_iff member isHandler covers
  cases effect with
  | thrown exception => exact confined_dispatchLog allows nofun
  | leave target =>
      have confined {handlers : List Clause} :
          Confined (fun handler clause => clause.Encloses handler ↔ ¬ clause.BeginsInside handler)
            none (handlersLog runBlock context handlers machine).1 :=
        confined_handlersLog nofun
      rw [followLog]
      dsimp only
      rcases logged : handlersLog runBlock context (Clause.left code.clauses block?
        (Clause.positionOf offset) (Clause.positionOf target)) machine with
          ⟨events, ⟨_ | raised, final⟩ | ⟨error, final⟩⟩
      · exact congrArg Prod.fst logged ▸ confined
      · obtain ⟨handler, member, escapes, offset⟩ := escapedAfter_handlersLog logged
        refine confined_append.mpr ⟨congrArg Prod.fst logged ▸ confined,
          confined_dispatchLog allows ?_⟩
        rw [escapes]
        rintro _ ⟨⟩
        exact ⟨(List.mem_filter.mp member).1, offset⟩
      · exact congrArg Prod.fst logged ▸ confined
  | _ => trivial

end Exec

/-! ## A finally handler that throws -/

namespace Throwing

open UnwindingEvent

def bytes (idle : Nat) : List UInt8 :=
  [0xDE, UInt8.ofNat (10 + idle)] ++ List.replicate idle 0x00 ++
    [0xDE, 0x03, 0x26, 0xDE, 0x00, 0x14, 0x7A, 0x26, 0xDE, 0x00, 0x2A]

def inner (idle : Nat) : Clause :=
  ⟨.exception, 2 + idle, 2, 4 + idle, 3, some Core.object, 0⟩

def cleanUp (idle : Nat) : Clause :=
  ⟨.finallyBlock, 0, 2, 2, 7 + idle, none, 0⟩

def outer (idle : Nat) : Clause :=
  ⟨.exception, 0, 9 + idle, 9 + idle, 3, some Core.object, 0⟩

def code (idle : Nat) : MethodCode :=
  ((MethodCode.ofBytes (bytes idle) [] [inner idle, cleanUp idle, outer idle] 8
    true).toOption).getD default

theorem code_decoded (idle : Nat) (decodes : (MethodCode.ofBytes (bytes idle) []
    [inner idle, cleanUp idle, outer idle] 8 true).toOption.isSome) :
    MethodCode.ofBytes (bytes idle) [] [inner idle, cleanUp idle, outer idle] 8 true =
      .ok (code idle) := by
  unfold code
  cases read : MethodCode.ofBytes (bytes idle) [] [inner idle, cleanUp idle, outer idle] 8 true with
  | error error => rw [read] at decodes; cases decodes
  | ok code => rfl

def context : Context := ⟨Module.initial, .standard⟩

def machine : Machine :=
  { Machine.ofModule Module.initial .standard with
    frames := #[{ arguments := #[], locals := #[] }] }

def events (idle : Nat) : List UnwindingEvent :=
  (Exec.followLog (Exec.blockRunner (Exec.activate 1) (code idle) {} 0 10) context (code idle) 0
    none 10 0 0 (.leave (12 + idle)) machine).1

/-- Behind an idle instruction the inner range does not guard the start of the handler. -/
theorem outer_receives : events 1 =
      [runs (cleanUp 1), escapes (cleanUp 1) ⟨1⟩, receives (outer 1) ⟨1⟩] ∧
    (outer 1).Encloses (cleanUp 1) := by
  have happened : events 1 =
      [runs (cleanUp 1), escapes (cleanUp 1) ⟨1⟩, receives (outer 1) ⟨1⟩] := by
    decide +kernel
  have nest : Clause.Nest (code 1).clauses := by decide +kernel
  have confined := (Exec.followed_escapes_confined nest
    (Exec.blockRunner (Exec.activate 1) (code 1) {} 0 10) context 0 none 10 0 0 (.leave 13)
    machine).2
  have confined : Confined (fun handler clause =>
      clause.Encloses handler ↔ ¬ clause.BeginsInside handler) none (events 1) := confined
  rw [happened] at confined
  exact ⟨happened, (confined.2.1 _ rfl).mpr (by decide +kernel)⟩

/-- A guarded range that begins with the handler receives the exception that escaped from it. -/
theorem inner_receives :
    ¬ ∀ (bytes : List UInt8) (locals : List LocalVariable) (clauses : List Clause)
      (maxStack : Nat) (initLocals : Bool) (code : MethodCode),
      MethodCode.ofBytes bytes locals clauses maxStack initLocals = .ok code →
      Clause.Nest code.clauses →
      ∀ (run : Runner) (scope : Scope) (context : Context) (frame : Nat) (block? : Option Block)
        (rounds index offset : Nat) (effect : Effect) (machine : Machine),
        Confined (fun handler clause => clause.Encloses handler) none
          (Exec.followLog (Exec.blockRunner run code scope frame rounds) context code frame block?
            rounds index offset effect machine).1 := by
  intro confined
  have confined : Confined (fun handler clause => clause.Encloses handler) none (events 0) :=
    confined _ _ _ _ _ _ (code_decoded 0 (by decide +kernel)) (by decide +kernel)
      _ _ _ _ _ _ _ _ _ _
  have happened : events 0 =
      [runs (cleanUp 0), escapes (cleanUp 0) ⟨1⟩, receives (inner 0) ⟨1⟩] := by
    decide +kernel
  rw [happened] at confined
  exact absurd (confined.2.1 _ rfl) (by decide +kernel)

end Throwing

end Cil
