import Cil.Proofs.Machine.HandlerEntries
import Cil.Proofs.Machine.Transfers

/-!
# Runs and the handlers that they are in

Execution of code whose clauses nest and whose handlers are entered by dispatch only: wherever it
comes, something has been delivered to every handler that receives exceptions and that control is
in.  This holds for a whole run because it holds from instruction to instruction, by induction on
the rounds that are left, for the run itself and for the blocks that it executes on the way.
-/

namespace Cil

open Stateful

namespace HandlerEvent

variable {clauses : List Clause} {block? : Option Block} {begun events : List HandlerEvent}
  {position : Nat}

/-- Whenever an instruction looks for an exception to rethrow, something has been delivered to
every handler around it. -/
abbrev Sound (clauses : List Clause) : List HandlerEvent → Prop :=
  EachRethrow fun position _ earlier => Current clauses earlier position

/-- What has happened in an execution that may be restricted to a block, since it began. -/
structure Extends (clauses : List Clause) (block? : Option Block)
    (begun events : List HandlerEvent) : Prop where
  recent : ∃ recent, events = recent ++ begun ∧ ∀ event ∈ recent, event.Permitted clauses block?
  sound : Sound clauses events

theorem Extends.refl (sound : Sound clauses events) : Extends clauses block? events events :=
  ⟨⟨[], rfl, by simp⟩, sound⟩

theorem Extends.trans {inner? : Option Block} {middle final : List HandlerEvent}
    (before : Extends clauses block? begun middle) (after : Extends clauses inner? middle final)
    (narrows : Block.Narrows inner? block?) : Extends clauses block? begun final := by
  obtain ⟨early, rfl, first⟩ := before.recent
  obtain ⟨late, rfl, second⟩ := after.recent
  refine ⟨⟨late ++ early, (List.append_assoc ..).symm, fun event isEvent => ?_⟩, after.sound⟩
  rcases List.mem_append.mp isEvent with isLate | isEarly
  · exact (second event isLate).widen narrows
  · exact first event isEarly

theorem Extends.cons {event : HandlerEvent} (before : Extends clauses block? begun events)
    (permitted : event.Permitted clauses block?)
    (sound : ∀ position caught?, event = rethrows position caught? →
      Current clauses events position) :
    Extends clauses block? begun (event :: events) := by
  have noted : Extends clauses block? events (event :: events) :=
    ⟨⟨[event], rfl, List.forall_mem_singleton.mpr permitted⟩,
      eachRethrow_cons.mpr ⟨sound, before.sound⟩⟩
  exact before.trans noted (.refl _)

/-- An execution has come to a position. -/
structure Stands (clauses : List Clause) (block? : Option Block) (begun : List HandlerEvent)
    (position : Nat) (events : List HandlerEvent) : Prop where
  since : Extends clauses block? begun events
  current : Current clauses events position

/-- An exception that escapes from the handler of a clause is dispatched from its start. -/
theorem Stands.at_handler {code : MethodCode} (entered : code.EnteredByDispatch) {clause : Clause}
    (member : clause ∈ code.clauses) (covers : clause.covers position)
    (termination : clause.isTermination) {raised : Raised}
    (offset : raised.offset = clause.handlerOffset)
    (stands : Stands code.clauses block? begun position events) :
    Stands code.clauses block? begun (Clause.positionOf raised.offset) events := by
  rw [offset]
  exact ⟨stands.since,
    stands.current.move (entered.noEntry_termination member covers termination)⟩

end HandlerEvent

namespace Traced

open Clause HandlerEvent

variable {α β : Type}

/-- From records with one property, a piece of execution leads to records with another one, or it
fails with records of a third one. -/
def Leads (failed before : List HandlerEvent → Prop) (action : Traced α)
    (after : α → List HandlerEvent → Prop) : Prop :=
  ∀ context state, before state.2 →
    match action context state with
    | .ok value final => after value final.2
    | .error _ final => failed final.2

namespace Leads

variable {failed before : List HandlerEvent → Prop} {after : α → List HandlerEvent → Prop}

theorem bind {first : Traced α} {next : α → Traced β} {result : β → List HandlerEvent → Prop}
    (leads : Leads failed before first after)
    (nexts : ∀ value, Leads failed (after value) (next value) result) :
    Leads failed before (first >>= next) result := by
  intro context state holds
  have middle := leads context state holds
  rw [bind_run]
  cases ran : first context state with
  | ok value between =>
      rw [ran] at middle
      exact nexts value context between middle
  | error error between =>
      rw [ran] at middle
      exact middle

theorem pure {value : α} (implies : ∀ events, before events → after value events) :
    Leads failed before (Pure.pure value) after :=
  fun _ state holds => implies state.2 holds

theorem throw {error : Error} (implies : ∀ events, before events → failed events) :
    Leads failed before (throw error : Traced α) after :=
  fun _ state holds => implies state.2 holds

theorem note {event : HandlerEvent} {after : Unit → List HandlerEvent → Prop}
    (implies : ∀ events, before events → after () (event :: events)) :
    Leads failed before (note event) after :=
  fun _ state holds => implies state.2 holds

/-- A piece of execution in which nothing happens to handlers, with what is known about its
result. -/
theorem lift_of {action : Exec α} {result : α → Prop}
    (implies : ∀ events, before events → failed events)
    (ensures : ∀ context machine value final, action context machine = .ok value final →
      result value) :
    Leads failed before (lift action) fun value events => before events ∧ result value := by
  intro context state holds
  unfold Traced.lift
  cases ran : action context state.1 with
  | ok value final => exact ⟨holds, ensures context state.1 value final ran⟩
  | error error final => exact implies state.2 holds

theorem lift {action : Exec α} (implies : ∀ events, before events → failed events) :
    Leads failed before (lift action) fun _ => before := by
  intro context state holds
  unfold Traced.lift
  cases ran : action context state.1 with
  | ok value final => exact holds
  | error error final => exact implies state.2 holds

/-- What is known besides the record is known throughout. -/
theorem of_and {fact : Prop} {action : Traced α}
    (leads : fact → Leads failed before action after) :
    Leads failed (fun events => before events ∧ fact) action after :=
  fun context state ⟨holds, known⟩ => leads known context state holds

theorem catchThrown {action : Traced α} (leads : Leads failed before action after) :
    Leads failed before (catchThrown action) fun
      | .ok value => after value
      | .error _ => failed := by
  intro context state holds
  have ends := leads context state holds
  unfold Traced.catchThrown
  rcases ran : action context state with ⟨value, final⟩ | ⟨error, final⟩
  · rw [ran] at ends
    exact ends
  · rw [ran] at ends
    cases error <;> exact ends

theorem starting {start : List HandlerEvent → Prop} {action : Traced α}
    (leads : Leads failed before action after) (implies : ∀ events, start events → before events) :
    Leads failed start action after :=
  fun context state holds => leads context state (implies state.2 holds)

theorem ending {result : α → List HandlerEvent → Prop} {action : Traced α}
    (leads : Leads failed before action after)
    (implies : ∀ value events, after value events → result value events) :
    Leads failed before action result := by
  intro context state holds
  have led := leads context state holds
  cases ran : action context state <;> rw [ran] at led
  · exact implies _ _ led
  · exact led

theorem failing {failure : List HandlerEvent → Prop} {action : Traced α}
    (leads : Leads failed before action after)
    (implies : ∀ events, failed events → failure events) :
    Leads failure before action after := by
  intro context state holds
  have led := leads context state holds
  cases ran : action context state <;> rw [ran] at led
  · exact led
  · exact implies _ led

end Leads

/-! ## Unwinding -/

/-- Blocks of clauses can be executed wherever something has been delivered to every handler
around their start. -/
def BlocksLead (clauses : List Clause) (runBlock : BlockRunner) : Prop :=
  ∀ block stack events, IsBlock clauses (some block) → Sound clauses events →
    Current clauses events (positionOf block.start) →
      Leads (Extends clauses (some block) events) (· = events) (runBlock block stack) fun _ =>
        Extends clauses (some block) events

section Unwinding

variable {code : MethodCode} (nested : WellNested code.clauses) (entered : code.EnteredByDispatch)
  {runBlock : BlockRunner} (blocks : BlocksLead code.clauses runBlock)
  {block? : Option Block} (isBlock : IsBlock code.clauses block?) (begun : List HandlerEvent)
  {position : Nat}

include nested entered blocks isBlock

omit entered in
/-- After a block of a clause that guards a position, what was delivered to handlers around the
position still stands, also when the block fails. -/
theorem leads_runBlock {clause : Clause} (member : clause ∈ code.clauses)
    (covers : clause.covers position) (visible : clause.isVisible block?) {block : Block}
    (inner : block ∈ clause.blocks)
    (noEntry : NoEntry code.clauses position (positionOf block.start)) (stack : List Value) :
    Leads (Stands code.clauses block? begun position) (Stands code.clauses block? begun position)
      (runBlock block stack) fun _ => Stands code.clauses block? begun position := by
  intro context state stands
  have narrows := nested.narrows isBlock member (nonempty_of_covers covers) visible inner
  have ends := blocks block stack state.2 (isBlock_some member inner) stands.since.sound
    (stands.current.move noEntry) context state rfl
  have back {final : List HandlerEvent}
      (since : Extends code.clauses (some block) state.2 final) :
      Stands code.clauses block? begun position final := by
    refine ⟨stands.since.trans since narrows, ?_⟩
    obtain ⟨recent, rfl, permitted⟩ := since.recent
    exact stands.current.after_block nested member inner covers permitted
  cases ran : runBlock block stack context state <;> rw [ran] at ends <;> exact back ends

theorem leads_accepts {clause : Clause} (member : clause ∈ code.clauses)
    (covers : clause.covers position) (visible : clause.isVisible block?) (type : Token)
    (exception : HeapRef) :
    Leads (Stands code.clauses block? begun position) (Stands code.clauses block? begun position)
      (accepts runBlock clause type exception) fun accepted events =>
        Stands code.clauses block? begun position events ∧ (accepted → clause.isReceiver) := by
  unfold accepts
  cases kind : clause.kind with
  | catchClause =>
      exact .bind (.lift fun _ => id) fun _ => .pure fun _ stands =>
        ⟨stands, fun _ => by simp [isReceiver, kind]⟩
  | filterClause =>
      have receiver : clause.isReceiver := by simp [isReceiver, kind]
      have filter : clause.filterBlock ∈ clause.blocks := by simp [Clause.blocks, kind]
      have run := leads_runBlock nested blocks isBlock begun member covers visible filter
        (entered.noEntry_filter member covers kind) [.object exception]
      refine .bind run.catchThrown fun outcome => ?_
      cases outcome with
      | error other => exact .pure fun _ stands => ⟨stands, fun no => absurd no Bool.false_ne_true⟩
      | ok exit =>
          cases exit with
          | endFilter accepted => exact .pure fun _ stands => ⟨stands, fun _ => receiver⟩
          | _ => exact .throw fun _ => id
  | finallyClause | faultClause =>
      exact .pure fun _ stands => ⟨stands, fun no => absurd no Bool.false_ne_true⟩

theorem leads_select? (type : Token) (exception : HeapRef) {candidates : List (Clause × Nat)}
    (guards : ∀ candidate ∈ candidates, candidate.1 ∈ code.clauses ∧
      candidate.1.covers position ∧ candidate.1.isVisible block?) :
    Leads (Stands code.clauses block? begun position) (Stands code.clauses block? begun position)
      (select? runBlock type exception candidates) fun selected? events =>
        Stands code.clauses block? begun position events ∧
          ∀ selected ∈ selected?, selected ∈ candidates ∧ selected.1.isReceiver := by
  induction candidates with
  | nil => exact .pure fun _ stands => ⟨stands, nofun⟩
  | cons candidate rest ih =>
      obtain ⟨⟨member, covers, visible⟩, others⟩ := List.forall_mem_cons.mp guards
      refine .bind (leads_accepts nested entered blocks isBlock begun member covers visible type
        exception) fun accepted => ?_
      split
      · rename_i isAccepted
        refine .pure fun events ⟨stands, receiver⟩ => ⟨stands, ?_⟩
        rintro _ ⟨⟩
        exact ⟨List.mem_cons_self, receiver isAccepted⟩
      · exact ((ih others).starting fun _ => And.left).ending fun _ _ ⟨stands, selects⟩ =>
          ⟨stands, fun selected isSelected =>
            (selects selected isSelected).imp_left (List.mem_cons_of_mem _)⟩

theorem leads_runHandlers {handlers : List Clause}
    (guards : ∀ clause ∈ handlers, clause ∈ code.clauses ∧ clause.covers position ∧
      clause.isVisible block? ∧ clause.isTermination) :
    Leads (Stands code.clauses block? begun position) (Stands code.clauses block? begun position)
      (runHandlers runBlock handlers) fun raised? events =>
        Stands code.clauses block? begun position events ∧
          ∀ raised ∈ raised?, ∃ clause ∈ handlers, raised.offset = clause.handlerOffset := by
  induction handlers with
  | nil => exact .pure fun _ stands => ⟨stands, nofun⟩
  | cons clause rest ih =>
      obtain ⟨⟨member, covers, visible, termination⟩, others⟩ := List.forall_mem_cons.mp guards
      have run := leads_runBlock nested blocks isBlock begun member covers visible
        clause.handlerBlock_mem_blocks (entered.noEntry_termination member covers termination) []
      have handler : Leads (Stands code.clauses block? begun position)
          (Stands code.clauses block? begun position) (runHandler runBlock clause) fun _ =>
            Stands code.clauses block? begun position := by
        refine .bind run fun exit => ?_
        cases exit with
        | endFinally => exact .pure fun _ => id
        | _ => exact .throw fun _ => id
      refine .bind handler.catchThrown fun outcome => ?_
      cases outcome with
      | ok value =>
          refine (ih others).ending fun _ _ ⟨stands, raises⟩ => ⟨stands, fun raised isRaised => ?_⟩
          obtain ⟨origin, isOrigin, offset⟩ := raises raised isRaised
          exact ⟨origin, List.mem_cons_of_mem _ isOrigin, offset⟩
      | error exception =>
          refine .pure fun events stands => ⟨stands, ?_⟩
          rintro _ ⟨⟩
          exact ⟨clause, List.mem_cons_self, rfl⟩

theorem leads_dispatch (frame rounds : Nat) (raised : Raised) :
    Leads (Extends code.clauses block? begun)
      (Stands code.clauses block? begun (positionOf raised.offset))
      (dispatch runBlock code.clauses frame block? rounds raised) fun handled =>
        Stands code.clauses block? begun (positionOf handled.offset) := by
  induction rounds generalizing raised with
  | zero => exact .throw fun _ => Stands.since
  | succ rounds ih =>
      have guards (candidate : Clause × Nat) (member : candidate ∈ Clause.guarding code.clauses
          block? (positionOf raised.offset)) :
          code.clauses[candidate.2]? = some candidate.1 ∧
            candidate.1.covers (positionOf raised.offset) ∧ candidate.1.isVisible block? := by
        obtain ⟨listed, guards⟩ := List.mem_filter.mp member
        exact ⟨List.mem_zipIdx_iff_getElem?.mp listed, Bool.and_eq_true_iff.mp guards⟩
      have select (type : Token) := leads_select? nested entered blocks isBlock begun
        type raised.exception fun candidate member =>
          have ⟨found, guards⟩ := guards candidate member
          ⟨List.mem_of_getElem? found, guards⟩
      refine .bind (.lift fun _ => Stands.since) fun type =>
        .bind ((select type).failing fun _ => Stands.since) fun selected? =>
        .of_and fun selects => ?_
      have unwinding (clause : Clause) (member : clause ∈ Clause.unwound
          (Clause.guarding code.clauses block? (positionOf raised.offset)) selected?) :
          clause ∈ code.clauses ∧ clause.covers (positionOf raised.offset) ∧
            clause.isVisible block? ∧ clause.isTermination := by
        obtain ⟨⟨_, index⟩, unwound, rfl⟩ := List.mem_map.mp member
        obtain ⟨guarding, terminates⟩ := List.mem_filter.mp unwound
        obtain ⟨found, covers, visible⟩ := guards _ guarding
        exact ⟨List.mem_of_getElem? found, covers, visible,
          (Bool.and_eq_true_iff.mp terminates).1⟩
      have run := leads_runHandlers nested entered blocks isBlock begun unwinding
      refine .bind (run.failing fun _ => Stands.since) fun replacement? => .of_and fun raises => ?_
      cases replacement? with
      | some replacement =>
          -- The next round starts at the handler that the exception has escaped from.
          obtain ⟨clause, member, offset⟩ := raises replacement rfl
          obtain ⟨isClause, covers, -, termination⟩ := unwinding clause member
          exact (ih replacement).starting fun _ =>
            Stands.at_handler entered isClause covers termination offset
      | none =>
          cases selected? with
          | none => exact .throw fun _ => Stands.since
          | some selected =>
              obtain ⟨guarding, receiver⟩ := selects selected rfl
              obtain ⟨found, covers, visible⟩ := guards selected guarding
              have receives : Receives code.clauses selected.2 selected.1 :=
                ⟨found, receiver, nonempty_of_covers covers⟩
              refine .bind (.bind (.lift fun _ => Stands.since) fun _ =>
                .note fun events stands => ?_) fun _ => .pure fun _ => id
              refine ⟨stands.since.cons ⟨selected.1, receives, visible⟩ ?_,
                stands.current.delivers nested entered receives covers raised.exception⟩
              rintro _ _ ⟨⟩

theorem leads_leave (frame : Nat) {origin target : Nat}
    (noEntry : NoEntry code.clauses (positionOf origin) (positionOf target)) :
    Leads (Extends code.clauses block? begun)
      (Stands code.clauses block? begun (positionOf origin))
      (leave runBlock code.clauses frame block? origin target) fun raised? =>
        Stands code.clauses block? begun
          (positionOf (raised?.elim target (·.offset))) := by
  have leaving (clause : Clause) (member : clause ∈ Clause.left code.clauses block?
      (positionOf origin) (positionOf target)) :
      clause ∈ code.clauses ∧ clause.covers (positionOf origin) ∧ clause.isVisible block? ∧
        clause.isTermination := by
    obtain ⟨isClause, leaves⟩ := List.mem_filter.mp member
    simp only [Bool.and_eq_true] at leaves
    obtain ⟨⟨⟨kind, covers⟩, -⟩, visible⟩ := leaves
    exact ⟨isClause, covers, visible, by simp [isTermination, eq_of_beq kind]⟩
  have run := leads_runHandlers nested entered blocks isBlock begun leaving
  refine .bind (run.failing fun _ => Stands.since) fun raised? => .of_and fun raises => ?_
  cases raised? with
  | some raised =>
      obtain ⟨clause, member, offset⟩ := raises raised rfl
      obtain ⟨isClause, covers, -, termination⟩ := leaving clause member
      exact .pure fun _ => Stands.at_handler entered isClause covers termination offset
  | none =>
      refine .bind (.bind (.lift fun _ => Stands.since) fun _ =>
        .note fun events stands => ?_) fun _ => .pure fun _ => id
      refine ⟨stands.since.cons ⟨isBlock, .refl block?⟩ ?_, stands.current.leaves block? noEntry⟩
      rintro _ _ ⟨⟩

end Unwinding

/-! ## Instructions -/

section Instructions

variable {code : MethodCode} {block? : Option Block} {begun : List HandlerEvent}
  {run : Runner} {scope : Scope} {frame : Nat}

/-- Where an execution goes on it has come to the position of an instruction. -/
def GoesOn (code : MethodCode) (block? : Option Block) (begun : List HandlerEvent)
    (continuation : Exec.Continuation) (events : List HandlerEvent) : Prop :=
  Extends code.clauses block? begun events ∧
    match continuation with
    | .goOn index _ _ => ∀ instruction, code.instructions[index]? = some instruction →
        Current code.clauses events (positionOf instruction.offset)
    | .exit _ => True

theorem offset_of_position {offset index : Nat} {context : Context} {machine final : Machine}
    (ran : Exec.position code offset context machine = .ok index final)
    {instruction : Instruction} (found : code.instructions[index]? = some instruction) :
    instruction.offset = offset := by
  unfold Exec.position at ran
  cases isPosition : code.position? offset with
  | none => rw [isPosition] at ran; cases ran
  | some place =>
      rw [isPosition] at ran
      cases ran
      obtain ⟨inside, holds, -⟩ := Array.findIdx?_eq_some_iff_getElem.mp isPosition
      rw [Array.getElem?_eq_getElem inside] at found
      cases found
      simpa using holds

theorem leads_position {offset : Nat} {failed before : List HandlerEvent → Prop}
    (implies : ∀ events, before events → failed events) :
    Leads failed before (lift (Exec.position code offset)) fun index events => before events ∧
      ∀ instruction, code.instructions[index]? = some instruction → instruction.offset = offset :=
  .lift_of implies fun _ _ _ _ ran _ => offset_of_position ran

theorem leads_goTo (offset : Nat) (stack : List Value) :
    Leads (Extends code.clauses block? begun)
      (Stands code.clauses block? begun (positionOf offset)) (goTo code offset stack)
      (GoesOn code block? begun) := by
  have reaches (context : Context) (machine : Machine) (continuation : Exec.Continuation)
      (final : Machine)
      (ran : Exec.goTo code offset stack context machine = .ok continuation final) :
      ∃ index, continuation = .goOn index none stack ∧ ∀ instruction,
        code.instructions[index]? = some instruction → instruction.offset = offset := by
    obtain ⟨index, middle, positioned, ran⟩ := Exec.bind_ok_iff.mp ran
    cases ran
    exact ⟨index, rfl, fun _ => offset_of_position positioned⟩
  refine (Leads.lift_of (fun _ => Stands.since) reaches).ending ?_
  rintro _ events ⟨stands, index, rfl, offsets⟩
  refine ⟨stands.since, fun instruction found => ?_⟩
  rw [offsets instruction found]
  exact stands.current

/-- What an instruction does that does not fall through, if it can be executed. -/
theorem action?_of_not_falls (opcode : Opcode) (stays : opcode.flow.fallsThrough = false) :
    opcode.action? ∈ [none, some .returnValue, some .jump, some .leave, some .endFinally,
      some .endFilter, some .throw, some .rethrow] := by
  cases opcode <;> first | decide | cases stays

theorem falls_of_step {clauses : List Clause} {instruction : Instruction}
    {constraint? found? : Option Token} {stack following : List Value} {context : Context}
    {machine final : Machine}
    (ran : Exec.step run clauses scope frame instruction constraint? stack context machine =
      .ok (.next following found?) final) : instruction.opcode.flow.fallsThrough := by
  cases falls : instruction.opcode.flow.fallsThrough with
  | true => rfl
  | false =>
      have acts := action?_of_not_falls instruction.opcode falls
      unfold Exec.step at ran
      simp only [List.mem_cons, List.not_mem_nil, or_false] at acts
      rcases acts with acts | acts | acts | acts | acts | acts | acts | acts <;> rw [acts] at ran
      · cases ran
      · cases ran
      · obtain ⟨_, _, _, ran⟩ := Exec.bind_ok_iff.mp ran
        cases ran
      · obtain ⟨_, _, _, ran⟩ := Exec.bind_ok_iff.mp ran
        cases ran
      · cases ran
      · obtain ⟨_, _, _, ran⟩ := Exec.bind_ok_iff.mp ran
        cases ran
      · obtain ⟨⟨popped, _⟩, _, _, ran⟩ := Exec.bind_ok_iff.mp ran
        cases popped with
        | null => exact absurd ran Exec.raise_ne_ok
        | _ => cases ran
      · obtain ⟨_, _, _, ran⟩ := Exec.bind_ok_iff.mp ran
        cases ran

/-- An instruction that goes on with the next one falls through. -/
theorem falls_of_effect {instruction : Instruction} {constraint? found? : Option Token}
    {stack following : List Value} {context : Context} {machine final : Machine}
    (ran : Exec.effect run code scope frame instruction constraint? stack context machine =
      .ok (.next following found?) final) : instruction.opcode.flow.fallsThrough := by
  obtain ⟨outcome, middle, caught, answered⟩ := Exec.bind_ok_iff.mp ran
  cases outcome with
  | error exception => cases answered
  | ok effect =>
      cases answered
      exact falls_of_step (Exec.catchThrown_ok_iff.mp caught)

/-- What the effect of an instruction says about its target. -/
def Obeys (instruction : Instruction) (effect : Effect) : Prop :=
  (∀ stack constraint?, effect = .next stack constraint? →
    instruction.opcode.flow.fallsThrough) ∧
  ∀ target, effect.target? = some target → target ∈ instruction.targets

theorem leads_effect {instruction : Instruction} (constraint? : Option Token)
    (stack : List Value) :
    Leads (Extends code.clauses block? begun)
      (Stands code.clauses block? begun (positionOf instruction.offset))
      (effect run code scope frame instruction constraint? stack) fun effect events =>
        Stands code.clauses block? begun (positionOf instruction.offset) events ∧
          Obeys instruction effect := by
  unfold effect
  split
  · unfold rethrow
    have noted (caught? : Option (Nat × HeapRef)) : Leads (Extends code.clauses block? begun)
        (Stands code.clauses block? begun (positionOf instruction.offset))
        (note (.rethrows (positionOf instruction.offset) caught?)) fun _ =>
          Stands code.clauses block? begun (positionOf instruction.offset) := by
      refine .note fun events stands => ⟨stands.since.cons trivial ?_, stands.current.rethrows⟩
      rintro _ _ ⟨⟩
      exact stands.current
    refine .bind (.lift fun _ => Stands.since) fun slots => .bind (noted _) fun _ => ?_
    rcases entryAround? _ _ slots.caught with _ | ⟨index, exception⟩
    · exact .throw fun _ => Stands.since
    · exact .pure fun _ stands => ⟨stands, nofun, nofun⟩
  · refine .lift_of (fun _ => Stands.since) fun context machine effect final ran => ⟨?_, ?_⟩
    · rintro following found? rfl
      exact falls_of_effect ran
    · exact fun target sent => Exec.mem_targets_of_effect ran sent

theorem leads_follow {runBlock : BlockRunner} (nested : WellNested code.clauses)
    (entered : code.EnteredByDispatch) (blocks : BlocksLead code.clauses runBlock)
    (isBlock : IsBlock code.clauses block?) (rounds index : Nat) {instruction : Instruction}
    (found : code.instructions[index]? = some instruction) {effect : Effect}
    (obeys : Obeys instruction effect) :
    Leads (Extends code.clauses block? begun)
      (Stands code.clauses block? begun (positionOf instruction.offset))
      (follow runBlock code frame block? rounds index instruction.offset effect)
      (GoesOn code block? begun) := by
  have member : instruction ∈ code.instructions.toList :=
    Array.mem_toList_iff.mpr (Array.mem_of_getElem? found)
  have handles (raised : Raised) : Leads (Extends code.clauses block? begun)
      (Stands code.clauses block? begun (positionOf raised.offset))
      (handle runBlock code frame block? rounds raised) (GoesOn code block? begun) :=
    .bind (leads_dispatch nested entered blocks isBlock _ _ _ _) fun _ => leads_goTo _ _
  cases effect with
  | next stack constraint? =>
      refine .pure fun events stands => ⟨stands.since, fun following isNext => ?_⟩
      exact stands.current.move (entered.noEntry_next found isNext (obeys.1 _ _ rfl))
  | jump target stack =>
      exact (leads_goTo target stack).starting fun events stands => ⟨stands.since,
        stands.current.move (entered.jumps instruction member target (obeys.2 target rfl))⟩
  | leave target =>
      refine .bind (leads_leave nested entered blocks isBlock begun frame
        (entered.jumps instruction member target (obeys.2 target rfl))) fun raised? => ?_
      cases raised? with
      | none => exact leads_goTo target []
      | some raised => exact handles raised
  | thrown exception => exact handles ⟨instruction.offset, exception⟩
  | returned value | endFinally | endFilter accepted =>
      exact .pure fun events stands => ⟨stands.since, trivial⟩

/-- Executing an instruction, and whatever follows it, from where something has been delivered to
every handler around. -/
theorem leads_execute (nested : WellNested code.clauses) (entered : code.EnteredByDispatch)
    (isBlock : IsBlock code.clauses block?) (rounds index : Nat) (constraint? : Option Token)
    (stack : List Value) :
    Leads (Extends code.clauses block? begun)
      (fun events => Extends code.clauses block? begun events ∧
        ∀ instruction, code.instructions[index]? = some instruction →
          Current code.clauses events (positionOf instruction.offset))
      (execute run code scope frame rounds block? index constraint? stack) fun _ =>
        Extends code.clauses block? begun := by
  induction rounds generalizing block? begun index constraint? stack with
  | zero => exact .throw fun _ => And.left
  | succ rounds ih =>
      unfold execute
      cases found : code.instructions[index]? with
      | none => exact .throw fun _ => And.left
      | some instruction =>
          have blocks : BlocksLead code.clauses (fun block stack => do
              execute run code scope frame rounds (some block)
                (← lift (Exec.position code block.start)) none stack) := by
            intro block stack events isInner sound current
            refine .bind (leads_position (by rintro _ rfl; exact .refl sound)) fun start =>
              .of_and fun offsets => (ih isInner start none stack).starting ?_
            rintro _ rfl
            refine ⟨.refl sound, fun following isStart => ?_⟩
            rw [offsets following isStart]
            exact current
          have ticks : Leads (Extends code.clauses block? begun)
              (Stands code.clauses block? begun (positionOf instruction.offset))
              (lift Exec.tick) fun _ =>
                Stands code.clauses block? begun (positionOf instruction.offset) :=
            .lift fun _ => Stands.since
          refine .bind (ticks.starting fun events reached =>
              ⟨reached.1, reached.2 instruction rfl⟩) fun _ =>
            .bind (leads_effect constraint? stack) fun effect => .of_and fun obeys =>
            .bind (leads_follow nested entered blocks isBlock rounds index found obeys)
              fun continuation => ?_
          cases continuation with
          | goOn index constraint? stack => exact ih isBlock index constraint? stack
          | exit exit => exact .pure fun _ => And.left

theorem leads_executeCode (nested : WellNested code.clauses) (entered : code.EnteredByDispatch) :
    Leads (Extends code.clauses none []) (· = []) (executeCode run code scope frame) fun _ =>
      Extends code.clauses none [] := by
  have begins : Extends code.clauses none [] [] := .refl eachRethrow_nil
  have reads : Leads (Extends code.clauses none []) (· = []) (read : Traced Context) fun _ =>
      (· = []) := fun _ _ => id
  refine .bind reads fun context => .bind (leads_position (by rintro _ rfl; exact begins))
    fun start => .of_and fun offsets => ?_
  have executes : Leads (Extends code.clauses none []) _
      (execute run code scope frame context.limits.rounds none start none []) _ :=
    leads_execute nested entered (isBlock_none _) _ start none []
  refine .bind (executes.starting ?_) fun exit => ?_
  · rintro _ rfl
    refine ⟨begins, fun instruction found handler member receiver inside => ?_⟩
    rw [offsets instruction found] at inside
    exact absurd inside (Bool.eq_false_iff.mp (entered.start handler member receiver))
  · cases exit with
    | returned value => exact .pure fun _ => id
    | endFinally | endFilter => exact .throw fun _ => id

end Instructions

end Traced

end Cil
