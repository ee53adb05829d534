import Cil.Proofs.Code.RoundTrip
import Cil.Proofs.Code.StackEffects
import Mathlib.Data.List.Induction

/-!
# Underflow of the tracked stack

An encoder refuses an instruction if the height behind it is below zero.  This is not the height
that the instruction leaves between taking and pushing values: an instruction that takes more
values than there are is accepted if it pushes what is missing.
-/

namespace Cil

open Stateful

namespace Encoder

/-! ## Heights as numbers -/

theorem toInt_heightAfter (encoder : Encoder) (pops pushes : Nat) :
    (encoder.heightAfter pops pushes).toInt =
      (encoder.depth.toInt + pushes - pops).bmod 0x10000 := by
  rw [heightAfter, Int16.toInt_add, Int16.toInt_ofInt]
  change (encoder.depth.toInt + Int.bmod (pushes - pops) 0x10000).bmod 0x10000 = _
  rw [Int.add_bmod_bmod, Int.add_sub_assoc]

theorem Command.pushes_le {command : Command} {effect : Effect}
    (emits : command.effect? = some effect) : effect.pushes ≤ 2 := by
  have each : ∀ opcode ∈ Opcode.all, opcode.pushes ≤ 2 := by decide +kernel
  cases command with
  | emit opcode operand? =>
      obtain rfl := Option.some.inj emits
      exact each opcode opcode.mem_all
  | emitBranch opcode label =>
      obtain rfl := Option.some.inj emits
      exact each opcode opcode.mem_all
  | emitSwitch labels =>
      obtain rfl := Option.some.inj emits
      exact Nat.zero_le 2
  | emitCall opcode operand? arguments hasResult =>
      obtain rfl := Option.some.inj emits
      exact Nat.le_succ_of_le (Bool.toNat_le hasResult)
  | defineLabel label => cases emits
  | region event => cases emits

/-- The height behind an instruction is accepted if it is in range, or so far below that it
counts as positive. -/
theorem heightAfter_nonneg_iff {encoder : Encoder} {pops pushes : Nat} (fewPops : pops < 256)
    (fewPushes : pushes ≤ 2) :
    0 ≤ encoder.heightAfter pops pushes ↔
      (0 ≤ encoder.depth.toInt + pushes - pops ∧ encoder.depth.toInt + pushes - pops < 0x8000) ∨
        encoder.depth.toInt + pushes - pops < -0x8000 := by
  have least := Int16.le_toInt encoder.depth
  have most := Int16.toInt_lt encoder.depth
  rw [Int16.le_iff_toInt_le, toInt_heightAfter, Int.bmod_def, Int16.toInt_zero]
  omega

/-! ## Points in and out of reach -/

/-- The encoder after requests, those that failed included. -/
def history (requests : List Request) : Encoder :=
  requests.foldl (fun encoder request => finalState (request.perform encoder)) {}

theorem history_append (requests : List Request) (request : Request) :
    history (requests ++ [request]) = finalState (request.perform (history requests)) := by
  simp [history]

/-- Whatever operations do, requests do: operations that fail by their names do nothing. -/
theorem exists_history (operations : List Operation) :
    ∃ requests, history requests =
      operations.foldl (fun encoder operation => finalState (operation.perform encoder)) {} := by
  induction operations using List.reverseRecOn with
  | nil => exact ⟨[], rfl⟩
  | append_singleton earlier operation ih =>
      obtain ⟨requests, same⟩ := ih
      rw [List.foldl_append, ← same]
      obtain ⟨command, performs⟩ | ⟨mnemonic, fails⟩ := operation.perform_eq
      · refine ⟨requests ++ [.ask command], ?_⟩
        rw [history_append, List.foldl_cons, List.foldl_nil, performs]
        rfl
      · refine ⟨requests, ?_⟩
        rw [List.foldl_cons, List.foldl_nil, fails]
        rfl

/-- A label or the start of a handler. -/
def Command.Enters : Command → Prop
  | .defineLabel _ => True
  | .region event => event.height?.isSome
  | _ => False

/-- The point behind requests is out of reach: since an instruction that does not fall through
there was neither a label nor the start of a handler. -/
inductive CutOff : List Request → Prop
  | ends {earlier : List Request} {command : Command} {effect : Effect} {after : Encoder}
      (emits : command.effect? = some effect) (ends : effect.ends)
      (ran : command.perform (history earlier) = .ok () after) : CutOff (earlier ++ [.ask command])
  | later {earlier : List Request} {request : Request} (cut : CutOff earlier)
      (stays : ∀ command, request = .ask command → command.Enters → ∀ after,
        command.perform (history earlier) ≠ .ok () after) : CutOff (earlier ++ [request])

/-- A step that does not take code out of reach. -/
abbrev KeepsReach {α : Type} (action : EncoderM α) : Prop :=
  Keeps (fun encoder : Encoder => encoder.unreachable = false) action

namespace KeepsReach

theorem throw (error : Error) : KeepsReach (throw error : EncoderM Unit) :=
  Keeps.throw error

theorem modify {change : Encoder → Encoder}
    (kept : ∀ encoder, encoder.unreachable = false → (change encoder).unreachable = false) :
    KeepsReach (modify change : EncoderM PUnit) :=
  fun encoder reach => kept encoder reach

theorem trackStack (pops pushes : Nat) (context : Malformation → Malformation) :
    KeepsReach (trackStack pops pushes context) := by
  intro encoder reach
  rw [trackStack_run]
  split <;> exact reach

theorem pushInstruction (opcode : Opcode) (operand? : Option Operand) :
    KeepsReach (pushInstruction opcode operand?) := by
  unfold Encoder.pushInstruction
  split
  · exact modify fun _ reach => reach
  · exact .bind (modify fun _ reach => reach) fun _ => .throw _

theorem recordBranch (label : String) : KeepsReach (recordBranch label) := by
  intro encoder reach
  unfold Encoder.recordBranch
  rw [get_bind_run, if_pos (by simp [reach])]
  cases known : encoder.labelDepth? label with
  | none => exact reach
  | some expected =>
      dsimp only
      split
      · exact throw _ encoder reach
      · exact reach

theorem defineLabel (label : String) : KeepsReach (defineLabel label) := by
  have placed (size : Nat) : KeepsReach (placeLabel label size) := by
    refine .bind (modify fun _ _ => rfl) fun _ => ?_
    dsimp only
    split
    · exact .bind (throw _) fun _ => modify fun _ reach => reach
    · exact modify fun _ reach => reach
  have settled {change : Encoder → Encoder} {size : Nat}
      (kept : ∀ encoder, encoder.unreachable = false → (change encoder).unreachable = false) :
      KeepsReach (do
        MonadStateOf.modifyGet fun encoder => (PUnit.unit, change encoder)
        placeLabel label size) :=
    .bind (modify kept) fun _ => placed _
  intro encoder reach
  unfold Encoder.defineLabel
  rw [get_bind_run]
  dsimp only
  split
  · exact throw _ encoder reach
  cases encoder.labelDepth? label with
  | some expected =>
      dsimp only
      split
      · refine settled ?_ encoder reach
        exact fun _ kept => kept
      · split
        · exact throw _ encoder reach
        · exact placed _ encoder reach
  | none =>
      dsimp only
      split
      · refine settled ?_ encoder reach
        exact fun _ kept => kept
      · refine settled ?_ encoder reach
        exact fun _ kept => kept

theorem popBlock (failure : Malformation) : KeepsReach (popBlock failure) := by
  intro encoder reach
  unfold Encoder.popBlock
  rw [get_bind_run]
  cases encoder.openBlocks <;> exact reach

theorem closeHandler (block : OpenBlock) : KeepsReach (closeHandler block) := by
  intro encoder reach
  unfold Encoder.closeHandler
  cases block.current? with
  | none => exact reach
  | some pending =>
      dsimp only
      rw [get_bind_run]
      cases pending.handlerStart? <;> exact reach

theorem enterHandler (height : Int16) : KeepsReach (enterHandler height) :=
  .bind (modify fun _ _ => rfl) fun _ => modify fun _ reach => reach

theorem startHandler (flags : ClauseFlags) (class? : Option Token) (isFilter : Bool) :
    KeepsReach (startHandler flags class? isFilter) :=
  (popBlock _).bind fun _ => .bind .get fun _ => (closeHandler _).bind fun _ =>
    modify fun _ reach => reach

theorem perform (event : RegionEvent) : KeepsReach (Regions.perform event) := by
  cases event with
  | beginTry => exact modify fun _ reach => reach
  | beginCatch exceptionClass => exact (startHandler _ _ _).bind fun _ => enterHandler _
  | beginFilter => exact (startHandler _ _ _).bind fun _ => enterHandler _
  | beginFinally => exact (startHandler _ _ _).bind fun _ => enterHandler _
  | beginFault => exact (startHandler _ _ _).bind fun _ => enterHandler _
  | endTry =>
      refine (popBlock _).bind fun block => ?_
      dsimp only
      split
      · exact .bind .get fun _ => .bind (.throw _) fun _ => closeHandler _
      · exact closeHandler _
  | beginFilteredHandler =>
      intro encoder reach
      change (finalState (beginFilteredHandler encoder)).unreachable = false
      unfold beginFilteredHandler
      rw [get_bind_run]
      cases encoder.openBlocks with
      | nil => exact reach
      | cons block outer =>
          obtain ⟨tryStart, tryEnd?, current?⟩ := block
          cases current? with
          | none => exact reach
          | some pending =>
              dsimp only
              split
              · exact enterHandler 1 _ reach
              · exact reach

end KeepsReach

/-- A step of which the failures do not take code out of reach. -/
def FailsInReach {α : Type} (action : EncoderM α) : Prop :=
  ∀ before error after, before.unreachable = false → action before = .error error after →
    after.unreachable = false

namespace FailsInReach

variable {α β : Type}

theorem of_keeps {action : EncoderM α} (keeps : KeepsReach action) : FailsInReach action := by
  intro before error after reach failed
  have kept := keeps before reach
  rw [failed] at kept
  exact kept

theorem bind {first : EncoderM α} {next : α → EncoderM β} (keeps : KeepsReach first)
    (nextFails : ∀ value, FailsInReach (next value)) : FailsInReach (first >>= next) := by
  intro before error after reach failed
  obtain failed | ⟨value, middle, ran, failed⟩ := bind_eq_error.mp failed
  · exact of_keeps keeps before error after reach failed
  · exact nextFails value middle error after (keeps.of_ok reach ran) failed

theorem markUnreachable : FailsInReach markUnreachable :=
  fun _ _ _ _ failed => by cases failed

theorem pure (value : α) : FailsInReach (Pure.pure value : EncoderM α) :=
  of_keeps (.pure value)

theorem recordBranch (label : String) (flow : Flow) : FailsInReach (do
    Encoder.recordBranch label
    match flow with
    | .unconditionalBranch | .leave => Encoder.markUnreachable
    | _ => Pure.pure ()) := by
  refine bind (.recordBranch label) fun _ => ?_
  cases flow <;> first | exact markUnreachable | exact pure _

theorem perform {command : Command} {effect : Effect} (emits : command.effect? = some effect) :
    FailsInReach command.perform := by
  cases command with
  | emit opcode operand? =>
      refine bind (.pushInstruction _ _) fun _ => bind (.trackStack _ _ _) fun _ => ?_
      cases opcode.flow <;> first | exact markUnreachable | exact pure _
  | emitCall opcode operand? arguments hasResult =>
      exact bind (.pushInstruction _ _) fun _ => of_keeps (.trackStack _ _ _)
  | emitBranch opcode label =>
      change FailsInReach (emitBranch opcode label)
      unfold emitBranch
      dsimp only
      split
      · exact of_keeps (.throw _)
      · refine bind (.modify fun _ reach => reach) fun _ => bind (.trackStack _ _ _) fun _ => ?_
        split
        · exact bind (.modify fun _ reach => reach) fun _ => recordBranch label _
        · exact recordBranch label _
  | emitSwitch labels =>
      change FailsInReach (emitSwitch labels)
      unfold emitSwitch
      dsimp only
      split
      · exact of_keeps (.throw _)
      split
      · exact bind (.modify fun _ reach => reach) fun _ => of_keeps (.throw _)
      · refine bind (.modify fun _ reach => reach) fun _ => bind (.trackStack _ _ _) fun _ => ?_
        exact of_keeps (.forM fun label _ => KeepsReach.recordBranch label)
  | defineLabel label => cases emits
  | region event => cases emits

end FailsInReach

/-- What enters a label or a handler is in reach. -/
theorem Command.unreachable_of_enters {command : Command} {before after : Encoder}
    (enters : command.Enters) (ran : command.perform before = .ok () after) :
    after.unreachable = false := by
  cases command with
  | defineLabel label =>
      rw [← (defineLabel_heights ran).2]
      rfl
  | region event =>
      obtain ⟨height, starts⟩ := Option.isSome_iff_exists.mp enters
      rw [(perform_heights ran).unreachable, entered, starts]
  | _ => cases enters

/-- Only behind an instruction that does not fall through an encoder takes code for out of
reach. -/
theorem cutOff_of_unreachable (requests : List Request)
    (out : (history requests).unreachable = true) : CutOff requests := by
  induction requests using List.reverseRecOn with
  | nil => cases out
  | append_singleton earlier request ih =>
      rw [history_append] at out
      cases reach : (history earlier).unreachable with
      | true =>
          refine .later (ih reach) fun command asks enters after ran => ?_
          subst asks
          have ran : (Request.ask command).perform (history earlier) = .ok () after := ran
          rw [ran] at out
          exact Bool.false_ne_true ((command.unreachable_of_enters enters ran).symm.trans out)
      | false =>
          have stays (keeps : KeepsReach request.perform) : False :=
            Bool.false_ne_true ((keeps _ reach).symm.trans out)
          cases request with
          | setDepth height => exact (stays (.modify fun _ reach => reach)).elim
          | setShortening enabled => exact (stays (.modify fun _ reach => reach)).elim
          | ask command =>
              cases emits : command.effect? with
              | none =>
                  cases command with
                  | defineLabel label => exact (stays (.defineLabel label)).elim
                  | region event => exact (stays (.perform event)).elim
                  | _ => cases emits
              | some effect =>
                  change (finalState (command.perform (history earlier))).unreachable at out
                  cases ran : command.perform (history earlier) with
                  | error error after =>
                      have kept := FailsInReach.perform emits _ _ _ reach ran
                      rw [ran] at out
                      exact absurd (kept.symm.trans out) Bool.false_ne_true
                  | ok result after =>
                      obtain ⟨item, _, _, rfl⟩ := (Command.perform_eq_ok emits).mp ran
                      rw [ran, finalState, emitted_unreachable] at out
                      refine .ends emits ?_ ran
                      simpa [pushed, reach] using out

/-! ## Values that are missing -/

/-- Where the code is in reach, an instruction is accepted if it is well formed, its labels agree
with the height behind it, and this height is in range, or so far below that it counts as
positive.  So the values that an accepted instruction takes are there, unless it pushes those
that are missing or the height wraps around. -/
theorem takes_present_iff (requests : List Request) {command : Command} {effect : Effect}
    (emits : command.effect? = some effect) (counted : effect.pops < 256)
    (reachable : ¬ CutOff requests) :
    let before := history requests
    let height := before.depth.toInt + effect.pushes - effect.pops
    let agrees := ∀ label ∈ effect.labels, (before.settled effect).Agrees label
    ((∃ after, command.perform before = .ok () after) ↔
      command.item?.isSome ∧ agrees ∧ (0 ≤ height ∧ height < 0x8000 ∨ height < -0x8000)) ∧
    (((∃ after, command.perform before = .ok () after) →
        (effect.pops : Int) ≤ before.depth.toInt) ↔
      ¬ (command.item?.isSome ∧ agrees ∧ before.depth.toInt < effect.pops ∧
        (0 ≤ height ∨ height < -0x8000))) := by
  intro before height agrees
  have reach : before.unreachable = false :=
    Bool.eq_false_iff.mpr fun out => reachable (cutOff_of_unreachable requests out)
  have few := Command.pushes_le emits
  have admits : before.Admits effect ↔
      agrees ∧ (0 ≤ height ∧ height < 0x8000 ∨ height < -0x8000) := by
    rw [← heightAfter_nonneg_iff counted few]
    exact ⟨fun admits => ⟨admits.labels, admits.height reach⟩,
      fun ⟨labels, positive⟩ => ⟨fun _ => positive, labels⟩⟩
  have accepted : (∃ after, command.perform before = .ok () after) ↔ command.item?.isSome ∧
      agrees ∧ (0 ≤ height ∧ height < 0x8000 ∨ height < -0x8000) :=
    (Command.succeeds_iff emits).trans (and_congr_right fun _ => admits)
  refine ⟨accepted, ?_⟩
  rw [accepted]
  constructor
  · rintro present ⟨wellFormed, agrees, missing, positive⟩
    have inRange : 0 ≤ height ∧ height < 0x8000 ∨ height < -0x8000 := by
      refine positive.imp_left fun positive => ⟨positive, ?_⟩
      change before.depth.toInt + effect.pushes - effect.pops < 0x8000
      omega
    exact Int.not_lt.mpr (present ⟨wellFormed, agrees, inRange⟩) missing
  · rintro refused ⟨wellFormed, agrees, inRange⟩
    refine Int.not_lt.mp fun missing => refused ⟨wellFormed, agrees, missing, ?_⟩
    exact inRange.imp_left And.left

/-! ### Missing values -/

namespace MissingValues

theorem exists_end {requests : List Request} (cut : CutOff requests) :
    ∃ command effect, .ask command ∈ requests ∧ command.effect? = some effect ∧ effect.ends := by
  induction cut with
  | ends emits ends ran => exact ⟨_, _, by simp, emits, ends⟩
  | later _ _ ih =>
      obtain ⟨command, effect, member, ends⟩ := ih
      exact ⟨command, effect, List.mem_append_left _ member, ends⟩

/-- A constant, in front of an instruction. -/
def constant : List Request := [.ask (.emit .ldcI40 none)]

theorem reachable : ¬ CutOff constant := by
  intro cut
  obtain ⟨command, effect, member, emits, ends⟩ := exists_end cut
  obtain rfl : command = .emit .ldcI40 none := by simpa [constant] using member
  cases emits
  cases ends

theorem refuses_store :
    (Command.emit .stindI4 none).effect? = some ⟨2, 0, false, [], false⟩ ∧ ¬ CutOff constant ∧
      ¬ ∃ after, (Command.emit .stindI4 none).perform (history constant) = .ok () after := by
  have emits : (Command.emit .stindI4 none).effect? = some ⟨2, 0, false, [], false⟩ := rfl
  refine ⟨emits, reachable, fun accepted => ?_⟩
  have present := (takes_present_iff constant emits (by decide) reachable).2.mpr
    fun ⟨_, _, _, positive⟩ => absurd positive (by decide +kernel)
  exact absurd (present accepted) (by decide +kernel)

/-- An addition takes two values and pushes one: it is accepted where there is only one. -/
theorem accepts_addition :
    ¬ CutOff constant ∧ (history constant).depth = 1 ∧
      (Command.emit .add none).effect? = some ⟨2, 1, false, [], false⟩ ∧
      ∃ after, (Command.emit .add none).perform (history constant) = .ok () after :=
  ⟨reachable, by decide +kernel, rfl, _, rfl⟩

end MissingValues

end Encoder

end Cil
