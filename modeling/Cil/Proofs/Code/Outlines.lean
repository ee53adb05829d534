import Cil.Proofs.Code.Acceptance
import Cil.Proofs.Code.LabelHeights

/-!
# Where finished code comes from

The instructions of finished code stand one for one for the requests that emit them.  Every label
stands where a request has defined it, and every handler and filter where an event has begun it.
-/

namespace Cil

open Stateful

/-- The kind of the clause that flags stand for. -/
def ClauseFlags.kind (flags : ClauseFlags) : ClauseKind :=
  if flags.contains ClauseFlags.filter then .filterClause
  else if flags.contains ClauseFlags.finallyBlock then .finallyClause
  else if flags.contains ClauseFlags.fault then .faultClause
  else .catchClause

/-- The height that handlers of a kind start with: that of the exception that they are given. -/
def ClauseKind.height : ClauseKind → Int16
  | .catchClause | .filterClause => 1
  | .finallyClause | .faultClause => 0

theorem Clause.kind_eq (clause : Clause) : clause.kind = ClauseFlags.kind clause.flags :=
  rfl

namespace Encoder

/-! ## Counting instructions -/

namespace Request

def emitted? (request : Request) : Option Emitted :=
  request.command?.bind Outline.instruction?

def effect? (request : Request) : Option Effect :=
  request.command?.bind Command.effect?

theorem isSome_emitted? (request : Request) : request.emitted?.isSome = request.effect?.isSome := by
  cases request with
  | ask command => cases command <;> rfl
  | setDepth height => rfl
  | setShortening enabled => rfl

end Request

/-- How many instructions requests emit. -/
def count (requests : List Request) : Nat :=
  (requests.filterMap Request.effect?).length

theorem count_append (first second : List Request) :
    count (first ++ second) = count first + count second := by
  simp [count]

theorem count_cons (request : Request) (requests : List Request) :
    count (request :: requests) = count [request] + count requests :=
  count_append [request] requests

theorem count_of_quiet {request : Request} (quiet : request.effect? = none) :
    count [request] = 0 := by
  simp [count, quiet]

theorem count_of_emits {request : Request} {effect : Effect}
    (emits : request.effect? = some effect) : count [request] = 1 := by
  simp [count, emits]

theorem length_emitted (requests : List Request) :
    (requests.filterMap Request.emitted?).length = count requests := by
  induction requests with
  | nil => rfl
  | cons request requests ih =>
      have same := request.isSome_emitted?
      rw [count_cons, ← ih, List.filterMap_cons]
      cases emits : request.effect? with
      | none =>
          rw [emits, Option.isSome_none, Option.isSome_eq_false_iff,
            Option.isNone_iff_eq_none] at same
          rw [same, count_of_quiet emits, Nat.zero_add]
      | some effect =>
          rw [emits] at same
          obtain ⟨emitted, isEmitted⟩ := Option.isSome_iff_exists.mp same
          rw [isEmitted, count_of_emits emits, List.length_cons, Nat.add_comm]

/-- The effect of a request stands behind those of the requests in front of it. -/
theorem getElem?_effects {earlier later : List Request} {request : Request} {effect : Effect}
    (emits : request.effect? = some effect) :
    ((earlier ++ request :: later).filterMap Request.effect?)[count earlier]? = some effect := by
  rw [List.filterMap_append, List.filterMap_cons_some emits]
  simp [count]

theorem getElem?_emitted {earlier later : List Request} {request : Request} {emitted : Emitted}
    (emits : request.emitted? = some emitted) :
    ((earlier ++ request :: later).filterMap Request.emitted?)[count earlier]? = some emitted := by
  rw [List.filterMap_append, List.filterMap_cons_some emits, ← length_emitted]
  simp

/-! ## Where labels and handlers stand -/

/-- A command stands among requests, behind a number of instructions. -/
def StandsAt (requests : List Request) (command : Command) (mark : Mark) : Prop :=
  ∃ earlier later, requests = earlier ++ .ask command :: later ∧ count earlier = mark

/-- An event that starts a handler with a height stands behind a number of instructions. -/
def StartsAt (requests : List Request) (height : Int16) (mark : Mark) : Prop :=
  ∃ event, event.height? = some height ∧ StandsAt requests (.region event) mark

/-- Labels and handlers of an outline stand where requests have put them. -/
structure Outline.Traced (requests : List Request) (outline : Outline) : Prop where
  labels : ∀ entry ∈ outline.labels, StandsAt requests (.defineLabel entry.1) entry.2
  handlers : outline.blocks.Each fun flags filterStart? handlerStart? =>
    (∀ mark, handlerStart? = some mark → StartsAt requests flags.kind.height mark) ∧
      ∀ mark, filterStart? = some mark → StartsAt requests 1 mark

namespace Outline

variable {requests : List Request} {outline next : Outline}

theorem traced_of_add {earlier later : List Request} {command : Command}
    (splits : requests = earlier ++ .ask command :: later) (here : outline.here = count earlier)
    (traced : outline.Traced requests) (added : outline.add command = some next) :
    next.Traced requests := by
  have stands : StandsAt requests command outline.here := ⟨earlier, later, splits, here.symm⟩
  cases command with
  | defineLabel label =>
      cases added
      exact ⟨List.forall_mem_append.mpr
        ⟨traced.labels, List.forall_mem_singleton.mpr stands⟩, traced.handlers⟩
  | region event =>
      obtain ⟨blocks, acts, rfl⟩ := Option.map_eq_some_iff.mp added
      refine ⟨traced.labels, Blocks.each_of_act traced.handlers ?_ ?_ acts⟩
      · intro flags isFilter begins
        have starts (height : Int16) (isHeight : event.height? = some height) (mark : Mark)
            (isHere : some outline.here = some mark) : StartsAt requests height mark := by
          cases isHere
          exact ⟨event, isHeight, stands⟩
        cases event <;> cases begins
        · exact ⟨starts 1 rfl, nofun⟩
        · exact ⟨nofun, starts 1 rfl⟩
        · exact ⟨starts 0 rfl, nofun⟩
        · exact ⟨starts 0 rfl, nofun⟩
      · rintro rfl filterStart? ⟨_, filtered⟩
        refine ⟨fun mark isHere => ?_, filtered⟩
        cases isHere
        exact ⟨.beginFilteredHandler, rfl, stands⟩
  | _ =>
      cases added
      exact ⟨traced.labels, traced.handlers⟩

theorem here_of_add {command : Command} (added : outline.add command = some next) :
    next.here = outline.here + count [.ask command] := by
  cases command with
  | region event =>
      obtain ⟨blocks, _, rfl⟩ := Option.map_eq_some_iff.mp added
      rfl
  | _ =>
      cases added
      simp [here, instruction?, count, Request.effect?, Request.command?, Command.effect?]

/-- Labels and handlers of requests that are carried out stand where the requests have put them,
whatever stands behind. -/
theorem traced_of_foldlM {earlier later behind : List Request}
    (splits : requests = earlier ++ (later ++ behind)) (here : outline.here = count earlier)
    (traced : outline.Traced requests)
    (added : (later.filterMap Request.command?).foldlM add outline = some next) :
    next.Traced requests := by
  induction later generalizing earlier outline with
  | nil =>
      cases added
      exact traced
  | cons request later ih =>
      have moved : requests = (earlier ++ [request]) ++ (later ++ behind) := by simpa using splits
      have quiet (silent : request.effect? = none) :
          outline.here = count (earlier ++ [request]) := by
        rw [count_append, count_of_quiet silent]
        exact here
      cases request with
      | ask command =>
          change (command :: later.filterMap Request.command?).foldlM add outline =
            some next at added
          rw [List.foldlM_cons] at added
          obtain ⟨middle, step, rest⟩ := Option.bind_eq_some_iff.mp added
          refine ih moved ?_ (traced_of_add splits here traced step) rest
          rw [here_of_add step, here, count_append]
      | setDepth height => exact ih moved (quiet rfl) traced added
      | setShortening enabled => exact ih moved (quiet rfl) traced added

end Outline

/-! ## Finished code -/

/-- Requests are carried out one after the other, up to the last instruction, and their
instructions read as they were asked for. -/
structure LaidOut (requests : List Request) (ended : Encoder) (code : EmittedCode)
    (instructions : List Instruction) : Prop where
  ran : requests.forM Request.perform {} = .ok () ended
  maxStack : code.maxStack = ended.maxDepth
  decoded : Instruction.decodeAll code.code = .ok instructions
  reads : ∃ shortens, List.Forall₂ (Emitted.ReadsAs shortens code.labels)
    (requests.filterMap Request.emitted?) instructions
  labels : ∀ label target, code.labels.lookup label = some target →
    ∃ mark, target = code.startOf instructions mark ∧ StandsAt requests (.defineLabel label) mark
  handlers : ∀ clause ∈ code.clauses,
    (∃ mark, clause.handlerOffset = code.startOf instructions mark ∧
        StartsAt requests clause.kind.height mark) ∧
      (clause.kind = .filterClause →
        ∃ mark, clause.filterOffset = code.startOf instructions mark ∧ StartsAt requests 1 mark)

theorem laidOut_of_traced {requests : List Request} {ended : Encoder} {code : EmittedCode}
    {instructions : List Instruction} {shortens : Bool} {outline : Outline}
    (ran : requests.forM Request.perform {} = .ok () ended)
    (maxStack : code.maxStack = ended.maxDepth)
    (finished : Finished shortens outline code instructions)
    (emitted : outline.terminated = requests.filterMap Request.emitted?)
    (traced : outline.Traced requests) (filtered : Filtered outline.blocks) :
    LaidOut requests ended code instructions where
  ran := ran
  maxStack := maxStack
  decoded := finished.decoded
  reads := ⟨shortens, emitted ▸ finished.reads⟩
  labels label target known := by
    rw [finished.labels, lookup_map_offset] at known
    obtain ⟨mark, defined, rfl⟩ := Option.map_eq_some_iff.mp known
    obtain ⟨before, after, same, _⟩ := List.lookup_eq_some_iff.mp defined
    exact ⟨mark, rfl, traced.labels (label, mark) (by simp [same])⟩
  handlers clause member := by
    obtain ⟨marked, markedMember, lies⟩ := exists_of_forall₂ finished.clauses member
    obtain ⟨started, filters⟩ := traced.handlers.finished marked markedMember
    refine ⟨⟨_, lies.handlerStart, ?_⟩, fun isFilter => ?_⟩
    · rw [clause.kind_eq, lies.flags]
      exact started _ rfl
    · have flagged := Clause.contains_filter_of_kind isFilter
      rw [lies.flags] at flagged
      obtain ⟨mark, isMark⟩ :=
        Option.isSome_iff_exists.mp (filtered.finished marked markedMember flagged)
      exact ⟨mark, lies.filterStart mark isMark, filters mark isMark⟩

/-- The return that ends requests after which a branch leads to the end. -/
def endingOf (done : Encoder) : List Request :=
  if done.branchesToEnd then [.ask (.emit .ret none)] else []

/-- Finished code is laid out from its requests and the return that may end it. -/
theorem laidOut_of_assemble {requests : List Request} {code : EmittedCode} {final : Encoder}
    (ran : assemble requests {} = .ok code final) :
    ∃ done ended instructions, requests.forM Request.perform {} = .ok () done ∧
      LaidOut (requests ++ endingOf done) ended code instructions := by
  obtain ⟨_, done, performed, finishRan⟩ := bind_eq_ok.mp ran
  obtain ⟨outline, outlined, follows⟩ := follows_empty.requests performed
  have ascend : outline.blocks.Ascend outline.here :=
    Outline.ascend_of_foldlM ⟨by simp [Outline.empty], by simp [Outline.empty]⟩ outlined
  have filtered : Filtered outline.blocks :=
    filtered_of_foldlM ⟨by simp [Outline.empty], by simp [Outline.empty]⟩ outlined
  have traced : outline.Traced (requests ++ endingOf done) :=
    Outline.traced_of_foldlM (List.nil_append _).symm rfl
      ⟨by simp [Outline.empty], by simp [Outline.empty], by simp [Outline.empty]⟩ outlined
  obtain ⟨instructions, _, finished⟩ := finished_of_finish follows ascend finishRan
  obtain ⟨ended, terminated, maxStack, _⟩ := exists_terminate_of_finish finishRan
  refine ⟨done, ended, instructions, performed,
    laidOut_of_traced ?_ maxStack finished ?_ traced filtered⟩
  · refine forM_append_eq_ok.mpr ⟨done, performed, ?_⟩
    unfold terminate at terminated
    rw [get_bind_run] at terminated
    unfold endingOf
    split at terminated
    · rename_i leaves
      rw [if_pos leaves]
      exact bind_eq_ok.mpr ⟨_, ended, terminated, rfl⟩
    · rename_i stays
      rw [if_neg stays]
      exact terminated
  · rw [← follows.ending_eq, Outline.emitted_of_foldlM outlined, List.filterMap_filterMap,
      List.filterMap_append]
    congr 1
    unfold ending endingOf
    split <;> rfl

end Encoder

end Cil
