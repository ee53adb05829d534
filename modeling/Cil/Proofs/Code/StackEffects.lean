import Cil.Proofs.Code.Requests

/-!
# What an emission does to the tracked height

An emission is accepted if it is well formed, if the height behind it does not fall below zero
where the code is in reach, and if its labels are known with that height or not at all.  An
encoder changes its height in one step: how many values an instruction takes does not count by
itself.
-/

namespace Cil

open Stateful

/-- The height that a handler starts with. -/
def RegionEvent.height? : RegionEvent → Option Int16
  | .beginCatch _ | .beginFilter | .beginFilteredHandler => some 1
  | .beginFinally | .beginFault => some 0
  | .beginTry | .endTry => none

namespace Encoder

/-! ## Heights -/

/-- The height behind an instruction, as a 16-bit number. -/
def heightAfter (encoder : Encoder) (pops pushes : Nat) : Int16 :=
  encoder.depth + Int16.ofInt ((pushes : Int) - pops)

/-- The encoder at a height that its maximum covers. -/
def atHeight (encoder : Encoder) (depth : Int16) : Encoder :=
  { encoder with depth, maxDepth := max encoder.maxDepth depth.toInt.toNat }

/-- The encoder behind an instruction that it accepts.  Where the code is out of reach no height
falls below zero. -/
def tracked (encoder : Encoder) (pops pushes : Nat) : Encoder :=
  encoder.atHeight
    (if encoder.heightAfter pops pushes < 0 then 0 else encoder.heightAfter pops pushes)

theorem trackStack_run (pops pushes : Nat) (context : Malformation → Malformation)
    (encoder : Encoder) :
    trackStack pops pushes context encoder =
      if encoder.heightAfter pops pushes < 0 ∧ encoder.unreachable = false then
        .error (.malformed (context
            (.stackUnderflow (encoder.heightAfter pops pushes).toInt pops pushes)))
          { encoder with depth := encoder.heightAfter pops pushes }
      else .ok () (encoder.tracked pops pushes) := by
  change (if encoder.heightAfter pops pushes < 0 then
      if encoder.unreachable then setDepth 0
      else do
        set { encoder with depth := encoder.heightAfter pops pushes }
        throw (.malformed (context
          (.stackUnderflow (encoder.heightAfter pops pushes).toInt pops pushes)))
    else setDepth (encoder.heightAfter pops pushes) : EncoderM Unit) encoder = _
  unfold tracked
  by_cases below : encoder.heightAfter pops pushes < 0
  · rw [if_pos below, if_pos below]
    cases reach : encoder.unreachable with
    | true =>
        rw [if_pos rfl, if_neg (by simp)]
        rfl
    | false =>
        rw [if_neg (by simp), if_pos ⟨below, rfl⟩]
        rfl
  · rw [if_neg below, if_neg below, if_neg (by simp [below])]
    rfl

theorem trackStack_eq_ok {pops pushes : Nat} {context : Malformation → Malformation}
    {before after : Encoder} {result : Unit} :
    trackStack pops pushes context before = .ok result after ↔
      (before.unreachable = false → 0 ≤ before.heightAfter pops pushes) ∧
        before.tracked pops pushes = after := by
  rw [trackStack_run]
  split
  · rename_i refused
    exact iff_of_false nofun fun kept => Int16.not_lt.mpr (kept.1 refused.2) refused.1
  · rename_i accepted
    rw [EStateM.Result.ok.injEq]
    refine and_congr_left fun _ => iff_of_true rfl fun reachable => ?_
    exact Int16.not_lt.mp fun below => accepted ⟨below, reachable⟩

/-! ## Heights of labels -/

/-- A branch agrees with what is known of its label, where the code is in reach. -/
def Agrees (encoder : Encoder) (label : String) : Prop :=
  encoder.unreachable = false →
    ∀ expected, encoder.labelDepth? label = some expected → encoder.depth = expected

/-- The encoder that knows the height that a branch reaches its label with. -/
def recorded (encoder : Encoder) (label : String) : Encoder :=
  if encoder.unreachable ∨ (encoder.labelDepth? label).isSome then encoder
  else { encoder with labelDepths := (label, encoder.depth) :: encoder.labelDepths }

theorem recordBranch_eq_ok {label : String} {before after : Encoder} {result : Unit} :
    recordBranch label before = .ok result after ↔
      before.Agrees label ∧ before.recorded label = after := by
  unfold recordBranch Agrees recorded
  rw [get_bind_run]
  cases reach : before.unreachable with
  | true => simp [pure_eq_ok]
  | false =>
      cases known : before.labelDepth? label with
      | none => simp [set_eq_ok]
      | some expected =>
          simp only [Bool.not_false, if_true, Option.some.injEq, forall_eq', Option.isSome_some,
            or_true, true_implies]
          split
          · rename_i other
            exact iff_of_false throw_ne_ok fun kept => other kept.1
          · rename_i same
            simpa [pure_eq_ok] using fun _ => Decidable.not_not.mp same

namespace recorded

variable (encoder : Encoder) (label : String)

@[simp]
theorem depth_eq : (encoder.recorded label).depth = encoder.depth := by
  unfold recorded
  split <;> rfl

@[simp]
theorem maxDepth_eq : (encoder.recorded label).maxDepth = encoder.maxDepth := by
  unfold recorded
  split <;> rfl

@[simp]
theorem unreachable_eq : (encoder.recorded label).unreachable = encoder.unreachable := by
  unfold recorded
  split <;> rfl

theorem labelDepth?_eq (other : String) :
    (encoder.recorded label).labelDepth? other =
      if encoder.unreachable = false ∧ encoder.labelDepth? label = none ∧ other = label then
        some encoder.depth
      else encoder.labelDepth? other := by
  unfold recorded
  split
  · rename_i kept
    rw [if_neg]
    rintro ⟨reachable, unknown, _⟩
    rw [reachable, unknown] at kept
    simp at kept
  · rename_i added
    rw [not_or, Bool.not_eq_true, Option.not_isSome_iff_eq_none] at added
    change List.lookup other ((label, encoder.depth) :: encoder.labelDepths) = _
    rw [List.lookup_cons]
    by_cases same : other = label
    · rw [if_pos ⟨added.1, added.2, same⟩, same, beq_self_eq_true]
    · rw [if_neg (fun new => same new.2.2), beq_false_of_ne same]
      rfl

variable {encoder label}

/-- What is known of labels stays. -/
theorem labelDepth?_of_known {other : String} {expected : Int16}
    (known : encoder.labelDepth? other = some expected) :
    (encoder.recorded label).labelDepth? other = some expected := by
  rw [labelDepth?_eq, if_neg, known]
  rintro ⟨_, unknown, rfl⟩
  rw [known] at unknown
  cases unknown

/-- A branch that agrees leaves its label known with its own height. -/
theorem labelDepth?_self (reachable : encoder.unreachable = false)
    (agrees : encoder.Agrees label) :
    (encoder.recorded label).labelDepth? label = some encoder.depth := by
  cases known : encoder.labelDepth? label with
  | none => rw [labelDepth?_eq, if_pos ⟨reachable, known, rfl⟩]
  | some expected =>
      rw [labelDepth?_of_known known, agrees reachable expected known]

/-- A branch that agrees changes nothing for the branches behind it at the same height. -/
theorem agrees_iff (agrees : encoder.Agrees label) (other : String) :
    (encoder.recorded label).Agrees other ↔ encoder.Agrees other := by
  unfold Agrees
  rw [unreachable_eq, depth_eq]
  refine forall_congr' fun reachable => ?_
  by_cases same : other = label
  · subst same
    rw [labelDepth?_self reachable agrees]
    exact iff_of_true (fun _ known => Option.some.inj known) (agrees reachable)
  · rw [labelDepth?_eq, if_neg fun new => same new.2.2]

end recorded

theorem forM_recordBranch_eq_ok {labels : List String} {before after : Encoder} {result : Unit} :
    labels.forM recordBranch before = .ok result after ↔
      (∀ label ∈ labels, before.Agrees label) ∧ labels.foldl recorded before = after := by
  induction labels generalizing before with
  | nil => simp [pure_eq_ok]
  | cons label labels ih =>
      rw [List.forall_mem_cons, List.foldl_cons]
      constructor
      · intro ran
        obtain ⟨_, middle, first, rest⟩ := bind_eq_ok.mp ran
        obtain ⟨agrees, rfl⟩ := recordBranch_eq_ok.mp first
        obtain ⟨others, rfl⟩ := ih.mp rest
        exact ⟨⟨agrees, fun other member => (recorded.agrees_iff agrees other).mp
          (others other member)⟩, rfl⟩
      · rintro ⟨⟨agrees, others⟩, rfl⟩
        have first : recordBranch label before = .ok () (before.recorded label) :=
          recordBranch_eq_ok.mpr ⟨agrees, rfl⟩
        refine bind_eq_ok.mpr ⟨_, _, first, ih.mpr ⟨fun other member => ?_, rfl⟩⟩
        exact (recorded.agrees_iff agrees other).mpr (others other member)

/-! ## Emissions -/

/-- What an instruction does to the stack, and where it goes on. -/
structure Effect where
  pops : Nat
  pushes : Nat
  /-- Whether the stack is empty behind it. -/
  clears : Bool
  /-- Where it may go on. -/
  labels : List String
  /-- Whether it does not fall through. -/
  ends : Bool

namespace Command

def effect? : Command → Option Effect
  | .emit opcode _ =>
      some ⟨opcode.pops, opcode.pushes, false, [],
        opcode.flow = .return ∨ opcode.flow = .throw ∨ opcode.flow = .endFinally⟩
  | .emitCall _ _ arguments hasResult => some ⟨arguments, hasResult.toNat, false, [], false⟩
  | .emitBranch opcode label =>
      some ⟨opcode.pops, opcode.pushes, opcode.flow = .leave, [label],
        opcode.flow = .unconditionalBranch ∨ opcode.flow = .leave⟩
  | .emitSwitch labels => some ⟨1, 0, false, labels, false⟩
  | .defineLabel _ | .region _ => none

/-- The item of an instruction that is well formed. -/
def item? : Command → Option Item
  | .emit opcode operand? | .emitCall opcode operand? _ _ =>
      (operandBytes opcode.operand operand?).toOption.map fun operand =>
        .bytes (opcode.code.bytes ++ operand)
  | .emitBranch opcode label =>
      if opcode.flow.isSingleBranch then some (.branch opcode label) else none
  | .emitSwitch labels =>
      if labels ≠ [] ∧ labels.length < wordBound then some (.switch labels) else none
  | .defineLabel _ | .region _ => none

end Command

/-- The encoder behind an instruction, before its labels are recorded. -/
def settled (encoder : Encoder) (effect : Effect) : Encoder :=
  if effect.clears then { encoder.tracked effect.pops effect.pushes with depth := 0 }
  else encoder.tracked effect.pops effect.pushes

/-- The encoder behind an instruction. -/
def emitted (encoder : Encoder) (effect : Effect) : Encoder :=
  let encoder := effect.labels.foldl recorded (encoder.settled effect)
  if effect.ends then { encoder with unreachable := true } else encoder

/-- The encoder with one more item. -/
def pushed (encoder : Encoder) (item : Item) : Encoder :=
  { encoder with items := encoder.items.push item, size := encoder.size + item.size }

/-- What an encoder asks of an instruction that is well formed. -/
structure Admits (encoder : Encoder) (effect : Effect) : Prop where
  height : encoder.unreachable = false → 0 ≤ encoder.heightAfter effect.pops effect.pushes
  labels : ∀ label ∈ effect.labels, (encoder.settled effect).Agrees label

theorem admits_pushed {encoder : Encoder} {item : Item} {effect : Effect} :
    (encoder.pushed item).Admits effect ↔ encoder.Admits effect := by
  have same (label : String) :
      ((encoder.pushed item).settled effect).Agrees label ↔
        (encoder.settled effect).Agrees label := by
    unfold settled
    cases effect.clears <;> exact Iff.rfl
  constructor
  · exact fun admits =>
      ⟨admits.height, fun label member => (same label).mp (admits.labels label member)⟩
  · exact fun admits =>
      ⟨admits.height, fun label member => (same label).mpr (admits.labels label member)⟩

section Runs

variable {before after : Encoder} {result : Unit} {next : EncoderM Unit}

theorem push_bind_eq_ok {item : Item} :
    (do push item; next) before = .ok result after ↔
      next (before.pushed item) = .ok result after :=
  Iff.rfl

theorem pushInstruction_bind_eq_ok {opcode : Opcode} {operand? : Option Operand} :
    (do pushInstruction opcode operand?; next) before = .ok result after ↔
      ∃ operand, operandBytes opcode.operand operand? = .ok operand ∧
        next (before.pushed (.bytes (opcode.code.bytes ++ operand))) = .ok result after := by
  unfold pushInstruction
  cases operandBytes opcode.operand operand? with
  | error error => exact iff_of_false nofun nofun
  | ok operand =>
      simp only [Except.ok.injEq, exists_eq_left']
      exact Iff.rfl

theorem trackStack_bind_eq_ok {pops pushes : Nat} {context : Malformation → Malformation} :
    (do trackStack pops pushes context; next) before = .ok result after ↔
      (before.unreachable = false → 0 ≤ before.heightAfter pops pushes) ∧
        next (before.tracked pops pushes) = .ok result after := by
  rw [bind_eq_ok]
  constructor
  · rintro ⟨_, middle, tracks, rest⟩
    obtain ⟨height, rfl⟩ := trackStack_eq_ok.mp tracks
    exact ⟨height, rest⟩
  · rintro ⟨height, rest⟩
    exact ⟨(), _, trackStack_eq_ok.mpr ⟨height, rfl⟩, rest⟩

theorem exists_item_iff (opcode : Opcode) (operand? : Option Operand) (holds : Item → Prop) :
    (∃ operand, operandBytes opcode.operand operand? = .ok operand ∧
        holds (.bytes (opcode.code.bytes ++ operand))) ↔
      ∃ item, (Command.emit opcode operand?).item? = some item ∧ holds item := by
  cases encoded : operandBytes opcode.operand operand? <;>
    simp [Command.item?, encoded, Except.toOption]

/-- Instructions without labels are admitted by the height behind them. -/
theorem admits_iff_of_direct {encoder : Encoder} {pops pushes : Nat} {ends : Bool} :
    encoder.Admits ⟨pops, pushes, false, [], ends⟩ ↔
      (encoder.unreachable = false → 0 ≤ encoder.heightAfter pops pushes) :=
  ⟨Admits.height, fun height => ⟨height, nofun⟩⟩

theorem admits_iff_of_label {encoder : Encoder} {effect : Effect} {label : String}
    (only : effect.labels = [label]) :
    encoder.Admits effect ↔
      (encoder.unreachable = false → 0 ≤ encoder.heightAfter effect.pops effect.pushes) ∧
        (encoder.settled effect).Agrees label := by
  have labels : (∀ other ∈ effect.labels, (encoder.settled effect).Agrees other) ↔
      (encoder.settled effect).Agrees label := by
    rw [only, List.forall_mem_singleton]
  exact ⟨fun admits => ⟨admits.height, labels.mp admits.labels⟩,
    fun ⟨height, agrees⟩ => ⟨height, labels.mpr agrees⟩⟩

/-- An instruction that ends a path leaves the code behind it out of reach. -/
theorem markEnd_eq_ok {flow : Flow} :
    (match flow with
      | .return | .throw | .endFinally => markUnreachable
      | _ => pure () : EncoderM Unit) before = .ok result after ↔
    (if decide (flow = .return ∨ flow = .throw ∨ flow = .endFinally) then
      { before with unreachable := true } else before) = after := by
  cases flow <;> simp [markUnreachable, modify_eq_ok, pure_eq_ok]

/-- A branch that is taken in any case leaves the code behind it out of reach. -/
theorem markLeave_eq_ok {flow : Flow} :
    (match flow with
      | .unconditionalBranch | .leave => markUnreachable
      | _ => pure () : EncoderM Unit) before = .ok result after ↔
    (if decide (flow = .unconditionalBranch ∨ flow = .leave) then
      { before with unreachable := true } else before) = after := by
  cases flow <;> simp [markUnreachable, modify_eq_ok, pure_eq_ok]

theorem recordBranch_bind_eq_ok {label : String} {flow : Flow} :
    (do
      recordBranch label
      match flow with
      | .unconditionalBranch | .leave => markUnreachable
      | _ => pure () : EncoderM Unit) before = .ok result after ↔
    before.Agrees label ∧
      (if decide (flow = .unconditionalBranch ∨ flow = .leave) then
        { before.recorded label with unreachable := true } else before.recorded label) =
        after := by
  rw [bind_eq_ok]
  constructor
  · rintro ⟨_, middle, records, ends⟩
    obtain ⟨agrees, rfl⟩ := recordBranch_eq_ok.mp records
    exact ⟨agrees, markLeave_eq_ok.mp ends⟩
  · rintro ⟨agrees, ends⟩
    exact ⟨(), _, recordBranch_eq_ok.mpr ⟨agrees, rfl⟩, markLeave_eq_ok.mpr ends⟩

theorem emit_eq_ok {opcode : Opcode} {operand? : Option Operand} {effect : Effect}
    (emits : (Command.emit opcode operand?).effect? = some effect) :
    emit opcode operand? before = .ok result after ↔
      ∃ item, (Command.emit opcode operand?).item? = some item ∧
        (before.pushed item).Admits effect ∧ (before.pushed item).emitted effect = after := by
  obtain rfl := Option.some.inj emits
  rw [← exists_item_iff opcode operand? fun item => _ ∧ _]
  unfold emit
  rw [pushInstruction_bind_eq_ok]
  refine exists_congr fun operand => and_congr_right fun _ => ?_
  rw [trackStack_bind_eq_ok, admits_iff_of_direct]
  exact and_congr_right fun _ => markEnd_eq_ok

theorem emitCall_eq_ok {opcode : Opcode} {operand? : Option Operand} {arguments : Nat}
    {hasResult : Bool} {effect : Effect}
    (emits : (Command.emitCall opcode operand? arguments hasResult).effect? = some effect) :
    emitCall opcode operand? arguments hasResult before = .ok result after ↔
      ∃ item, (Command.emitCall opcode operand? arguments hasResult).item? = some item ∧
        (before.pushed item).Admits effect ∧ (before.pushed item).emitted effect = after := by
  obtain rfl := Option.some.inj emits
  refine Iff.trans ?_ (exists_item_iff opcode operand? fun item => _ ∧ _)
  unfold emitCall
  rw [pushInstruction_bind_eq_ok]
  refine exists_congr fun operand => and_congr_right fun _ => ?_
  rw [trackStack_eq_ok, admits_iff_of_direct]
  exact Iff.rfl

theorem emitSwitch_eq_ok {labels : List String} {effect : Effect}
    (emits : (Command.emitSwitch labels).effect? = some effect) :
    emitSwitch labels before = .ok result after ↔
      ∃ item, (Command.emitSwitch labels).item? = some item ∧
        (before.pushed item).Admits effect ∧ (before.pushed item).emitted effect = after := by
  obtain rfl := Option.some.inj emits
  unfold emitSwitch
  by_cases empty : labels = []
  · subst empty
    exact iff_of_false nofun nofun
  rw [if_neg (by simpa using empty)]
  by_cases long : wordBound ≤ labels.length
  · rw [if_pos long]
    refine iff_of_false nofun fun ⟨_, wellFormed, _⟩ => ?_
    rw [Command.item?, if_neg (by omega)] at wellFormed
    cases wellFormed
  · have item : (Command.emitSwitch labels).item? = some (.switch labels) :=
      if_pos ⟨empty, Nat.lt_of_not_le long⟩
    rw [if_neg long]
    simp only [item, Option.some.injEq, exists_eq_left']
    refine push_bind_eq_ok.trans (trackStack_bind_eq_ok.trans ?_)
    rw [forM_recordBranch_eq_ok, ← and_assoc]
    exact and_congr_left fun _ =>
      ⟨fun ⟨height, labels⟩ => ⟨height, labels⟩, fun admits => ⟨admits.height, admits.labels⟩⟩

theorem emitBranch_eq_ok {opcode : Opcode} {label : String} {effect : Effect}
    (emits : (Command.emitBranch opcode label).effect? = some effect) :
    emitBranch opcode label before = .ok result after ↔
      ∃ item, (Command.emitBranch opcode label).item? = some item ∧
        (before.pushed item).Admits effect ∧ (before.pushed item).emitted effect = after := by
  obtain rfl := Option.some.inj emits
  unfold emitBranch
  cases branches : opcode.flow.isSingleBranch with
  | false =>
      rw [if_pos (by simp)]
      refine iff_of_false nofun fun ⟨_, wellFormed, _⟩ => ?_
      rw [Command.item?, branches] at wellFormed
      cases wellFormed
  | true =>
      have item : (Command.emitBranch opcode label).item? = some (.branch opcode label) :=
        if_pos branches
      rw [if_neg (by simp)]
      simp only [item, Option.some.injEq, exists_eq_left']
      refine push_bind_eq_ok.trans (trackStack_bind_eq_ok.trans ?_)
      rw [admits_iff_of_label rfl, and_assoc]
      refine and_congr_right fun _ => ?_
      split
      · rename_i leaves
        refine recordBranch_bind_eq_ok.trans ?_
        simp only [emitted, settled, leaves, decide_true, if_true, List.foldl_cons, List.foldl_nil]
      · rename_i stays
        refine recordBranch_bind_eq_ok.trans ?_
        simp only [emitted, settled, stays, decide_false, Bool.false_eq_true, if_false,
          List.foldl_cons, List.foldl_nil]

/-- An instruction is accepted if it is well formed and the encoder admits what it does. -/
theorem Command.perform_eq_ok {command : Command} {effect : Effect}
    (emits : command.effect? = some effect) :
    command.perform before = .ok result after ↔
      ∃ item, command.item? = some item ∧ (before.pushed item).Admits effect ∧
        (before.pushed item).emitted effect = after := by
  cases command with
  | emit opcode operand? => exact emit_eq_ok emits
  | emitCall opcode operand? arguments hasResult => exact emitCall_eq_ok emits
  | emitBranch opcode label => exact emitBranch_eq_ok emits
  | emitSwitch labels => exact emitSwitch_eq_ok emits
  | defineLabel label => cases emits
  | region event => cases emits

/-- Whether an instruction is accepted does not depend on the code in front of it but for the
heights. -/
theorem Command.succeeds_iff {command : Command} {effect : Effect}
    (emits : command.effect? = some effect) :
    (∃ after, command.perform before = .ok () after) ↔
      command.item?.isSome ∧ before.Admits effect := by
  simp only [Command.perform_eq_ok emits, admits_pushed]
  rw [Option.isSome_iff_exists]
  constructor
  · rintro ⟨after, item, wellFormed, admits, _⟩
    exact ⟨⟨item, wellFormed⟩, admits⟩
  · rintro ⟨⟨item, wellFormed⟩, admits⟩
    exact ⟨_, item, wellFormed, admits, rfl⟩

end Runs

/-! ### Heights behind an instruction -/

section Emitted

variable (encoder : Encoder) (effect : Effect)

theorem foldl_recorded (labels : List String) :
    (labels.foldl recorded encoder).depth = encoder.depth ∧
      (labels.foldl recorded encoder).maxDepth = encoder.maxDepth ∧
      (labels.foldl recorded encoder).unreachable = encoder.unreachable := by
  induction labels generalizing encoder with
  | nil => exact ⟨rfl, rfl, rfl⟩
  | cons label labels ih => simpa using ih (encoder.recorded label)

@[simp]
theorem settled_unreachable : (encoder.settled effect).unreachable = encoder.unreachable := by
  unfold settled
  split <;> rfl

theorem emitted_unreachable :
    (encoder.emitted effect).unreachable = (effect.ends || encoder.unreachable) := by
  have recorded := (foldl_recorded (encoder.settled effect) effect.labels).2.2
  unfold emitted
  cases effect.ends with
  | true => rfl
  | false => simpa using recorded

theorem emitted_depth : (encoder.emitted effect).depth = (encoder.settled effect).depth := by
  unfold emitted
  cases effect.ends <;> exact (foldl_recorded (encoder.settled effect) effect.labels).1

theorem emitted_maxDepth :
    (encoder.emitted effect).maxDepth =
      (encoder.tracked effect.pops effect.pushes).maxDepth := by
  have settledMax : (encoder.settled effect).maxDepth =
      (encoder.tracked effect.pops effect.pushes).maxDepth := by
    unfold settled
    split <;> rfl
  rw [← settledMax]
  unfold emitted
  cases effect.ends <;> exact (foldl_recorded (encoder.settled effect) effect.labels).2.1

end Emitted

/-! ## Labels and handlers -/

/-- The encoder at a label that it defines: where the code in front of the label does not fall
through, the height is the one that a branch has recorded, or none at all. -/
def labelled (encoder : Encoder) (label : String) : Encoder :=
  { encoder.recorded label with
    depth :=
      if encoder.unreachable then (encoder.labelDepth? label).getD 0 else encoder.depth
    unreachable := false
    labels := encoder.labels.push (label, encoder.here) }

theorem placeLabel_heights {label : String} {size : Nat} {before after : Encoder} {result : Unit}
    (ran : placeLabel label size before = .ok result after) :
    { before with
      unreachable := false, labels := before.labels.push (label, before.here) } = after := by
  obtain ⟨_, _, entered, ran⟩ := bind_eq_ok.mp ran
  obtain rfl := modify_eq_ok.mp entered
  dsimp only at ran
  split at ran
  · cases ran
  · exact modify_eq_ok.mp ran

/-- A label that is defined agrees with what branches have recorded of it. -/
theorem defineLabel_heights {label : String} {before after : Encoder} {result : Unit}
    (ran : defineLabel label before = .ok result after) :
    before.Agrees label ∧ before.labelled label = after := by
  unfold defineLabel at ran
  rw [get_bind_run] at ran
  dsimp only at ran
  split at ran
  · cases ran
  have placed {change : Encoder → Encoder}
      (ran : (do modify change; placeLabel label before.size : EncoderM Unit) before =
        .ok result after) :
      { change before with
        unreachable := false
        labels := (change before).labels.push (label, (change before).here) } = after := by
    obtain ⟨_, middle, changed, ran⟩ := bind_eq_ok.mp ran
    obtain rfl := modify_eq_ok.mp changed
    exact placeLabel_heights ran
  unfold Agrees labelled recorded
  cases reach : before.unreachable with
  | true =>
      rw [reach] at ran
      refine ⟨nofun, ?_⟩
      rw [if_pos (.inl rfl), if_pos rfl]
      cases known : before.labelDepth? label with
      | some expected =>
          rw [known] at ran
          exact placed ran
      | none =>
          rw [known] at ran
          exact placed ran
  | false =>
      rw [reach] at ran
      rw [if_neg Bool.false_ne_true]
      cases known : before.labelDepth? label with
      | some expected =>
          rw [known] at ran
          dsimp only at ran
          rw [if_neg Bool.false_ne_true] at ran
          split at ran
          · cases ran
          · rename_i same
            refine ⟨fun _ other isKnown => ?_, ?_⟩
            · rw [← Option.some.inj isKnown]
              exact Decidable.not_not.mp same
            · rw [if_pos (.inr rfl)]
              exact placeLabel_heights ran
      | none =>
          rw [known] at ran
          refine ⟨fun _ => nofun, ?_⟩
          rw [if_neg (by simp)]
          exact placed ran

/-- Two encoders track the same heights. -/
structure SameHeights (before after : Encoder) : Prop where
  depth : after.depth = before.depth
  maxDepth : after.maxDepth = before.maxDepth
  labelDepths : after.labelDepths = before.labelDepths
  unreachable : after.unreachable = before.unreachable

namespace SameHeights

theorem refl (encoder : Encoder) : SameHeights encoder encoder :=
  ⟨rfl, rfl, rfl, rfl⟩

theorem trans {before middle after : Encoder} (first : SameHeights before middle)
    (second : SameHeights middle after) : SameHeights before after :=
  ⟨second.depth.trans first.depth, second.maxDepth.trans first.maxDepth,
    second.labelDepths.trans first.labelDepths, second.unreachable.trans first.unreachable⟩

end SameHeights

/-- A step that succeeds leaves the heights as they were. -/
def KeepsHeights {α : Type} (action : EncoderM α) : Prop :=
  ∀ before value after, action before = .ok value after → SameHeights before after

namespace KeepsHeights

variable {α β : Type}

theorem bind {first : EncoderM α} {next : α → EncoderM β} (firstKeeps : KeepsHeights first)
    (nextKeeps : ∀ value, KeepsHeights (next value)) : KeepsHeights (first >>= next) := by
  intro before result after ran
  obtain ⟨value, middle, firstRan, nextRan⟩ := bind_eq_ok.mp ran
  exact (firstKeeps before value middle firstRan).trans
    (nextKeeps value middle result after nextRan)

theorem modify {change : Encoder → Encoder}
    (kept : ∀ encoder, SameHeights encoder (change encoder)) :
    KeepsHeights (modify change : EncoderM PUnit) := by
  intro before result after ran
  rw [← modify_eq_ok.mp ran]
  exact kept before

theorem popBlock (failure : Malformation) : KeepsHeights (popBlock failure) := by
  intro before block after ran
  obtain ⟨_, _, read, ran⟩ := bind_eq_ok.mp ran
  obtain ⟨rfl, rfl⟩ := get_eq_ok.mp read
  cases opened : before.openBlocks with
  | nil =>
      rw [opened] at ran
      cases ran
  | cons first outer =>
      rw [opened] at ran
      cases ran
      exact ⟨rfl, rfl, rfl, rfl⟩

theorem closeHandler (block : OpenBlock) : KeepsHeights (closeHandler block) := by
  intro before result after ran
  unfold Encoder.closeHandler at ran
  cases current : block.current? with
  | none =>
      rw [current] at ran
      cases ran
      exact .refl before
  | some pending =>
      rw [current] at ran
      dsimp only at ran
      rw [get_bind_run] at ran
      cases started : pending.handlerStart? with
      | none =>
          rw [started] at ran
          cases ran
      | some handlerStart =>
          rw [started] at ran
          cases ran
          exact ⟨rfl, rfl, rfl, rfl⟩

theorem get : KeepsHeights (MonadState.get : EncoderM Encoder) := by
  intro before result after ran
  cases ran
  exact .refl before

theorem startHandler (flags : ClauseFlags) (class? : Option Token) (isFilter : Bool) :
    KeepsHeights (startHandler flags class? isFilter) :=
  (popBlock _).bind fun _ => get.bind fun _ => (closeHandler _).bind fun _ =>
    modify fun _ => ⟨rfl, rfl, rfl, rfl⟩

theorem endBlock : KeepsHeights endBlock := by
  refine (popBlock _).bind fun block => ?_
  dsimp only
  split
  · refine get.bind fun _ => ?_
    intro before result after ran
    cases ran
  · exact closeHandler block

end KeepsHeights

/-- The encoder behind an event: handlers start in reach, at a height of their own. -/
def entered (encoder : Encoder) (event : RegionEvent) : Encoder :=
  match event.height? with
  | some height => { encoder.atHeight height with unreachable := false }
  | none => encoder

theorem enterHandler_heights {height : Int16} {before middle after : Encoder} {result : Unit}
    (same : SameHeights before middle) (ran : enterHandler height middle = .ok result after) :
    SameHeights { before.atHeight height with unreachable := false } after := by
  obtain ⟨_, _, reached, ran⟩ := bind_eq_ok.mp ran
  obtain rfl := modify_eq_ok.mp reached
  obtain rfl := setDepth_eq_ok ran
  exact ⟨rfl, by simp [atHeight, same.maxDepth], same.labelDepths, rfl⟩

/-- An event changes the heights if it starts a handler, and only then. -/
theorem perform_heights {event : RegionEvent} {before after : Encoder} {result : Unit}
    (ran : Regions.perform event before = .ok result after) :
    SameHeights (before.entered event) after := by
  have started {flags : ClauseFlags} {class? : Option Token} {isFilter : Bool} {height : Int16}
      (ran : (do Encoder.startHandler flags class? isFilter; enterHandler height) before =
        .ok result after) :
      SameHeights { before.atHeight height with unreachable := false } after := by
    obtain ⟨_, middle, startRan, ran⟩ := bind_eq_ok.mp ran
    exact enterHandler_heights (KeepsHeights.startHandler _ _ _ _ _ _ startRan) ran
  cases event with
  | beginTry =>
      rw [← modify_eq_ok.mp ran]
      exact ⟨rfl, rfl, rfl, rfl⟩
  | beginCatch exceptionClass => exact started ran
  | beginFilter => exact started ran
  | beginFinally => exact started ran
  | beginFault => exact started ran
  | endTry => exact KeepsHeights.endBlock _ _ _ ran
  | beginFilteredHandler =>
      obtain ⟨_, _, read, ran⟩ := bind_eq_ok.mp ran
      obtain ⟨rfl, rfl⟩ := get_eq_ok.mp read
      cases opened : before.openBlocks with
      | nil =>
          rw [opened] at ran
          cases ran
      | cons block outer =>
          obtain ⟨tryStart, tryEnd?, current?⟩ := block
          cases current? with
          | none =>
              rw [opened] at ran
              cases ran
          | some pending =>
              rw [opened] at ran
              dsimp only at ran
              split at ran
              · obtain ⟨_, middle, storeRan, ran⟩ := bind_eq_ok.mp ran
                have kept : SameHeights before middle := by
                  rw [← set_eq_ok.mp storeRan]
                  exact ⟨rfl, rfl, rfl, rfl⟩
                exact enterHandler_heights kept ran
              · cases ran

end Encoder

end Cil
