import Cil.Proofs.Code.Decoding
import Cil.Proofs.Code.Emission
import Cil.Proofs.Isolation.Runs

/-!
# What an instruction becomes

Instrumenting emits a piece of code for every instruction.  This file says what the pieces
are, and that emitting a piece changes nothing else than the code, the scope of the stubs and
the run.
-/

namespace Cil

open Stateful
open MonadExcept (ofExcept)

namespace Instrumentation

/-! ## Steps of instrumenting -/

variable {α β : Type} {subject : Subject} {before after : Draft}

theorem bind_ok {first : InstrumentM α} {next : α → InstrumentM β} {result : β}
    (ran : (first >>= next) subject before = .ok result after) :
    ∃ value middle, first subject before = .ok value middle ∧
      next value subject middle = .ok result after :=
  bind_eq_ok.mp ran

theorem read_ok {result : Subject} (ran : (read : InstrumentM Subject) subject before =
    .ok result after) : subject = result ∧ before = after :=
  pure_eq_ok.mp ran

theorem get_ok {result : Draft} (ran : (get : InstrumentM Draft) subject before =
    .ok result after) : before = result ∧ before = after :=
  get_eq_ok.mp ran

theorem ofExcept_ok {outcome : Except Error α} {result : α}
    (ran : (ofExcept outcome : InstrumentM α) subject before = .ok result after) :
    outcome = .ok result ∧ before = after := by
  cases outcome with
  | error error => exact absurd ran throw_ne_ok
  | ok value =>
      obtain ⟨rfl, rfl⟩ := pure_eq_ok.mp ran
      exact ⟨rfl, rfl⟩

theorem refuse_ne_ok {instruction : Instruction} {obstacle : Obstacle} {result : α} :
    (refuse instruction obstacle : InstrumentM α) subject before ≠ .ok result after :=
  throw_ne_ok

theorem emitting_ok {action : EncoderM α} {result : α}
    (ran : emitting action subject before = .ok result after) :
    action before.encoder = .ok result after.encoder ∧
      after = { before with encoder := after.encoder } := by
  unfold emitting at ran
  cases acted : action before.encoder with
  | error error encoder => rw [acted] at ran; cases ran
  | ok value encoder => rw [acted] at ran; cases ran; exact ⟨rfl, rfl⟩

theorem onRun_ok {action : EStateM Error IsolationRun α} {result : α}
    (ran : onRun action subject before = .ok result after) :
    action before.run = .ok result after.run ∧ after = { before with run := after.run } := by
  unfold onRun at ran
  cases acted : action before.run with
  | error error run => rw [acted] at ran; cases ran
  | ok value run => rw [acted] at ran; cases ran; exact ⟨rfl, rfl⟩

theorem tokenOf_ok {instruction : Instruction} {token : Token}
    (ran : tokenOf instruction subject before = .ok token after) :
    instruction.operand = .token token ∧ before = after := by
  unfold tokenOf Instruction.token? at ran
  cases operandEq : instruction.operand <;> rw [operandEq] at ran
  case token name =>
    obtain ⟨rfl, rfl⟩ := pure_eq_ok.mp ran
    exact ⟨rfl, rfl⟩
  all_goals exact absurd ran refuse_ne_ok

theorem popCount_ok {instruction : Instruction} {count result : Nat}
    (ran : popCount instruction count subject before = .ok result after) :
    count = result ∧ before = after := by
  unfold popCount at ran
  split at ran
  · exact pure_eq_ok.mp ran
  · exact absurd ran refuse_ne_ok

theorem takeConstraint_ok {constraint? : Option Token}
    (ran : takeConstraint subject before = .ok constraint? after) :
    before.constraint? = constraint? ∧ { before with constraint? := none } = after :=
  modifyGet_eq_ok.mp ran

/-! ## Pieces -/

/-- Whether an instruction is a mark on the next one that is not emitted where it stands. -/
def isDropped (opcode : Opcode) : Bool :=
  opcode == .constrained || opcode == .tail

/-- Whether an instruction names a method that a stub may stand in for. -/
def isCallSite (opcode : Opcode) : Bool :=
  opcode == .call || opcode == .callvirt || opcode == .newobj || opcode == .ldftn ||
    opcode == .ldvirtftn

def isVirtualCall (opcode : Opcode) : Bool :=
  opcode == .callvirt || opcode == .ldvirtftn

theorem opcode_of_isCallSite {opcode : Opcode} (isCall : isCallSite opcode) :
    opcode = .call ∨ opcode = .callvirt ∨ opcode = .newobj ∨ opcode = .ldftn ∨
      opcode = .ldvirtftn := by
  simpa only [isCallSite, Bool.or_eq_true, beq_iff_eq, or_assoc] using isCall

theorem argumentAccess?_of_isCallSite {opcode : Opcode} (isCall : isCallSite opcode) :
    opcode.argumentAccess? = none := by
  rcases opcode_of_isCallSite isCall with rfl | rfl | rfl | rfl | rfl <;> rfl

theorem isBranch_of_longForm {opcode long : Opcode} (isLong : opcode.longForm? = some long) :
    opcode.flow.isBranch := by
  obtain ⟨forms, found, _⟩ := Option.map_eq_some_iff.mp isLong
  have branches : ∀ forms ∈ Opcode.branchForms,
      forms.1.flow.isBranch ∧ forms.2.flow.isBranch := by decide
  obtain ⟨first, second⟩ := branches forms (List.mem_of_find?_eq_some found)
  have same := List.find?_some found
  simp only [Bool.or_eq_true, beq_iff_eq] at same
  rcases same with rfl | rfl
  · exact first
  · exact second

theorem isBranch_of_switch {opcode : Opcode} (isSwitch : opcode.flow = .switch) :
    opcode.flow.isBranch := by
  rw [isSwitch]
  rfl

theorem isBranch_of_isCallSite {opcode : Opcode} (isCall : isCallSite opcode) :
    opcode.flow.isBranch = false := by
  rcases opcode_of_isCallSite isCall with rfl | rfl | rfl | rfl | rfl <;> rfl

def unboxing (subject : Subject) (access : ArgumentAccess) (index : Nat) : List Emitted :=
  if access = .load ∧ index = 0 ∧ subject.unboxesReceiver then
    [.plain .unbox (.token subject.method.declaringType)]
  else []

def constraintMark (constraint? : Option Token) : List Emitted :=
  constraint?.toList.map fun constraint => .plain .constrained (.token constraint)

/-- A dynamic token stands for a kind of call of a method: its stub was made for such calls. -/
def StandsFor (subject : Subject) (scope : Scope) (kind : StubKind) (token dynamic : Token) :
    Prop :=
  ∃ index stub method, dynamic = Scope.tokenAt index ∧
    scope.entries[index]? = some (.native stub) ∧ subject.module.method token = .ok method ∧
    stub.MadeFor kind method.identity

/-- An access to an argument, in one of its forms. -/
def Accesses (access : ArgumentAccess) (index : Nat) (opcode : Opcode) (operand : Operand) :
    Prop :=
  opcode.argumentAccess? = some access ∧
    ∀ offset, (Instruction.placed offset opcode operand).argumentIndex? = some index

/-- What an instruction becomes, where a `constrained.` mark may wait for it. -/
inductive Piece (subject : Subject) (isolation : IsolationRun) (scope : Scope)
    (constraint? : Option Token) (instruction : Instruction) : List Emitted → Prop
  | argument {access : ArgumentAccess} {index : Nat} {opcode : Opcode} {operand : Operand}
      (isAccess : instruction.opcode.argumentAccess? = some access)
      (isIndex : instruction.argumentIndex? = some index)
      (accesses : Accesses access index opcode operand) :
      Piece subject isolation scope constraint? instruction
        (.plain opcode operand :: unboxing subject access index)
  | dropped (isDropped : isDropped instruction.opcode) :
      Piece subject isolation scope constraint? instruction []
  | forwarded {token : Token} {method : MethodDef} (isCall : isCallSite instruction.opcode)
      (operand : instruction.operand = .token token)
      (known : subject.module.method token = .ok method)
      (forwards : isolation.forwards subject.module method
        (isVirtualCall instruction.opcode) = true)
      (constrained : constraint?.isSome → instruction.opcode = .callvirt) :
      Piece subject isolation scope constraint? instruction
        (constraintMark constraint? ++ [.plain instruction.opcode (.token token)])
  | stub {token dynamic : Token} {method : MethodDef} {kind : StubKind}
      (operand : instruction.operand = .token token)
      (known : subject.module.method token = .ok method)
      (replaced : isolation.forwards subject.module method
        (isVirtualCall instruction.opcode) = false)
      (isKind : StubKind.ofOpcode? instruction.opcode constraint? = some kind)
      (standsFor : StandsFor subject scope kind token dynamic)
      (constrained : constraint?.isSome → instruction.opcode = .callvirt) :
      Piece subject isolation scope constraint? instruction [.plain .call (.token dynamic)]
  | branch {long : Opcode} {target : Nat}
      (isBranch : instruction.opcode.longForm? = some long)
      (targets : instruction.targets = [target]) (unmarked : constraint? = none) :
      Piece subject isolation scope constraint? instruction [.branch long (labelAt target)]
  | switch (isSwitch : instruction.opcode.flow = .switch) (unmarked : constraint? = none) :
      Piece subject isolation scope constraint? instruction
        [.switch (instruction.targets.map labelAt)]
  | plain (noArgument : instruction.opcode.argumentAccess? = none)
      (kept : isDropped instruction.opcode = false)
      (noCall : isCallSite instruction.opcode = false)
      (noBranch : instruction.opcode.flow.isBranch = false)
      (unmarked : constraint?.isSome → instruction.opcode = .calli) :
      Piece subject isolation scope constraint? instruction
        [.plain instruction.opcode instruction.operand]

/-- The mark that waits behind an instruction.  Argument accesses, indirect calls and `tail.`
leave it waiting. -/
def waiting (constraint? : Option Token) (instruction : Instruction) : Option Token :=
  if instruction.opcode = .constrained then instruction.token?
  else if instruction.opcode.argumentAccess?.isSome || instruction.opcode == .tail ||
    instruction.opcode == .calli then constraint?
  else none

/-- What holds between two instructions. -/
structure Invariant (subject : Subject) (isolation : IsolationRun) (draft : Draft) : Prop where
  stubs : draft.run.StubsMade
  shims : draft.run.shims = isolation.shims
  config : draft.run.config = isolation.config
  tokens : ∀ kind token dynamic, draft.tokens.lookup (kind, token) = some dynamic →
    StandsFor subject draft.scope kind token dynamic

structure Emits (subject : Subject) (isolation : IsolationRun) (before after : Draft)
    (emitted : List Emitted) : Prop where
  appends : before.encoder.Appends after.encoder emitted
  invariant : Invariant subject isolation after
  scope : ∃ added, after.scope.entries = before.scope.entries ++ added

/-! ## Arguments -/

section Accesses

variable {access : ArgumentAccess} {index : UInt16} {before after : Encoder} {result : Unit}

theorem accesses_of_emitIndexed {short long : Opcode} (shortFits : short.operand = .uint8)
    (longFits : long.operand = .uint16)
    (shortAccess : ∀ byte : UInt8, Accesses access byte.toNat short (.immediate (.uint8 byte)))
    (longAccess : ∀ word : UInt16, Accesses access word.toNat long (.immediate (.uint16 word)))
    (ran : Encoder.emitIndexed short long index before = .ok result after) :
    ∃ opcode operand, before.Appends after [.plain opcode operand] ∧
      Accesses access index.toNat opcode operand := by
  obtain ⟨opcode, operand, appends, ⟨rfl, rfl, small⟩ | ⟨rfl, rfl⟩⟩ :=
    Encoder.appends_of_emitIndexed shortFits longFits ran
  · have sameIndex : index.toUInt8.toNat = index.toNat := by
      rw [UInt16.toNat_toUInt8]
      exact Nat.mod_eq_of_lt small
    exact ⟨_, _, appends, sameIndex ▸ shortAccess index.toUInt8⟩
  · exact ⟨_, _, appends, longAccess index⟩

theorem accesses_of_emitLoadArgument
    (ran : Encoder.emitLoadArgument index before = .ok result after) :
    ∃ opcode operand, before.Appends after [.plain opcode operand] ∧
      Accesses .load index.toNat opcode operand := by
  unfold Encoder.emitLoadArgument at ran
  rcases isIndex : index.toNat with _ | _ | _ | _ | further
  · rw [isIndex] at ran
    exact ⟨.ldarg0, .none, Encoder.appends_of_emit ran, rfl, fun _ => rfl⟩
  · rw [isIndex] at ran
    exact ⟨.ldarg1, .none, Encoder.appends_of_emit ran, rfl, fun _ => rfl⟩
  · rw [isIndex] at ran
    exact ⟨.ldarg2, .none, Encoder.appends_of_emit ran, rfl, fun _ => rfl⟩
  · rw [isIndex] at ran
    exact ⟨.ldarg3, .none, Encoder.appends_of_emit ran, rfl, fun _ => rfl⟩
  · rw [isIndex] at ran
    rw [← isIndex]
    exact accesses_of_emitIndexed rfl rfl (fun _ => ⟨rfl, fun _ => rfl⟩)
      (fun _ => ⟨rfl, fun _ => rfl⟩) ran

theorem accesses_of_emitLoadArgumentAddress
    (ran : Encoder.emitLoadArgumentAddress index before = .ok result after) :
    ∃ opcode operand, before.Appends after [.plain opcode operand] ∧
      Accesses .address index.toNat opcode operand :=
  accesses_of_emitIndexed rfl rfl (fun _ => ⟨rfl, fun _ => rfl⟩) (fun _ => ⟨rfl, fun _ => rfl⟩) ran

theorem accesses_of_emitStoreArgument
    (ran : Encoder.emitStoreArgument index before = .ok result after) :
    ∃ opcode operand, before.Appends after [.plain opcode operand] ∧
      Accesses .store index.toNat opcode operand :=
  accesses_of_emitIndexed rfl rfl (fun _ => ⟨rfl, fun _ => rfl⟩) (fun _ => ⟨rfl, fun _ => rfl⟩) ran

end Accesses

/-! ## Call sites -/

section Steps

variable {subject : Subject} {isolation : IsolationRun} {before after : Draft} {result : Unit}

theorem Emits.refl (invariant : Invariant subject isolation before) :
    Emits subject isolation before before [] :=
  ⟨.refl _, invariant, #[], by simp⟩

theorem StandsFor.mono {scope wider : Scope} {kind : StubKind} {token dynamic : Token}
    (stands : StandsFor subject scope kind token dynamic)
    (widens : ∃ added, wider.entries = scope.entries ++ added) :
    StandsFor subject wider kind token dynamic := by
  obtain ⟨index, stub, method, tokenEq, entry, known, made⟩ := stands
  obtain ⟨added, entries⟩ := widens
  refine ⟨index, stub, method, tokenEq, ?_, known, made⟩
  obtain ⟨inside, _⟩ := Array.getElem?_eq_some_iff.mp entry
  rw [entries, Array.getElem?_append_left inside, entry]

/-- A step that emits code and does nothing else. -/
theorem emits_of_emitting {action : EncoderM Unit} {emitted : List Emitted}
    (invariant : Invariant subject isolation before)
    (ran : emitting action subject before = .ok result after)
    (appends : before.encoder.Appends after.encoder emitted) :
    Emits subject isolation before after emitted := by
  obtain ⟨_, afterEq⟩ := emitting_ok ran
  rw [afterEq] at appends ⊢
  exact ⟨appends, ⟨invariant.stubs, invariant.shims, invariant.config, invariant.tokens⟩,
    #[], by simp⟩

/-- A step that changes nothing that instructions depend on. -/
theorem Emits.of_same (invariant : Invariant subject isolation before)
    (encoder : before.encoder = after.encoder) (scope : before.scope = after.scope)
    (tokens : before.tokens = after.tokens) (run : before.run = after.run) :
    Emits subject isolation before after [] := by
  refine ⟨encoder ▸ .refl _, ⟨run ▸ invariant.stubs, run ▸ invariant.shims,
    run ▸ invariant.config, ?_⟩, #[], by simp [scope]⟩
  rw [← tokens, ← scope]
  exact invariant.tokens

theorem Emits.trans {middle : Draft} {first second : List Emitted}
    (firstEmits : Emits subject isolation before middle first)
    (secondEmits : Emits subject isolation middle after second) :
    Emits subject isolation before after (first ++ second) := by
  obtain ⟨firstAdded, firstScope⟩ := firstEmits.scope
  obtain ⟨secondAdded, secondScope⟩ := secondEmits.scope
  exact ⟨firstEmits.appends.trans secondEmits.appends, secondEmits.invariant,
    firstAdded ++ secondAdded, by rw [secondScope, firstScope, Array.append_assoc]⟩

/-- Whether a call is forwarded does not change while a method is instrumented. -/
theorem forwards_of_invariant (invariant : Invariant subject isolation before)
    (method : MethodDef) (isVirtualCall : Bool) :
    before.run.forwards subject.module method isVirtualCall =
      isolation.forwards subject.module method isVirtualCall := by
  unfold IsolationRun.forwards IsolationRun.isIntrinsic
  rw [invariant.shims, invariant.config]

/-- The dynamic token of a stub stands for the calls that the stub was made for. -/
theorem standsFor_of_stubToken {kind : StubKind} {token dynamic : Token} {stub : Native}
    {method : MethodDef} (invariant : Invariant subject isolation before)
    (known : subject.module.method token = .ok method)
    (made : stub.MadeFor kind method.identity)
    (ran : stubToken kind token stub subject before = .ok dynamic after) :
    Emits subject isolation before after [] ∧
      StandsFor subject after.scope kind token dynamic ∧
      after.constraint? = before.constraint? := by
  obtain ⟨_, _, read, ran⟩ := bind_ok ran
  obtain ⟨rfl, rfl⟩ := get_ok read
  cases found : before.tokens.lookup (kind, token) with
  | some remembered =>
      rw [found] at ran
      obtain ⟨rfl, rfl⟩ := pure_eq_ok.mp ran
      exact ⟨.refl invariant, invariant.tokens _ _ _ found, rfl⟩
  | none =>
      rw [found] at ran
      obtain ⟨rfl, rfl⟩ := modifyGet_eq_ok.mp ran
      have widens : ∃ added, (before.scope.add (.native stub)).2.entries =
          before.scope.entries ++ added :=
        ⟨#[.native stub], by simp [Scope.add]⟩
      have stands : StandsFor subject (before.scope.add (.native stub)).2 kind token
          (before.scope.add (.native stub)).1 :=
        ⟨before.scope.size, stub, method, rfl, by simp [Scope.add, Scope.size], known, made⟩
      refine ⟨⟨.refl _, ⟨invariant.stubs, invariant.shims, invariant.config, ?_⟩, widens⟩,
        stands, rfl⟩
      intro otherKind otherToken otherDynamic otherFound
      rw [List.lookup_cons] at otherFound
      split at otherFound
      · rename_i same
        obtain ⟨rfl, rfl⟩ := Prod.mk.inj (beq_iff_eq.mp same)
        cases otherFound
        exact stands
      · exact (invariant.tokens _ _ _ otherFound).mono widens

/-- Asking for a stub leaves the shims and the configuration of the run alone. -/
theorem emits_of_stubOf {kind : StubKind} {method : MethodDef} {stub : Native}
    (invariant : Invariant subject isolation before)
    (ran : onRun (IsolationRun.stubOf subject.module subject.run kind method) subject before =
      .ok stub after) :
    Emits subject isolation before after [] ∧
      stub.MadeFor kind method.identity ∧ after.constraint? = before.constraint? := by
  obtain ⟨asked, afterEq⟩ := onRun_ok ran
  have stubs : after.run.StubsMade := by
    have kept := IsolationRun.keeps_stubsMade_stubOf subject.module subject.run kind method
      before.run invariant.stubs
    rwa [asked] at kept
  have same : after.run.shims = before.run.shims ∧ after.run.config = before.run.config := by
    obtain ⟨_, _, read, asked⟩ := bind_eq_ok.mp asked
    obtain ⟨rfl, rfl⟩ := get_eq_ok.mp read
    cases known : before.run.stub? kind method.identity with
    | some remembered =>
        rw [known] at asked
        obtain ⟨_, final⟩ := pure_eq_ok.mp asked
        rw [← final]
        exact ⟨rfl, rfl⟩
    | none =>
        rw [known] at asked
        obtain ⟨_, _, made, asked⟩ := bind_eq_ok.mp asked
        obtain ⟨_, rfl⟩ := ofExcept_eq_ok.mp made
        obtain ⟨_, _, modified, asked⟩ := bind_eq_ok.mp asked
        obtain ⟨_, final⟩ := pure_eq_ok.mp asked
        rw [← final, ← modify_eq_ok.mp modified]
        exact ⟨rfl, rfl⟩
  have made := IsolationRun.madeFor_of_stubOf invariant.stubs asked
  rw [afterEq] at stubs same ⊢
  exact ⟨⟨.refl _, ⟨stubs, same.1.trans invariant.shims, same.2.trans invariant.config,
    invariant.tokens⟩, #[], by simp⟩, made, rfl⟩

/-- What a step makes of an instruction. -/
def Becomes (subject : Subject) (isolation : IsolationRun) (before after : Draft)
    (instruction : Instruction) : Prop :=
  ∃ emitted, Emits subject isolation before after emitted ∧
    Piece subject isolation after.scope before.constraint? instruction emitted ∧
    after.constraint? = waiting before.constraint? instruction

theorem waiting_of_callSite {instruction : Instruction} (constraint? : Option Token)
    (isCall : isCallSite instruction.opcode) : waiting constraint? instruction = none := by
  unfold isCallSite at isCall
  unfold waiting
  cases opcode : instruction.opcode <;> rw [opcode] at isCall <;>
    first | rfl | cases isCall

theorem operand_of_callSite {opcode : Opcode} (isCall : isCallSite opcode) :
    opcode.operand = .token := by
  unfold isCallSite at isCall
  cases opcode <;> first | rfl | cases isCall

theorem becomes_of_emitCallSite {instruction : Instruction}
    (invariant : Invariant subject isolation before) (isCall : isCallSite instruction.opcode)
    (ran : emitCallSite instruction subject before = .ok result after) :
    Becomes subject isolation before after instruction := by
  -- The steps up to the decision read only, but for the constraint, which waits no longer.
  obtain ⟨_, _, asked, ran⟩ := bind_ok ran
  obtain ⟨rfl, rfl⟩ := read_ok asked
  obtain ⟨token, _, named, ran⟩ := bind_ok ran
  obtain ⟨operand, rfl⟩ := tokenOf_ok named
  obtain ⟨constraint?, taken, take, ran⟩ := bind_ok ran
  obtain ⟨rfl, rfl⟩ := takeConstraint_ok take
  dsimp only at ran
  split at ran
  · obtain ⟨_, _, failed, _⟩ := bind_ok ran
    exact absurd failed refuse_ne_ok
  rename_i prefixes
  obtain ⟨method, _, found, ran⟩ := bind_ok ran
  obtain ⟨known, rfl⟩ := ofExcept_ok found
  obtain ⟨_, _, read, ran⟩ := bind_ok ran
  obtain ⟨rfl, rfl⟩ := get_ok read
  have taken : Emits subject isolation before { before with constraint? := none } [] :=
    .of_same invariant rfl rfl rfl rfl
  rw [forwards_of_invariant taken.invariant] at ran
  split at ran
  · rename_i forwards
    obtain ⟨between, marks, constraint, ran⟩ : ∃ between,
        Emits subject isolation before between (constraintMark before.constraint?) ∧
          between.constraint? = none ∧
          (do
            let pops ← popCount instruction (forwardedEffect instruction.opcode method).1
            emitting (Encoder.emitCall instruction.opcode (some (.token token)) pops
              (forwardedEffect instruction.opcode method).2)) subject between =
            .ok result after := by
      cases marked : before.constraint? with
      | none =>
          rw [marked] at ran
          exact ⟨_, taken, rfl, ran⟩
      | some constraint =>
          rw [marked] at ran
          obtain ⟨_, between, markRan, ran⟩ := bind_ok ran
          obtain ⟨emitted, betweenEq⟩ := emitting_ok markRan
          have mark := emits_of_emitting taken.invariant markRan
            (Encoder.appends_of_emit emitted)
          exact ⟨between, taken.trans mark, by rw [betweenEq], ran⟩
    obtain ⟨_, _, counted, ran⟩ := bind_ok ran
    obtain ⟨_, rfl⟩ := popCount_ok counted
    obtain ⟨emitted, afterEq⟩ := emitting_ok ran
    have call := emits_of_emitting marks.invariant ran (Encoder.appends_of_emitCall emitted)
    rw [operand_of_callSite isCall] at call
    refine ⟨_, marks.trans call, ?_, ?_⟩
    · refine .forwarded isCall operand known forwards fun isMarked => ?_
      simpa [isMarked] using prefixes
    · rw [waiting_of_callSite _ isCall, afterEq]
      exact constraint
  · rename_i replaced
    cases isKind : StubKind.ofOpcode? instruction.opcode before.constraint? with
    | none =>
        rw [isKind] at ran
        exact absurd ran refuse_ne_ok
    | some kind =>
        rw [isKind] at ran
        obtain ⟨stub, asked, stubRan, ran⟩ := bind_ok ran
        obtain ⟨askedEmits, made, askedConstraint⟩ := emits_of_stubOf taken.invariant stubRan
        obtain ⟨dynamic, named, tokenRan, ran⟩ := bind_ok ran
        obtain ⟨namedEmits, stands, namedConstraint⟩ :=
          standsFor_of_stubToken askedEmits.invariant known made tokenRan
        obtain ⟨_, _, counted, ran⟩ := bind_ok ran
        obtain ⟨_, rfl⟩ := popCount_ok counted
        obtain ⟨emitted, afterEq⟩ := emitting_ok ran
        have emits := emits_of_emitting namedEmits.invariant ran
          (Encoder.appends_of_emitCall emitted)
        refine ⟨_, taken.trans (askedEmits.trans (namedEmits.trans emits)), ?_, ?_⟩
        · refine .stub operand known (Bool.eq_false_iff.mpr replaced) isKind
            (stands.mono emits.scope) fun isMarked => ?_
          simpa [isMarked] using prefixes
        · rw [waiting_of_callSite _ isCall, afterEq]
          exact namedConstraint.trans askedConstraint

/-! ## Other instructions -/

theorem argumentIndex?_lt {instruction : Instruction} {index : Nat}
    (isIndex : instruction.argumentIndex? = some index) : index < 0x10000 := by
  have operand (found : instruction.indexOperand? = some index) : index < 0x10000 := by
    unfold Instruction.indexOperand? at found
    split at found
    · rename_i byte _
      have := byte.toNat_lt
      cases found
      omega
    · rename_i word _
      cases found
      exact word.toNat_lt
    · rename_i word _
      cases found
      exact word.toNat_lt
    · rename_i word _
      cases found
      exact word.toNat_lt
    · cases found
  unfold Instruction.argumentIndex? at isIndex
  split at isIndex
  · cases isIndex; omega
  · cases isIndex; omega
  · cases isIndex; omega
  · cases isIndex; omega
  · exact operand isIndex
  · exact operand isIndex
  · exact operand isIndex
  · exact operand isIndex
  · exact operand isIndex
  · exact operand isIndex
  · cases isIndex

theorem argumentIndex?_of_access {instruction : Instruction} {access : ArgumentAccess}
    (wellRead : instruction.WellRead)
    (isAccess : instruction.opcode.argumentAccess? = some access) :
    ∃ index, instruction.argumentIndex? = some index := by
  have fits := wellRead.fits
  unfold Instruction.argumentIndex? Instruction.indexOperand?
  cases opcode : instruction.opcode <;> rw [opcode] at isAccess fits <;> try cases isAccess
  all_goals
    generalize instruction.operand = operand at fits ⊢
    cases fits
    exact ⟨_, rfl⟩

theorem becomes_of_emitArgument {instruction : Instruction} {access : ArgumentAccess}
    {index : Nat} (invariant : Invariant subject isolation before)
    (isAccess : instruction.opcode.argumentAccess? = some access)
    (isIndex : instruction.argumentIndex? = some index)
    (ran : emitArgument access index subject before = .ok result after) :
    Becomes subject isolation before after instruction := by
  obtain ⟨_, _, asked, ran⟩ := bind_ok ran
  obtain ⟨rfl, rfl⟩ := read_ok asked
  obtain ⟨mapped, _, mappedRan, ran⟩ := bind_ok ran
  obtain ⟨inside, rfl⟩ := ofExcept_ok mappedRan
  have sameIndex : (UInt16.ofNat mapped).toNat = index ∧ mapped = index := by
    unfold ArgumentLayout.map at inside
    split at inside
    · cases inside
      exact ⟨UInt16.toNat_ofNat_of_lt' (argumentIndex?_lt isIndex), rfl⟩
    · cases inside
  have waits : waiting before.constraint? instruction = before.constraint? := by
    unfold waiting
    split
    · rename_i opcode
      rw [opcode] at isAccess
      cases isAccess
    · simp [isAccess]
  have accessed {middle : Draft} {value : Unit} {action : EncoderM Unit}
      (ran : emitting action subject before = .ok value middle)
      (accesses : ∃ opcode operand, before.encoder.Appends middle.encoder [.plain opcode operand] ∧
        Accesses access (UInt16.ofNat mapped).toNat opcode operand) :
      ∃ opcode operand, Emits subject isolation before middle [.plain opcode operand] ∧
        Accesses access index opcode operand ∧ middle.constraint? = before.constraint? := by
    obtain ⟨opcode, operand, appends, accesses⟩ := accesses
    obtain ⟨_, middleEq⟩ := emitting_ok ran
    exact ⟨opcode, operand, emits_of_emitting invariant ran appends, sameIndex.1 ▸ accesses,
      by rw [middleEq]⟩
  obtain ⟨rfl⟩ : mapped = index := sameIndex.2
  cases access with
  | address =>
      obtain ⟨opcode, operand, emits, accesses, constraint⟩ := accessed ran
        (accesses_of_emitLoadArgumentAddress (emitting_ok ran).1)
      refine ⟨_, emits, ?_, constraint.trans waits.symm⟩
      exact .argument isAccess isIndex accesses
  | store =>
      obtain ⟨opcode, operand, emits, accesses, constraint⟩ := accessed ran
        (accesses_of_emitStoreArgument (emitting_ok ran).1)
      refine ⟨_, emits, ?_, constraint.trans waits.symm⟩
      exact .argument isAccess isIndex accesses
  | load =>
      obtain ⟨_, loaded, loadRan, ran⟩ := bind_ok ran
      obtain ⟨opcode, operand, emits, accesses, constraint⟩ := accessed loadRan
        (accesses_of_emitLoadArgument (emitting_ok loadRan).1)
      have piece {scope : Scope} : Piece subject isolation scope before.constraint? instruction
          (.plain opcode operand :: unboxing subject .load index) :=
        .argument isAccess isIndex accesses
      split at ran
      · rename_i boxed
        obtain ⟨isReceiver, unboxes⟩ : index = 0 ∧ subject.unboxesReceiver := by
          simpa using boxed
        obtain ⟨emitted, afterEq⟩ := emitting_ok ran
        have unboxed := emits.trans (emits_of_emitting emits.invariant ran
          (Encoder.appends_of_emit emitted))
        rw [unboxing, if_pos ⟨rfl, isReceiver, unboxes⟩] at piece
        exact ⟨_, unboxed, piece, by rw [afterEq, waits]; exact constraint⟩
      · rename_i direct
        obtain ⟨_, rfl⟩ := pure_eq_ok.mp ran
        rw [unboxing, if_neg (by simpa using direct)] at piece
        exact ⟨_, emits, piece, constraint.trans waits.symm⟩

theorem becomes_of_emitIndirectCall {instruction : Instruction}
    (invariant : Invariant subject isolation before) (isIndirect : instruction.opcode = .calli)
    (ran : emitIndirectCall instruction subject before = .ok result after) :
    Becomes subject isolation before after instruction := by
  obtain ⟨token, _, named, ran⟩ := bind_ok ran
  obtain ⟨operand, rfl⟩ := tokenOf_ok named
  obtain ⟨_, _, asked, ran⟩ := bind_ok ran
  obtain ⟨rfl, rfl⟩ := read_ok asked
  obtain ⟨signature, _, found, ran⟩ := bind_ok ran
  obtain ⟨_, rfl⟩ := ofExcept_ok found
  cases signature with
  | locals slots => exact absurd ran refuse_ne_ok
  | method site =>
      obtain ⟨_, _, counted, ran⟩ := bind_ok ran
      obtain ⟨_, rfl⟩ := popCount_ok counted
      obtain ⟨emitted, afterEq⟩ := emitting_ok ran
      have emits := emits_of_emitting invariant ran
        (Encoder.appends_of_emitCall emitted)
      refine ⟨[.plain .calli (.token token)], emits, ?_, ?_⟩
      · rw [← operand, ← isIndirect]
        exact .plain (by rw [isIndirect]; rfl) (by rw [isIndirect]; rfl)
          (by rw [isIndirect]; rfl) (by rw [isIndirect]; rfl) fun _ => isIndirect
      · rw [afterEq, waiting, if_neg (by simp [isIndirect]), if_pos (by simp [isIndirect])]

/-- A single branch that has a target has one. -/
theorem targets_of_head? {instruction : Instruction} {target : Nat}
    (wellRead : instruction.WellRead) (isBranch : instruction.opcode.flow ≠ .switch)
    (leads : instruction.targets.head? = some target) : instruction.targets = [target] := by
  rw [wellRead.targets] at leads ⊢
  unfold Instruction.targetsOf at leads ⊢
  cases operand : instruction.operand with
  | immediate value =>
      rw [operand] at leads
      dsimp only at leads ⊢
      split at leads
      · cases leads
        rename_i single
        rw [if_pos single]
      · cases leads
  | switch displacements =>
      rw [operand] at leads
      simp [isBranch] at leads
  | _ =>
      rw [operand] at leads
      cases leads

/-- A branch is emitted in its long form to its target. -/
theorem exists_of_emitLongBranch {instruction : Instruction}
    (ran : (match instruction.opcode.longForm?, instruction.targets.head? with
      | none, _ => refuse instruction (.noLongForm instruction.mnemonic)
      | _, none => refuse instruction (.noTarget instruction.mnemonic)
      | some opcode, some target => emitting (Encoder.emitBranch opcode (labelAt target)))
        subject before = .ok result after) :
    ∃ long target, instruction.opcode.longForm? = some long ∧
      instruction.targets.head? = some target ∧
      emitting (Encoder.emitBranch long (labelAt target)) subject before = .ok result after := by
  cases isLong : instruction.opcode.longForm? with
  | none =>
      rw [isLong] at ran
      exact absurd ran refuse_ne_ok
  | some long =>
      cases leads : instruction.targets.head? with
      | none =>
          rw [isLong, leads] at ran
          exact absurd ran refuse_ne_ok
      | some target =>
          rw [isLong, leads] at ran
          exact ⟨long, target, rfl, rfl, ran⟩

theorem becomes_of_emitPlain {instruction : Instruction} (wellRead : instruction.WellRead)
    (invariant : Invariant subject isolation before)
    (noArgument : instruction.opcode.argumentAccess? = none)
    (kept : isDropped instruction.opcode = false) (noCall : isCallSite instruction.opcode = false)
    (direct : instruction.opcode ≠ .calli)
    (ran : emitPlain instruction subject before = .ok result after) :
    Becomes subject isolation before after instruction := by
  obtain ⟨constraint?, taken, take, ran⟩ := bind_ok ran
  obtain ⟨constraintEq, rfl⟩ := takeConstraint_ok take
  cases constraint? with
  | some constraint =>
      obtain ⟨_, _, failed, _⟩ := bind_ok ran
      exact absurd failed refuse_ne_ok
  | none =>
      dsimp only at ran
      have taken : Emits subject isolation before { before with constraint? := none } [] :=
        .of_same invariant rfl rfl rfl rfl
      have waits : waiting before.constraint? instruction = none := by
        rw [constraintEq, waiting]
        unfold isDropped at kept
        simp_all
      have emitted {action : EncoderM Unit} {item : Emitted}
          (ran : emitting action subject { before with constraint? := none } = .ok result after)
          (appends : before.encoder.Appends after.encoder [item])
          (piece : ∀ scope, Piece subject isolation scope none instruction [item]) :
          Becomes subject isolation before after instruction := by
        obtain ⟨_, afterEq⟩ := emitting_ok ran
        refine ⟨_, taken.trans (emits_of_emitting taken.invariant ran appends), ?_, ?_⟩
        · rw [constraintEq]
          exact piece _
        · rw [waits, afterEq]
      -- All branches but a switch have one target.
      have branch {long : Opcode} {target : Nat} (notSwitch : instruction.opcode.flow ≠ .switch)
          (isLong : instruction.opcode.longForm? = some long)
          (leads : instruction.targets.head? = some target)
          (ran : emitting (Encoder.emitBranch long (labelAt target)) subject
            { before with constraint? := none } = .ok result after) :
          Becomes subject isolation before after instruction :=
        emitted ran (Encoder.appends_of_emitBranch (emitting_ok ran).1)
          fun _ => .branch isLong (targets_of_head? wellRead notSwitch leads) rfl
      have plain (noBranch : instruction.opcode.flow.isBranch = false)
          (ran : emitting (Encoder.emitDecoded instruction) subject
            { before with constraint? := none } = .ok result after) :
          Becomes subject isolation before after instruction :=
        emitted ran (Encoder.appends_of_emitDecoded wellRead.fits (emitting_ok ran).1)
          fun _ => .plain noArgument kept noCall noBranch (by simp)
      cases flow : instruction.opcode.flow with
      | switch =>
          rw [flow] at ran
          exact emitted ran (Encoder.appends_of_emitSwitch (emitting_ok ran).1) fun _ =>
            .switch flow rfl
      | conditionalBranch | unconditionalBranch | leave =>
          rw [flow] at ran
          obtain ⟨long, target, isLong, leads, ran⟩ := exists_of_emitLongBranch ran
          exact branch (by simp [flow]) isLong leads ran
      | _ => rw [flow] at ran; exact plain (by rw [flow]; rfl) ran

/-- A step emits the piece that the instruction becomes. -/
theorem becomes_of_emitInstruction {instruction : Instruction} (wellRead : instruction.WellRead)
    (invariant : Invariant subject isolation before)
    (ran : emitInstruction instruction subject before = .ok result after) :
    Becomes subject isolation before after instruction := by
  unfold emitInstruction at ran
  cases isAccess : instruction.opcode.argumentAccess? with
  | some access =>
      obtain ⟨index, isIndex⟩ := argumentIndex?_of_access wellRead isAccess
      rw [isAccess, isIndex] at ran
      exact becomes_of_emitArgument invariant isAccess isIndex ran
  | none =>
      rw [isAccess] at ran
      have other (kept : isDropped instruction.opcode = false)
          (noCall : isCallSite instruction.opcode = false) (direct : instruction.opcode ≠ .calli)
          (ran : emitPlain instruction subject before = .ok result after) :=
        becomes_of_emitPlain wellRead invariant isAccess kept noCall direct ran
      cases opcode : instruction.opcode <;> rw [opcode] at ran
      case constrained =>
        obtain ⟨token, _, named, ran⟩ := bind_ok ran
        obtain ⟨operand, rfl⟩ := tokenOf_ok named
        obtain rfl := modify_eq_ok.mp ran
        refine ⟨[], .of_same invariant rfl rfl rfl rfl, .dropped (by rw [opcode]; rfl), ?_⟩
        rw [waiting, if_pos opcode, Instruction.token?, operand]
      case tail =>
        obtain ⟨_, rfl⟩ := pure_eq_ok.mp ran
        refine ⟨[], .refl invariant, .dropped (by rw [opcode]; rfl), ?_⟩
        simp [waiting, opcode]
      case call => exact becomes_of_emitCallSite invariant (by rw [opcode]; rfl) ran
      case callvirt => exact becomes_of_emitCallSite invariant (by rw [opcode]; rfl) ran
      case newobj => exact becomes_of_emitCallSite invariant (by rw [opcode]; rfl) ran
      case ldftn => exact becomes_of_emitCallSite invariant (by rw [opcode]; rfl) ran
      case ldvirtftn => exact becomes_of_emitCallSite invariant (by rw [opcode]; rfl) ran
      case calli => exact becomes_of_emitIndirectCall invariant opcode ran
      case jmp => exact absurd ran refuse_ne_ok
      case arglist => exact absurd ran refuse_ne_ok
      case mkrefany => exact absurd ran refuse_ne_ok
      case refanyval => exact absurd ran refuse_ne_ok
      case refanytype => exact absurd ran refuse_ne_ok
      all_goals
        rw [opcode] at other
        exact other rfl rfl (by simp) ran

end Steps

end Instrumentation

end Cil
