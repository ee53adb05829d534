import Cil.Isolation.Isolate
import Cil.Proofs.LongWalks
import Cil.Proofs.Machine.LimitedCode
import Cil.Proofs.Metadata.Zeros

/-!
# Limited runs

A run with limits ends before the bounds of the machine are used up.  It executes no more
instructions than its limit allows for, and where more would be executed it ends with that
limit.  The one thing that the limits do not bound is the display of a box that leads back to
itself.
-/

namespace Cil

open Stateful
open MonadExcept (ofExcept)

namespace Exec

variable {module : Module} {limits longer : Limits} {depth least : Nat} {machine : Machine}

/-! ## Displaying boxes -/

theorem inBox?_eq_some {heap : Heap} {value payload : Value} :
    heap.inBox? value = some payload ↔ ∃ reference type, value = .object reference ∧
      heap.object? reference = some (.boxed type payload) ∧ type ≠ Core.boolean ∧
        type ≠ Core.char := by
  unfold Heap.inBox?
  split
  · rename_i reference
    split
    · rename_i type found present
      simp [present, and_assoc]
      grind
    · rename_i other
      grind
  · grind

/-- A box is displayed as the value that is in it. -/
theorem displayOf_inBox (inside : Value → Exec (Option String)) {value payload : Value}
    {context : Context} (boxed : machine.heap.inBox? value = some payload) :
    displayOf inside value context machine = inside payload context machine := by
  obtain ⟨reference, type, rfl, present, notBoolean, notChar⟩ := inBox?_eq_some.mp boxed
  have found : machine.heap.get reference = .ok (.boxed type payload) := by
    rw [Heap.get, present]
  rw [displayOf, bind_of_ok (readHeap_of_ok found)]
  dsimp only
  rw [if_neg notBoolean, if_neg notChar]

/-- What is not such a box is displayed on its own. -/
theorem displayOf_eq (inside other : Value → Exec (Option String)) {value : Value}
    (plain : machine.heap.inBox? value = none) :
    displayOf inside value ⟨module, limits⟩ machine =
      displayOf other value ⟨module, longer⟩ machine := by
  cases value with
  | object reference =>
      rw [displayOf, displayOf, bind_run, bind_run,
        ((Steady.readHeap (·.get reference)).unmetered module limits longer machine).1]
      cases read : readHeap (·.get reference) ⟨module, limits⟩ machine with
      | error error final => rfl
      | ok object final =>
          obtain ⟨found, rfl⟩ := readHeap_ok_iff.mp read
          cases object with
          | boxed type payload =>
              dsimp only
              by_cases boolean : type = Core.boolean
              · rw [if_pos boolean, if_pos boolean]
                rfl
              by_cases char : type = Core.char
              · rw [if_neg boolean, if_neg boolean, if_pos char, if_pos char]
                cases payload.asInt32 <;> rfl
              · have boxed : machine.heap.inBox? (.object reference) = some payload := by
                  refine inBox?_eq_some.mpr ⟨reference, type, rfl, ?_, boolean, char⟩
                  rw [Heap.get] at found
                  split at found <;> grind
                rw [plain] at boxed
                cases boxed
          | _ => rfl
  | _ => rfl

/-- A display that uses up its steps has gone from box to box. -/
theorem displayWithin_eq_or_walks (beyond : Beyond) (steps : Nat) (value : Value) :
    beyond.displayWithin steps value ⟨module, longer⟩ machine =
        displayWithin steps value ⟨module, limits⟩ machine ∨
      displayWithin steps value ⟨module, limits⟩ machine = .error .outOfFuel machine ∧
        Walks (fun outer inner => machine.heap.inBox? outer = some inner) steps value := by
  induction steps generalizing value with
  | zero => exact .inr ⟨rfl, trivial⟩
  | succ steps ih =>
      rw [displayWithin_succ, Beyond.displayWithin]
      cases boxed : machine.heap.inBox? value with
      | none => exact .inl (displayOf_eq _ _ boxed)
      | some payload =>
          rw [displayOf_inBox _ boxed, displayOf_inBox _ boxed]
          exact (ih payload).imp_right (.imp_right fun walks => ⟨payload, boxed, walks⟩)

/-- Going through more boxes than there are on the heap never ends. -/
theorem endless_of_boxes {heap : Heap} {value : Value}
    (walks : Walks (fun outer inner => heap.inBox? outer = some inner) (heap.count + 2) value) :
    heap.Endless value := by
  have inside (outer inner : Value) (boxed : heap.inBox? outer = some inner) :
      outer.place < heap.count + 1 := by
    obtain ⟨reference, type, rfl, present, _⟩ := inBox?_eq_some.mp boxed
    exact Nat.lt_succ_of_lt (Heap.place_of_object? present).2
  have apart (outer inner other after : Value) (boxed : heap.inBox? outer = some inner)
      (otherBoxed : heap.inBox? other = some after) (same : outer.place = other.place) :
      outer = other := by
    obtain ⟨reference, _, rfl, present, _⟩ := inBox?_eq_some.mp boxed
    obtain ⟨otherReference, _, rfl, otherPresent, _⟩ := inBox?_eq_some.mp otherBoxed
    rw [(Heap.place_of_object? present).1, (Heap.place_of_object? otherPresent).1, same]
  exact endless_of_walks inside apart walks

/-- The display of a value that leads from box to box for ever needs more than any number of
steps. -/
theorem displayWithin_of_endless {value : Value} (endless : machine.heap.Endless value)
    (steps : Nat) (context : Context) :
    displayWithin steps value context machine = .error .outOfFuel machine := by
  have walks := endless steps
  clear endless
  induction steps generalizing value with
  | zero => rfl
  | succ steps ih =>
      obtain ⟨payload, boxed, rest⟩ := walks
      rw [displayWithin_succ, displayOf_inBox _ boxed]
      exact ih rest

theorem metered_display (beyond : Beyond) (value : Value) :
    Metered module limits longer depth least (display value) (beyond.displayed value) := by
  intro machine enough within stands
  have kept : Metered module limits longer depth least (display value) (display value) :=
    .steady (steady_display value)
  have shown : beyond.displayed value ⟨module, longer⟩ machine =
        display value ⟨module, limits⟩ machine ∨
      display value ⟨module, limits⟩ machine = .error .outOfFuel machine ∧
        Walks (fun outer inner => machine.heap.inBox? outer = some inner)
          (machine.heap.count + 2) value :=
    displayWithin_eq_or_walks beyond _ value
  rcases shown with same | ⟨failed, walks⟩
  · cases kept machine enough within stands with
    | same _ later within depth => exact .same same later within depth
    | cut failed spent => exact .cut failed spent
    | looped failed within endless => exact .looped failed within endless
  · exact .looped failed within ⟨value, endless_of_boxes walks⟩

/-! ## Activations -/

theorem metered_textOf {first second : Value → Exec (Option String)}
    (shown : ∀ value, Metered module limits longer depth least (first value) (second value))
    (arguments : List Value) :
    Metered module limits longer depth least (textOf first arguments)
      (textOf second arguments) := by
  have texts (receiver : Value) : Metered module limits longer depth least
      (do newText (← first receiver)) (do newText (← second receiver)) := by
    refine .bind (shown receiver) fun text? => ?_
    cases text? with
    | some text => exact .steady (steady_newString _)
    | none => exact .steady steady_nullReference
  refine .bind (.steady (steady_argument _ _)) fun receiver => ?_
  cases receiver with
  | pointer location => exact .bind (.steady (steady_load _)) texts
  | _ => exact .bind (.steady (.pure _)) texts

variable {run other : Runner}

theorem metered_runNative (beyond : Beyond)
    (runs : ∀ activation, Metered module limits longer depth least (run activation)
      (other activation)) (body : NativeBody) (arguments : List Value) :
    Metered module limits longer depth least (runNative run body arguments)
      (beyond.runNative other body arguments) := by
  cases body with
  | core operation =>
      by_cases shows : operation = .toString
      · subst shows
        exact metered_textOf (metered_display beyond) arguments
      · have same : beyond.runCore other operation arguments =
            runCore other operation arguments := by
          cases operation with
          | toString => exact absurd rfl shows
          | _ => rfl
        change Metered module limits longer depth least (runCore run operation arguments)
          (beyond.runCore other operation arguments)
        rw [same]
        exact congruence_metered.runCore runs _ _
  | stub site => exact congruence_metered.runStub runs site _
  | host program => exact congruence_metered.runProgram runs _

/-- The calls that are left cover the calls that may still nest. -/
theorem metered_activate (bounded : limits.Within longer) {beyond : Beyond}
    (rounds : limits.rounds ≤ beyond.rounds longer) {calls more : Nat}
    (left : limits.callDepth + 2 ≤ depth + calls) (le : calls ≤ more)
    (shallow : depth ≤ limits.callDepth) (activation : Activation) :
    Metered module limits longer depth 0 (activate calls activation)
      (beyond.activateWithin more activation) := by
  induction calls generalizing depth more activation with
  | zero => omega
  | succ calls ih =>
      obtain ⟨more, rfl⟩ : ∃ fewer, more = fewer + 1 := ⟨more - 1, by omega⟩
      have inner (deeper : depth < limits.callDepth) (activation : Activation) :
          Metered module limits longer (depth + 1) 0 (activate calls activation)
            (beyond.activateWithin more activation) :=
        ih (by omega) (by omega) deeper activation
      cases activation with
      | native provided arguments =>
          exact metered_asCall bounded fun deeper => metered_runNative beyond (inner deeper) _ _
      | code code scope arguments =>
          refine metered_asCall bounded fun deeper => metered_inFrame fun frame => ?_
          have enough : limits.instructions + 2 ≤ 0 + limits.rounds := by
            have := bounded.instructions
            unfold Limits.rounds
            split <;> omega
          exact metered_executeFrom
            (metered_execute bounded beyond (inner deeper) code scope frame enough rounds) code

/-! ## Threads -/

theorem metered_runToEnd (bounded : limits.Within longer) {beyond : Beyond}
    (rounds : limits.rounds ≤ beyond.rounds longer) (calls : limits.calls ≤ beyond.calls longer)
    (callable : Callable) (arguments : List Value) :
    Metered module limits longer 0 0 (runToEnd callable arguments)
      (runToEndIn beyond.runner callable arguments) := by
  have enough : limits.callDepth + 2 ≤ 0 + limits.calls := by
    have := bounded.callDepth
    unfold Limits.calls
    split <;> omega
  have runs (activation : Activation) : Metered module limits longer 0 0
      (activate limits.calls activation) (beyond.activateWithin (beyond.calls longer) activation) :=
    metered_activate bounded rounds enough calls (Nat.zero_le _) activation
  have called : Metered module limits longer 0 0
      (do invoke (← (return activate (← read).limits.calls : Exec Runner)) callable arguments)
      (do invoke (← beyond.runner) callable arguments) :=
    fun machine => congruence_metered.invoke runs callable arguments machine
  rw [runToEnd_eq]
  refine .bind (.catchThrown called) fun outcome => ?_
  cases outcome with
  | ok value => exact .steady (.pure _)
  | error exception =>
      exact .steady (.bind (steady_describeException exception) fun _ => .throw _)

/-- A thread ends like the action on it. -/
theorem onThread_of_metered {α : Type} {first second : Exec α}
    (metered : Metered module limits longer 0 0 first second) {machine final : Machine}
    {outcome : Except Error α}
    (ran : machine.onThread module limits first = (outcome, final)) :
    machine.onThread module longer second = (outcome, final) ∧
        final.executed ≤ limits.instructions ∨
      outcome = .error (.instructionLimit limits.instructions) ∧
        final.executed = limits.instructions + 1 ∨
      outcome = .error .outOfFuel ∧ final.executed ≤ limits.instructions ∧
        ∃ value, final.heap.Endless value := by
  have ended := metered { machine with frames := #[], depth := 0, executed := 0 }
    (Nat.zero_le _) (Nat.zero_le _) rfl
  unfold Machine.onThread at ran ⊢
  dsimp only at ran ⊢
  cases ended with
  | cut failed spent =>
      rw [failed] at ran
      cases ran
      exact .inr (.inl ⟨rfl, spent⟩)
  | looped failed within endless =>
      rw [failed] at ran
      cases ran
      exact .inr (.inr ⟨rfl, within, endless⟩)
  | same same _ within _ =>
      rw [same, ran]
      refine .inl ⟨rfl, ?_⟩
      cases ended : first ⟨module, limits⟩
          { machine with frames := #[], depth := 0, executed := 0 } <;>
        rw [ended] at ran within <;> cases ran <;> exact within

end Exec

/-- The ways into a run: a method is called as it is, or in isolation. -/
inductive Entrance
  | plain (method : Token)
  | isolated (id : Nat) (method : Token)

namespace Entrance

open Exec

/-- What is called first. -/
def callable : Entrance → Exec Callable
  | plain method => return .method (← Exec.method method)
  | isolated id method => return .native (← stubOf id .call (← Exec.method method))

/-- The limits of the run. -/
def limits (machine : Machine) : Entrance → Limits
  | plain _ => machine.limits
  | isolated id _ => machine.runLimits id

/-- The run of the machine. -/
def run (machine : Machine) (module : Module) (arguments : List Value) :
    Entrance → Except Error Value × Machine
  | plain method => machine.invoke module method arguments
  | isolated id method => machine.invokeIsolated module id method arguments

/-- A run under other limits that goes on beyond the bounds of the machine. -/
def runBeyond (machine : Machine) (module : Module) (limits : Limits) (beyond : Beyond)
    (arguments : List Value) (entrance : Entrance) : Except Error Value × Machine :=
  machine.onThread module limits do
    runToEndIn beyond.runner (← entrance.callable) arguments

theorem runBeyond_machine (machine : Machine) (module : Module) (arguments : List Value)
    (entrance : Entrance) :
    entrance.runBeyond machine module (entrance.limits machine) .machine arguments =
      entrance.run machine module arguments := by
  cases entrance <;>
    simp only [runBeyond, callable, bind_assoc, pure_bind, Beyond.runToEnd_machine] <;> rfl

theorem metered_callable {module : Module} {limits longer : Limits} (entrance : Entrance) :
    Metered module limits longer 0 0 entrance.callable entrance.callable := by
  have named (token : Token) : Steady (method token) := .bind .module fun _ => .ofExcept _
  cases entrance with
  | plain token => exact .steady (.bind (named token) fun _ => .pure _)
  | isolated id token =>
      refine .bind (.steady (named token)) fun definition =>
        .bind (.bind (.steady (steady_runOf _)) fun isolation =>
          .bind (.steady .module) fun module => ?_) fun _ => .steady (.pure _)
      refine .of_unmetered (fun _ _ _ _ => ?_) fun _ => ?_ <;> unfold onRun <;>
        cases IsolationRun.stubOf module id .call definition isolation <;>
        first | rfl | exact ⟨rfl, rfl⟩

end Entrance

/-- Larger bounds, under limits that allow for at least as many instructions. -/
structure Beyond.Covers (beyond : Beyond) (limits longer : Limits) : Prop where
  depth : longer.callDepth = limits.callDepth
  instructions : longer.instructions = 0 ∨ limits.instructions ≤ longer.instructions
  rounds : limits.rounds ≤ beyond.rounds longer
  calls : limits.calls ≤ beyond.calls longer

theorem Beyond.machine_covers (limits : Limits) : Beyond.machine.Covers limits limits :=
  ⟨rfl, .inr (Nat.le_refl _), Nat.le_refl _, Nat.le_refl _⟩

theorem Beyond.Covers.run_ends {beyond : Beyond} {longer : Limits} {module : Module}
    {machine final : Machine} {entrance : Entrance} {arguments : List Value}
    {outcome : Except Error Value} (covers : beyond.Covers (entrance.limits machine) longer)
    (instructions : 0 < (entrance.limits machine).instructions)
    (callDepth : 0 < (entrance.limits machine).callDepth)
    (ran : entrance.run machine module arguments = (outcome, final)) :
    entrance.runBeyond machine module longer beyond arguments = (outcome, final) ∧
        final.executed ≤ (entrance.limits machine).instructions ∨
      outcome = .error (.instructionLimit (entrance.limits machine).instructions) ∧
        final.executed = (entrance.limits machine).instructions + 1 ∨
      outcome = .error .outOfFuel ∧ final.executed ≤ (entrance.limits machine).instructions ∧
        ∃ value, final.heap.Endless value := by
  have bounded : (entrance.limits machine).Within longer :=
    ⟨instructions, callDepth, covers.depth, covers.instructions⟩
  rw [← entrance.runBeyond_machine] at ran
  simp only [Entrance.runBeyond, Beyond.runToEnd_machine] at ran
  exact Exec.onThread_of_metered (.bind entrance.metered_callable fun callable =>
    Exec.metered_runToEnd bounded covers.rounds covers.calls callable arguments) ran

/-- Limits bound every run, where no value type contains itself.  Values have their zeros.  A run
ends alike however it would go on beyond the bounds of the machine, and under any longer limits;
where more instructions would be executed (the first of them is counted, but not executed), it
ends with the limit.  Only a display can use a bound up, the one of a box that leads from box to
box for ever. -/
theorem limits_bound_runs {module : Module} (reachable : module.Reachable)
    (acyclic : ∀ type, ¬Relation.TransGen module.Embeds type type) (machine : Machine)
    (entrance : Entrance) (instructions : 0 < (entrance.limits machine).instructions)
    (callDepth : 0 < (entrance.limits machine).callDepth) :
    (∀ signature, ∃ zero, module.zero signature = .ok zero) ∧
    ∀ arguments : List Value,
      ∃ outcome final, entrance.run machine module arguments = (outcome, final) ∧
        ((∀ (beyond : Beyond) (longer : Limits),
              beyond.Covers (entrance.limits machine) longer →
              entrance.runBeyond machine module longer beyond arguments = (outcome, final)) ∧
            final.executed ≤ (entrance.limits machine).instructions ∨
          outcome = .error (.instructionLimit (entrance.limits machine).instructions) ∧
            final.executed = (entrance.limits machine).instructions + 1 ∨
          outcome = .error .outOfFuel ∧
            final.executed ≤ (entrance.limits machine).instructions ∧
            ∃ value, final.heap.Endless value) := by
  refine ⟨reachable.exists_zero acyclic, fun arguments => ?_⟩
  rcases ran : entrance.run machine module arguments with ⟨outcome, final⟩
  have ends (beyond : Beyond) (longer : Limits)
      (covers : beyond.Covers (entrance.limits machine) longer) :=
    covers.run_ends instructions callDepth ran
  refine ⟨outcome, final, rfl, ?_⟩
  rcases ends .machine _ (Beyond.machine_covers _) with ⟨_, within⟩ | bounded
  · refine Classical.or_iff_not_imp_right.mpr fun unbounded =>
      ⟨fun beyond longer covers => ?_, within⟩
    rcases ends beyond longer covers with ⟨same, _⟩ | bounded
    · exact same
    · exact absurd bounded unbounded
  · exact .inr bounded

namespace Displaying

open Stateful

def declaration : MethodDeclaration :=
  { name := "Main", flags := MethodModifiers.isStatic, params := [.object] }

def main : Token := .ofRow .methodDef 26

/-- A module whose method has a body. -/
def moduleOf (body : List UInt8) : Module :=
  finalState (Module.setBody main body
    (finalState (Module.declareMethod (.ofRow .typeDef 18) declaration
      (finalState (Module.declareType { space := "Demo", name := "User" } Module.initial)))))

theorem moduleOf_reachable (body : List UInt8) : (moduleOf body).Reachable :=
  .setBody _ _ (.declareMethod _ _ (.declareType _ .initial))

def limits : Limits := { callDepth := 10, instructions := 50 }

def start (module : Module) : Machine := .ofModule module limits

def outcome (module : Module) : Except Error Value × Machine :=
  (Entrance.plain main).run (start module) module [.null]

def returnsVoid : Except Error Value → Bool
  | .ok .void => true
  | _ => false

/-- Displays a box once. -/
def once : Module :=
  moduleOf [0x36, 0x1B, 0x8C, 3, 0, 0, 2, 0x6F, 2, 0, 0, 6, 0x26, 0x2A]

/-- However the run would go on beyond the bounds of the machine, it returns. -/
theorem displays_box :
    once.Reachable ∧ (∀ type, ¬Relation.TransGen once.Embeds type type) ∧
    0 < limits.instructions ∧ 0 < limits.callDepth ∧
    ∀ beyond longer, beyond.Covers limits longer →
      returnsVoid ((Entrance.plain main).runBeyond (start once) once longer beyond [.null]).1 := by
  have reachable : once.Reachable := moduleOf_reachable _
  have acyclic : ∀ type, ¬Relation.TransGen once.Embeds type type :=
    Module.acyclic_of_fields (by decide +kernel)
  refine ⟨reachable, acyclic, by decide, by decide, fun beyond longer covers => ?_⟩
  have returned : returnsVoid (outcome once).1 := by decide +kernel
  obtain ⟨-, bound⟩ :=
    limits_bound_runs reachable acyclic (start once) (.plain main) (by decide) (by decide)
  obtain ⟨result, final, ran, ends⟩ := bound [.null]
  rw [outcome, ran] at returned
  rcases ends with ⟨same, _⟩ | ⟨rfl, _⟩ | ⟨rfl, _⟩
  · rw [same beyond longer covers]
    exact returned
  · cases returned
  · cases returned

/-- Puts a box into itself and displays it in a loop. -/
def nested : Module :=
  moduleOf [0x66, 0x1B, 0x8C, 3, 0, 0, 2, 0x10, 0, 0x02, 0x79, 3, 0, 0, 2, 0x02, 0x51,
    0x02, 0x6F, 2, 0, 0, 6, 0x26, 0x2B, 0xF7]

def ranOut : Except Error Value → Bool
  | .error .outOfFuel => true
  | _ => false

/-- Whether the first object is a box with itself in it. -/
def holdsItself (machine : Machine) : Bool :=
  match machine.heap.inBox? (.object ⟨1⟩) with
  | some (.object reference) => reference == ⟨1⟩
  | _ => false

/-- The bounds of the machine, beyond which values are displayed as an empty text. -/
def silent : Beyond :=
  { Beyond.machine with display := fun _ => return some "" }

/-- The limits do not bound the display of the box, which needs more than any number of
steps. -/
theorem displays_nested_box :
    nested.Reachable ∧ (∀ type, ¬Relation.TransGen nested.Embeds type type) ∧
    0 < limits.instructions ∧ 0 < limits.callDepth ∧
    (∃ value, ∀ steps context, Exec.displayWithin steps value context (outcome nested).2 =
      .error .outOfFuel (outcome nested).2) ∧
    ¬ ∀ arguments : List Value, ∃ result final,
      (Entrance.plain main).run (start nested) nested arguments = (result, final) ∧
      ((∀ (beyond : Beyond) (longer : Limits), beyond.Covers limits longer →
            (Entrance.plain main).runBeyond (start nested) nested longer beyond arguments =
              (result, final)) ∧
          final.executed ≤ limits.instructions ∨
        result = .error (.instructionLimit limits.instructions) ∧
          final.executed = limits.instructions + 1) := by
  refine ⟨moduleOf_reachable _, Module.acyclic_of_fields (by decide +kernel), by decide,
    by decide, ⟨.object ⟨1⟩, fun steps context => ?_⟩, fun bounded => ?_⟩
  · have itself : (outcome nested).2.heap.inBox? (.object ⟨1⟩) = some (.object ⟨1⟩) := by
      have held : holdsItself (outcome nested).2 := by decide +kernel
      unfold holdsItself at held
      split at held
      · rename_i boxed
        rw [boxed, eq_of_beq held]
      · cases held
    exact Exec.displayWithin_of_endless
      (fun steps => walks_of_cycle (.single itself) steps (.single itself)) steps context
  · have out : ranOut (outcome nested).1 := by decide +kernel
    have goesOn : ¬ranOut ((Entrance.plain main).runBeyond (start nested) nested limits silent
        [.null]).1 := by
      decide +kernel
    obtain ⟨result, final, ran, ends⟩ := bounded [.null]
    rw [outcome, ran] at out
    rcases ends with ⟨same, _⟩ | ⟨rfl, _⟩
    · have covers : silent.Covers limits limits :=
        ⟨rfl, .inr (Nat.le_refl _), Nat.le_refl _, Nat.le_refl _⟩
      rw [same silent limits covers] at goesOn
      exact goesOn out
    · cases out

end Displaying

end Cil
