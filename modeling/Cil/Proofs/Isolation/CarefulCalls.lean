import Cil.Proofs.Isolation.Discipline
import Cil.Proofs.Isolation.ReceiverPassing
import Cil.Proofs.Machine.Mirroring

/-!
# Calls that the care lets pass

Where a disciplined run goes on, its calls keep to what a stub does: a virtual call has an object
or an address that leads to one as its receiver, a body that takes a box gets one, and what a
delegate is bound to is what a virtual call of it runs.
-/

namespace Cil

open Stateful
open MonadExcept (ofExcept)

namespace Exec

variable {α : Type} {context : Context} {machine middle final : Machine}

/-- Whatever a question answers, it is yes. -/
def Allows (question : Exec Bool) (context : Context) (machine : Machine) : Prop :=
  ∀ answer final, question context machine = .ok answer final → answer = true

theorem allows_of_answerOr {question : Exec Bool}
    (goesOn : answerOr true question context machine = true) :
    Allows question context machine := by
  intro answer final asked
  unfold answerOr at goesOn
  rw [asked] at goesOn
  exact goesOn

theorem asked_of_answerOr {question : Exec Bool}
    (goesOn : answerOr false question context machine = true) :
    ∃ final, question context machine = .ok true final := by
  unfold answerOr at goesOn
  cases asked : question context machine with
  | ok answer final =>
      rw [asked] at goesOn
      exact ⟨final, goesOn ▸ rfl⟩
  | error error final =>
      rw [asked] at goesOn
      cases goesOn

namespace Allows

theorem after {first : Exec α} {next : α → Exec Bool} {value : α}
    (allows : Allows (first >>= next) context machine)
    (ran : first context machine = .ok value middle) : Allows (next value) context middle :=
  fun answer final asked => allows answer final (by rw [bind_of_ok ran, asked])

theorem answer {answer : Bool} (allows : Allows (pure answer) context machine) : answer = true :=
  allows answer machine rfl

end Allows

theorem ran_of_succeeds {action : Exec α} (success : succeeds action context machine = true) :
    ∃ value final, action context machine = .ok value final := by
  unfold succeeds at success
  cases ran : action context machine with
  | ok value final => exact ⟨value, final, rfl⟩
  | error error final =>
      rw [ran] at success
      cases success

/-! ## Virtual calls -/

variable {constraint? : Option Token} {method : MethodDef} {receiver : Value}

theorem receiverType?_ok {type? : Option Token}
    (ran : receiverType? receiver context machine = .ok type? final) : machine = final := by
  unfold receiverType? at ran
  cases receiver with
  | pointer location =>
      obtain ⟨value, _, loaded, typed⟩ := bind_ok_iff.mp ran
      obtain ⟨_, rfl⟩ := holds_of_load loaded
      exact runtimeType?_ok typed
  | _ => exact runtimeType?_ok ran

/-- What a virtual call runs is the method itself, or what it resolves to. -/
theorem target?_cases {given : Value} {target? : Option MethodDef}
    (ran : (Plan.virtual given).target? method context machine = .ok target? final) :
    machine = final ∧ ∀ target, target? = some target →
      target = method ∨ ∃ type, context.module.resolveVirtual type method = .ok target := by
  unfold Plan.target? at ran
  dsimp only at ran
  by_cases isNull : given.isNull = true
  · rw [if_pos isNull] at ran
    obtain ⟨rfl, rfl⟩ := pure_ok_iff.mp ran
    exact ⟨rfl, nofun⟩
  rw [if_neg isNull] at ran
  obtain ⟨type?, _, typed, ran⟩ := bind_ok_iff.mp ran
  obtain rfl := receiverType?_ok typed
  cases type? with
  | none =>
      obtain ⟨rfl, rfl⟩ := pure_ok_iff.mp ran
      exact ⟨rfl, fun target same => .inl (Option.some.inj same).symm⟩
  | some type =>
      obtain ⟨module, _, isModule, ran⟩ := bind_ok_iff.mp ran
      cases isModule
      obtain ⟨resolved, _, found, ran⟩ := bind_ok_iff.mp ran
      obtain ⟨isResolved, rfl⟩ := ofExcept_ok_iff.mp found
      obtain ⟨rfl, rfl⟩ := pure_ok_iff.mp ran
      exact ⟨rfl, fun target same => .inr ⟨type, Option.some.inj same ▸ isResolved⟩⟩

/-- A plan to call a type's own method is for a resolved one. -/
theorem resolved_of_planned {target : MethodDef}
    (plans : planned constraint? method receiver context machine = .ok (.own target) middle) :
    ∃ type, context.module.resolveVirtual type method = .ok target := by
  cases constraint? with
  | none => cases plans
  | some constraint =>
  cases receiver with
  | pointer location =>
      obtain ⟨module, _, isModule, plans⟩ := bind_ok_iff.mp plans
      cases isModule
      by_cases isValueType : context.module.isValueType constraint = true
      · rw [isValueType] at plans
        obtain ⟨resolved, _, found, plans⟩ := bind_ok_iff.mp plans
        by_cases own : resolved.declaringType = constraint
        · rw [if_pos own] at plans
          cases plans
          exact ⟨_, (ofExcept_ok_iff.mp found).1⟩
        · rw [if_neg own] at plans
          obtain ⟨_, _, _, plans⟩ := bind_ok_iff.mp plans
          obtain ⟨_, _, _, plans⟩ := bind_ok_iff.mp plans
          cases plans
      · rw [Bool.not_eq_true] at isValueType
        rw [isValueType] at plans
        obtain ⟨_, _, _, plans⟩ := bind_ok_iff.mp plans
        cases plans
  | _ => cases plans

/-- A virtual call passes its receiver on as a stub does. -/
structure PassesPlainly (context : Context) (machine : Machine) (constraint? : Option Token)
    (method : MethodDef) (receiver : Value) : Prop where
  own {target : MethodDef} {middle : Machine} :
    planned constraint? method receiver context machine = .ok (.own target) middle →
      ∃ known?, receiverOf? receiver context middle = .ok known? middle
  object {given : Value} {middle : Machine} :
    planned constraint? method receiver context machine = .ok (.virtual given) middle →
      constraint?.isSome = true → given.isAddress = false
  notToNull {location : Pointer} {middle : Machine} :
    planned constraint? method receiver context machine =
        .ok (.virtual (.pointer location)) middle →
      load location context middle ≠ .ok .null middle
  box {given : Value} {target : MethodDef} {middle after : Machine} :
    planned constraint? method receiver context machine = .ok (.virtual given) middle →
      (Plan.virtual given).target? method context middle = .ok (some target) after →
      context.module.isInterface method.declaringType = true →
      context.module.isValueType target.declaringType = true →
        ∃ box, given = .object box ∧ after.heap.HoldsBox target.declaringType box

theorem holdsBox_of_isBoxOf {heap : Heap} {type : Token} {value : Value}
    (isBox : heap.isBoxOf type value = true) :
    ∃ box, value = .object box ∧ heap.HoldsBox type box := by
  unfold Heap.isBoxOf at isBox
  split at isBox
  · rename_i reference
    split at isBox
    · rename_i boxedType inside found
      obtain rfl := beq_iff_eq.mp isBox
      exact ⟨reference, rfl, inside, found⟩
    · cases isBox
  · cases isBox

/-- What has been checked where a virtual call has been planned. -/
theorem virtual_of_allows
    (allows : Allows (dispatchesPlainly constraint? method receiver) context machine)
    {given : Value} {middle : Machine}
    (plans : planned constraint? method receiver context machine = .ok (.virtual given) middle) :
    (constraint?.isSome && given.isAddress) = false ∧ leadsToNull given context middle = false ∧
      Allows (do
        match ← (Plan.virtual given).target? method with
        | none => return true
        | some target =>
          let module ← module
          if module.isInterface method.declaringType &&
              module.isValueType target.declaringType then
            return (← get).heap.isBoxOf target.declaringType given
          else return true) context middle := by
  have allowed := allows.after plans
  dsimp only at allowed
  by_cases both : (constraint?.isSome && given.isAddress) = true
  · rw [if_pos both] at allowed
    cases allowed.answer
  rw [if_neg both] at allowed
  have allowed := (allowed.after rfl).after rfl
  by_cases toNull : leadsToNull given context middle = true
  · rw [if_pos toNull] at allowed
    cases allowed.answer
  rw [if_neg toNull] at allowed
  exact ⟨by simpa using both, by simpa using toNull, allowed⟩

theorem passesPlainly_of_allows
    (allows : Allows (dispatchesPlainly constraint? method receiver) context machine) :
    PassesPlainly context machine constraint? method receiver := by
  have isVirtual {given : Value} {middle : Machine}
      (plans : planned constraint? method receiver context machine = .ok (.virtual given) middle) :=
    virtual_of_allows allows plans
  refine ⟨fun plans => ?_, fun plans isSome => ?_, fun {location middle} plans loaded => ?_,
    fun plans found isInterface isValueType => ?_⟩
  · have succeeded := (((allows.after plans).after rfl).after rfl).answer
    obtain ⟨known?, final, ran⟩ := ran_of_succeeds succeeded
    obtain ⟨rfl, _⟩ := receiverOf?_ok ran
    exact ⟨known?, ran⟩
  · simpa [isSome] using (isVirtual plans).1
  · have isNull : answerOr false (do return (← load location).isNull) context middle = false :=
      (isVirtual plans).2.1
    unfold answerOr at isNull
    rw [bind_of_ok loaded] at isNull
    cases isNull
  · obtain ⟨rfl, _⟩ := target?_cases found
    have allowed := (((isVirtual plans).2.2.after found).after module_run)
    rw [isInterface, isValueType] at allowed
    exact holdsBox_of_isBoxOf (allowed.after get_run).answer

/-! ## Delegates -/

/-- A virtual call of a method on a target runs that method, on a box if the method is one of a
value type. -/
structure RunsItself (context : Context) (machine : Machine) (definition : MethodDef)
    (target : Value) : Prop where
  isInstance : definition.isStatic = false
  finds : (Plan.virtual target).target? definition context machine = .ok (some definition) machine
  box : context.module.isValueType definition.declaringType = true →
    ∃ box, target = .object box ∧ machine.heap.HoldsBox definition.declaringType box

theorem runsItself_of_bindsItself {definition : MethodDef} {target : Value}
    (asked : bindsItself definition target context machine = .ok true final) :
    RunsItself context machine definition target := by
  unfold bindsItself at asked
  dsimp only at asked
  by_cases excluded : (definition.isStatic || target.isNull) = true
  · rw [if_pos excluded] at asked
    cases asked
  rw [if_neg excluded] at asked
  simp only [Bool.or_eq_true, not_or, Bool.not_eq_true] at excluded
  obtain ⟨module, _, isModule, asked⟩ := bind_ok_iff.mp asked
  cases isModule
  obtain ⟨type?, _, typed, asked⟩ := bind_ok_iff.mp asked
  obtain rfl := receiverType?_ok typed
  cases type? with
  | none =>
      obtain ⟨isReference, _⟩ := pure_ok_iff.mp asked
      refine ⟨excluded.1, ?_, fun isValueType => by simp [isValueType] at isReference⟩
      simp only [Plan.target?, excluded.2, Bool.false_eq_true, if_false]
      rw [bind_of_ok typed]
      rfl
  | some type =>
      obtain ⟨resolved, _, found, asked⟩ := bind_ok_iff.mp asked
      obtain ⟨isResolved, rfl⟩ := ofExcept_ok_iff.mp found
      rw [bind_of_ok get_run] at asked
      obtain ⟨answer, _⟩ := pure_ok_iff.mp asked
      simp only [Bool.and_eq_true, beq_iff_eq, Bool.or_eq_true, Bool.not_eq_true'] at answer
      obtain ⟨rfl, boxed⟩ := answer
      refine ⟨excluded.1, ?_, fun isValueType => ?_⟩
      · simp only [Plan.target?, excluded.2, Bool.false_eq_true, if_false]
        rw [bind_of_ok typed]
        dsimp only
        rw [bind_of_ok module_run, isResolved]
        rfl
      · exact holdsBox_of_isBoxOf (boxed.resolve_left (by simp [isValueType]))

/-- What the care has found where it lets a delegate be invoked that is bound to a method. -/
structure StandsForItself (context : Context) (machine : Machine) (definition : MethodDef)
    (target : Value) : Prop where
  spared : machine.sparesValue target = true
  given : (definition.isStatic || !target.isNull) = true
  runs : definition.isVirtual = true → RunsItself context machine definition target

theorem standsForItself_of_allows {reference : HeapRef} {type : Token} {target : Value}
    {pointer : FunctionPointer} {definition : MethodDef}
    (allows : Allows (standsForItself reference) context machine)
    (live : machine.heap.get reference = .ok (.delegate type target pointer))
    (bound : machine.function pointer = .ok (.method definition)) :
    StandsForItself context machine definition target := by
  have allowed := (allows.after (readHeap_of_ok live)).after get_run
  rw [bound] at allowed
  have answer := (((allowed.after (ofExcept_ok_run _)).after rfl).after get_run).answer
  simp only [Bool.and_eq_true, Bool.or_eq_true, Bool.not_eq_true'] at answer
  obtain ⟨⟨spared, given⟩, itself⟩ := answer
  refine ⟨spared, by simpa using given, fun isVirtual => ?_⟩
  obtain ⟨final, asked⟩ := asked_of_answerOr (itself.resolve_left (by simp [isVirtual]))
  exact runsItself_of_bindsItself asked

/-- What the care has found where it lets a call through a function pointer pass. -/
theorem bindsBox_of_allows {pointer : FunctionPointer} {rest : List Value} {definition : MethodDef}
    (allows : Allows (bindsNoBox (.function pointer :: rest)) context machine)
    (bound : machine.function pointer = .ok (.method definition)) :
    context.module.bindsBox definition = false := by
  have allowed := allows.after get_run
  rw [bound] at allowed
  simpa using ((allowed.after (ofExcept_ok_run _)).after module_run).answer

end Exec

end Cil
