import Cil.Proofs.Isolation.ParallelCalls

/-!
# What calls in a plain thread and in an isolated one

The instructions and the native methods that call something do the same in both threads, if the
care lets them pass: function pointers and delegates lead to methods in the one thread and to the
bodies that were made from them in the other.
-/

namespace Cil

open MonadExcept (ofExcept)

theorem Guises.SparesValue.append {standing : Guises} {value : Value}
    (spared : standing.SparesValue value) : SparesValue (standing ++ [Exec.plainGuise]) value := by
  cases value with
  | pointer location =>
      intro frame guise isRoot isGuise
      rw [List.getElem?_append] at isGuise
      split at isGuise
      · exact spared frame guise isRoot isGuise
      · obtain rfl := List.mem_singleton.mp (List.mem_of_getElem? isGuise)
        rfl
  | _ => trivial

namespace Exec

/-- What is asked either stops the plain thread, or the answer is yes. -/
theorem tallies_check {α β : Type} {values : α → β → Prop} {comparison : Comparison} {bond : Bond}
    {one : Machine} {stray : Error} (excused : comparison.ExcusesFirst stray)
    {answer : Context → Machine → Bool} {first : Exec α}
    {result : EStateM.Result Error Machine β}
    (tallies : answer comparison.first one = true →
      comparison.Tallies bond values (first comparison.first one) result) :
    comparison.Tallies bond values
      ((Care.check stray answer >>= fun _ => first) comparison.first one) result := by
  rw [bind_run, Care.check]
  by_cases goesOn : answer comparison.first one = true
  · rw [if_pos goesOn]
    exact tallies goesOn
  · rw [if_neg goesOn]
    exact .first excused

section Alike

variable {comparison : Comparison} {standing : Guises} {enclosure : Enclosure}
  {one two : Machine} (isolates : comparison.Isolates enclosure) {run other : Runner}
  (alike : comparison.RunsAlike enclosure run other) {arguments : List Value}

/-! ## Objects -/

/-- An object that is no instance of a value type is on the heap. -/
theorem exists_object_of_newObject {context : Context} {type : Token} {object : Value}
    {machine final : Machine} (isReference : context.module.isValueType type = false)
    (ran : newObject type context machine = .ok object final) :
    ∃ reference, object = .object reference := by
  obtain ⟨module, _, isModule, ran⟩ := bind_ok_iff.mp ran
  cases isModule
  rw [isReference] at ran
  obtain ⟨fields, _, _, ran⟩ := bind_ok_iff.mp ran
  obtain ⟨reference, _, _, ran⟩ := bind_ok_iff.mp ran
  cases ran
  exact ⟨reference, rfl⟩

section Constructors

variable {constructor : MethodDef}

/-- How an instance is made, if it is known how its slot or its object is constructed. -/
theorem tallies_constructBy (holds : (standing.bond enclosure.parallel).Holds one two)
    (first second : Value → Exec Value) (zeroOf : Module → Token → Except Error Value)
    (sameZero : comparison.first.module.isValueType constructor.declaringType = true →
      zeroOf comparison.first.module constructor.declaringType =
        comparison.first.module.zero (.valueType constructor.declaringType))
    (inSlot : comparison.Tally ((standing ++ [plainGuise]).bond enclosure.parallel) Eq
      (first (.pointer (.localSlot standing.length 0)))
      (second (.pointer (.localSlot standing.length 0))))
    (onHeap : ∀ reference, comparison.Tally (standing.bond enclosure.parallel) Eq
      (first (.object reference)) (second (.object reference))) :
    comparison.Tallies (standing.bond enclosure.parallel) Eq
      ((do
        let module ← module
        let type := constructor.declaringType
        if module.isValueType type then
          withTemporary (← ofExcept (module.zero (.valueType type))) fun location =>
            discard (first (.pointer location))
        else
          let object ← newObject type
          discard (first object)
          return object : Exec Value) comparison.first one)
      ((do
        let module ← module
        let type := constructor.declaringType
        if module.isValueType type then
          withTemporary (← ofExcept (zeroOf module type)) fun location =>
            discard (second (.pointer location))
        else
          let object ← newObject type
          discard (second object)
          return object : Exec Value) comparison.second two) := by
  rw [bind_of_ok module_run, bind_of_ok module_run, comparison.sameModule]
  by_cases isValueType : comparison.first.module.isValueType constructor.declaringType = true
  · rw [if_pos isValueType, if_pos isValueType, sameZero isValueType]
    exact Comparison.Tally.seq (.ofExcept _)
      (fun zero => tally_withTemporary zero (.discard inSlot)) _ _ holds
  · rw [if_neg isValueType, if_neg isValueType]
    refine (mirrored_newObject _ one two holds).seq_run fun object middle final after made => ?_
    obtain ⟨reference, rfl⟩ := exists_object_of_newObject (by simpa using isValueType) made
    exact Comparison.Tally.seq (.discard (onHeap reference)) (fun _ => .pure rfl) _ _ after

end Constructors

include isolates alike

theorem tally_construct {constructor : MethodDef} (knows : enclosure.module.Knows constructor)
    (spared : ∀ value ∈ arguments, standing.SparesValue value) :
    comparison.Tally (standing.bond enclosure.parallel) Eq (construct run constructor arguments)
      (construct other constructor arguments) := by
  intro one two holds
  refine tallies_constructBy holds (fun object => callMethod run constructor (object :: arguments))
    (fun object => callMethod other constructor (object :: arguments))
    (fun module type => module.zero (.valueType type)) (fun _ => rfl) ?_ fun reference => ?_
  · refine tally_callMethod isolates alike knows fun value member => ?_
    rcases List.mem_cons.mp member with rfl | member
    · exact fun _ _ isArgument => by cases isArgument
    · exact (spared value member).append
  · refine tally_callMethod isolates alike knows fun value member => ?_
    rcases List.mem_cons.mp member with rfl | member
    · trivial
    · exact spared value member

/-! ## Function pointers -/

variable (holds : (standing.bond enclosure.parallel).Holds one two)

include holds

/-- Both threads call what a function pointer is bound to. -/
theorem tallies_invoke {callable otherCallable : Callable}
    (binds : enclosure.Binds callable otherCallable)
    (noBox : ∀ definition, callable = .method definition →
      enclosure.module.bindsBox definition = false)
    (spared : ∀ value ∈ arguments, standing.SparesValue value) :
    comparison.Tallies (standing.bond enclosure.parallel) Eq
      (invoke run callable arguments comparison.first one)
      (invoke other otherCallable arguments comparison.second two) := by
  cases binds with
  | same knows => exact tally_callMethod isolates alike knows spared one two holds
  | rewritten knows rewrites =>
      refine tallies_callBody isolates alike knows holds rewrites (Heap.hands_self ?_ _)
      rw [Module.boxedOwner?, noBox _ rfl]
      rfl

theorem tallies_stepIndirectCall {instruction image : Instruction} {stack : List Value}
    (same : instruction.SameForm image) (spared : ∀ value ∈ stack, standing.SparesValue value)
    (allows : Allows (bindsNoBox stack) comparison.first one) :
    comparison.Tallies (standing.bond enclosure.parallel) Eq
      (stepIndirectCall run instruction stack comparison.first one)
      (stepIndirectCall other image stack comparison.second two) := by
  refine Comparison.Tally.seq_still (fun _ => .module) holds fun module _ => ?_
  refine Comparison.Tally.seq_still (fun _ => tally_tokenOperand same) holds fun token _ => ?_
  refine Comparison.Tally.seq_still (fun _ => .ofExcept _) holds fun signature _ => ?_
  cases signature with
  | locals slots => exact Comparison.Tallies.throw holds rfl (by simp [Error.kind])
  | method site =>
      refine Comparison.Tally.share_still (fun _ => tally_pop stack) holds ?_
      rintro ⟨value, rest⟩ rfl _
      cases value with
      | function pointer =>
          refine Comparison.Tally.share_still (fun _ => tally_popArguments _ rest) holds ?_
          rintro ⟨arguments, below⟩ ⟨_, isRest⟩ _
          dsimp only at isRest ⊢
          rw [bind_of_ok get_run, bind_of_ok get_run]
          rcases holds.2.function_cases pointer with
            ⟨error, missing, otherMissing⟩ | ⟨callable, otherCallable, found, otherFound, binds⟩
          · rw [missing, otherMissing]
            exact Comparison.Tally.throwSame error _ _ holds
          · rw [found, otherFound, bind_of_ok (ofExcept_ok_run _), bind_of_ok (ofExcept_ok_run _)]
            refine (tallies_invoke isolates alike holds binds (fun definition isMethod => ?_)
              fun value member => ?_).seq_run ?_
            · rw [isMethod] at found
              exact isolates.module ▸ bindsBox_of_allows allows found
            · refine spared value (List.mem_cons_of_mem _ ?_)
              rw [← isRest]
              simp [member]
            · intro result middle final after _
              exact .value rfl after
      | _ => exact Comparison.Tallies.throw holds rfl (by simp [Error.kind])

/-! ## Delegates -/

omit isolates alike holds in
/-- A delegate that is bound to a virtual method runs that method itself. -/
theorem callVirtual_run {context : Context} {machine : Machine} {definition : MethodDef}
    {target : Value} (runner : Runner) (runs : RunsItself context machine definition target) :
    callVirtual runner definition [target] context machine =
      callMethod runner definition
        [(Plan.virtual target).passed context.module definition target] context machine := by
  rw [callVirtual_eq runner definition target target [], Plan.run, bind_of_ok runs.finds]
  exact bind_of_ok module_run

omit isolates alike holds in
theorem hands_of_runsItself {context : Context} {machine : Machine} {definition : MethodDef}
    {target : Value} (isVirtual : definition.isVirtual = true)
    (runs : RunsItself context machine definition target) :
    machine.heap.Hands
      (context.module.boxedOwner? definition (context.module.bindsBox definition))
      [(Plan.virtual target).passed context.module definition target] [target] := by
  unfold Module.boxedOwner? Module.bindsBox Plan.passed
  by_cases isValueType : context.module.isValueType definition.declaringType = true
  · obtain ⟨box, rfl, holdsBox⟩ := runs.box isValueType
    rw [isValueType, isVirtual, runs.isInstance]
    exact ⟨box, [], holdsBox, rfl, rfl⟩
  · rw [Bool.not_eq_true] at isValueType
    rw [isValueType]
    rfl

/-- Both threads call what a delegate is bound to. -/
theorem tallies_invokeBound {callable otherCallable : Callable} {target : Value}
    (binds : enclosure.Binds callable otherCallable)
    (stands : ∀ definition, callable = .method definition →
      StandsForItself comparison.first one definition target) :
    comparison.Tallies (standing.bond enclosure.parallel) Eq
      ((let arguments := if callable.hasThis || !target.isNull then [target] else []
        match callable with
        | .method definition =>
          if definition.isVirtual then callVirtual run definition arguments
          else invoke run callable arguments
        | _ => invoke run callable arguments) comparison.first one)
      ((let arguments := if otherCallable.hasThis || !target.isNull then [target] else []
        match otherCallable with
        | .method definition =>
          if definition.isVirtual then callVirtual other definition arguments
          else invoke other otherCallable arguments
        | _ => invoke other otherCallable arguments) comparison.second two) := by
  cases binds with
  | @same definition knows =>
      have stands := stands definition rfl
      have spared (value : Value) (member : value ∈
          if (Callable.method definition).hasThis || !target.isNull then [target] else []) :
          standing.SparesValue value := by
        split at member
        · obtain rfl := List.mem_singleton.mp member
          exact holds.1.sparesValue stands.spared
        · cases member
      dsimp only
      split
      · exact tallies_virtualCall isolates alike holds knows none spared nofun
      · exact tally_callMethod isolates alike knows spared one two holds
  | @rewritten definition body knows rewrites =>
      have stands := stands definition rfl
      have given := stands.given
      -- The method takes a receiver that is not null, and the body takes what is not null.
      have sameArguments :
          (if (Callable.method definition).hasThis || !target.isNull then [target] else []) =
            if (Callable.dynamic body).hasThis || !target.isNull then [target] else [] := by
        unfold Callable.hasThis
        cases isStatic : definition.isStatic <;> simp_all
      dsimp only
      rw [sameArguments]
      split
      · rename_i isVirtual
        have runs := stands.runs isVirtual
        have notNull : ((Callable.dynamic body).hasThis || !target.isNull) = true := by
          simpa [Callable.hasThis, runs.isInstance] using given
        rw [if_pos notNull, callVirtual_run run runs]
        exact tallies_callBody isolates alike knows holds rewrites
          (isolates.module ▸ hands_of_runsItself isVirtual runs)
      · rename_i notVirtual
        refine tallies_callBody isolates alike knows holds rewrites (Heap.hands_self ?_ _)
        rw [Bool.not_eq_true] at notVirtual
        rw [Module.boxedOwner?, Module.bindsBox, notVirtual, Bool.and_false]
        rfl

theorem tallies_invokeDelegate {reference : HeapRef}
    (allows : Allows (standsForItself reference) comparison.first one) :
    comparison.Tallies (standing.bond enclosure.parallel) Eq
      (invokeDelegate run reference comparison.first one)
      (invokeDelegate other reference comparison.second two) := by
  refine (Comparison.Tally.readHeap _ one two holds).seq_run
    fun object middle final after read => ?_
  obtain ⟨live, rfl⟩ := readHeap_ok_iff.mp read
  cases object with
  | delegate type target pointer =>
      dsimp only
      rw [bind_of_ok get_run, bind_of_ok get_run]
      rcases after.2.function_cases pointer with
        ⟨error, missing, otherMissing⟩ | ⟨callable, otherCallable, found, otherFound, binds⟩
      · rw [missing, otherMissing]
        exact Comparison.Tally.throwSame error _ _ after
      · rw [found, otherFound, bind_of_ok (ofExcept_ok_run _), bind_of_ok (ofExcept_ok_run _)]
        exact tallies_invokeBound isolates alike after binds fun definition isMethod =>
          standsForItself_of_allows allows live (isMethod ▸ found)
  | _ => exact Comparison.Tally.throwSame _ _ _ after

omit isolates alike in
/-- Both threads bind a delegate that is no box. -/
theorem tallies_createDelegate (run other : Runner)
    (noBox : ∀ reference rest, arguments = .object reference :: rest →
      one.heap.isBox reference = false) :
    comparison.Tallies (standing.bond enclosure.parallel) Eq
      (runCore run .createDelegate arguments comparison.first one)
      (runCore other .createDelegate arguments comparison.second two) := by
  refine Comparison.Tally.share_still (fun _ => tally_argument arguments 0) holds
    fun value isFirst _ => ?_
  refine (mirrored_objectOf value one two holds).seq_run
    fun reference middle final after isObject => ?_
  obtain ⟨rfl, rfl⟩ := objectOf_eq_ok.mp isObject
  refine Comparison.Tally.share_still (fun _ => tally_argument arguments 1) after
    fun target _ _ => ?_
  refine Comparison.Tally.share_still (fun _ => tally_argument arguments 2) after
    fun pointer _ _ => ?_
  cases pointer with
  | function pointer =>
      have isObject (type : Token) (value : Value) :
          one.heap.get reference ≠ .ok (.boxed type value) := by
        intro isBox
        cases arguments with
        | nil => cases isFirst
        | cons receiver rest =>
            cases isFirst
            have noBox := noBox reference rest rfl
            rw [Heap.isBox, isBox] at noBox
            cases noBox
      have bound : comparison.Tallies (standing.bond enclosure.parallel) Eq
          (onHeap (Heap.update reference fun _ => .ok (.delegate Core.action target pointer))
            comparison.first one)
          (onHeap (Heap.update reference fun _ => .ok (.delegate Core.action target pointer))
            comparison.second _) :=
        tallies_onHeap after fun owner box holdsBox => holdsBox.update isObject
      exact bound.seq_run fun _ _ _ after _ => .value rfl after
  | _ => exact Comparison.Tally.throwSame _ _ _ after

/-! ## Native methods -/

theorem tallies_runNative {stray : Error} (excused : comparison.ExcusesFirst stray)
    (operation : CoreNative) (spared : ∀ value ∈ arguments, standing.SparesValue value) :
    comparison.Tallies (standing.bond enclosure.parallel) Eq
      ((do
        (Care.disciplined stray).native (.core operation) arguments
        runNative run (.core operation) arguments : Exec Value) comparison.first one)
      (runNative other (.core operation) arguments comparison.second two) := by
  refine tallies_check excused fun goesOn => ?_
  have allows := allows_of_answerOr goesOn
  by_cases creates : operation = .createDelegate
  · subst creates
    have noBox (reference : HeapRef) (rest : List Value)
        (isArguments : arguments = .object reference :: rest) :
        one.heap.isBox reference = false := by
      subst isArguments
      simpa using (allows.after get_run).answer
    exact tallies_createDelegate holds run other noBox
  by_cases invokes : operation = .invokeDelegate
  · subst invokes
    refine Comparison.Tally.share_still (fun _ => tally_argument arguments 0) holds
      fun value isFirst _ => ?_
    refine (mirrored_objectOf value one two holds).seq_run
      fun reference middle final after isObject => ?_
    obtain ⟨rfl, rfl⟩ := objectOf_eq_ok.mp isObject
    cases arguments with
    | nil => cases isFirst
    | cons receiver rest =>
        cases isFirst
        exact tallies_invokeDelegate isolates alike after allows
  · exact tally_runCore creates invokes spared one two holds

end Alike

end Exec

end Cil
