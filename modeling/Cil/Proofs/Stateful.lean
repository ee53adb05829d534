import Cil.Error

/-!
# Steps with a state

A step of a machine, an encoder or a module reads and changes a state and may fail.  This
file says when a sequence of such steps succeeds, and it carries properties of the state
through sequences, whether or not they fail.
-/

namespace Cil

namespace Stateful

variable {ε σ α β : Type}

/-- The state in which a step ends, also when it fails. -/
def finalState : EStateM.Result ε σ α → σ
  | .ok _ state => state
  | .error _ state => state

/-! ## Successful sequences -/

theorem except_bind_eq_ok {first : Except ε α} {next : α → Except ε β} {result : β} :
    (first >>= next) = .ok result ↔ ∃ value, first = .ok value ∧ next value = .ok result := by
  cases first with
  | error error => simp [bind, Except.bind]
  | ok value => simp [bind, Except.bind]

theorem except_bind_eq_error {first : Except ε α} {next : α → Except ε β} {error : ε} :
    (first >>= next) = .error error ↔
      first = .error error ∨ ∃ value, first = .ok value ∧ next value = .error error := by
  cases first with
  | error other => simp [bind, Except.bind]
  | ok value => simp [bind, Except.bind]

/-- Where every single result is known, so are the results for a list. -/
theorem except_mapM_eq_ok {step : α → Except ε β} {value : α → β}
    (stepEq : ∀ item result, step item = .ok result → result = value item)
    {items : List α} {results : List β} (ran : items.mapM step = .ok results) :
    results = items.map value ∧ ∀ item ∈ items, step item = .ok (value item) := by
  induction items generalizing results with
  | nil => cases ran; exact ⟨rfl, by simp⟩
  | cons item items ih =>
      rw [List.mapM_cons] at ran
      obtain ⟨first, firstRan, ran⟩ := except_bind_eq_ok.mp ran
      obtain ⟨rest, restRan, final⟩ := except_bind_eq_ok.mp ran
      cases final
      obtain ⟨rfl, restOk⟩ := ih restRan
      obtain rfl := stepEq item first firstRan
      exact ⟨rfl, List.forall_mem_cons.mpr ⟨firstRan, restOk⟩⟩

/-- A list of steps succeeds if every single one does. -/
theorem exists_except_mapM_iff {step : α → Except ε β} {items : List α} :
    (∃ results, items.mapM step = .ok results) ↔ ∀ item ∈ items, ∃ result, step item = .ok result := by
  induction items with
  | nil => exact ⟨fun _ => List.forall_mem_nil _, fun _ => ⟨[], rfl⟩⟩
  | cons item items ih =>
      rw [List.forall_mem_cons, ← ih, List.mapM_cons]
      constructor
      · rintro ⟨results, ran⟩
        obtain ⟨first, firstRan, ran⟩ := except_bind_eq_ok.mp ran
        obtain ⟨rest, restRan, _⟩ := except_bind_eq_ok.mp ran
        exact ⟨⟨first, firstRan⟩, rest, restRan⟩
      · rintro ⟨⟨first, firstRan⟩, rest, restRan⟩
        exact ⟨first :: rest, except_bind_eq_ok.mpr
          ⟨first, firstRan, except_bind_eq_ok.mpr ⟨rest, restRan, rfl⟩⟩⟩

theorem except_forM_discard_eq_ok {check : α → Except ε β} {items : List α}
    (each : ∀ item ∈ items, ∃ result, check item = .ok result) :
    (items.forM fun item => discard (check item)) = .ok () := by
  induction items with
  | nil => rfl
  | cons item items ih =>
      obtain ⟨⟨result, checked⟩, rest⟩ := List.forall_mem_cons.mp each
      change (discard (check item) >>= fun _ => items.forM fun item => discard (check item)) = _
      rw [checked, ih rest]
      rfl

theorem bind_eq_ok {first : EStateM ε σ α} {next : α → EStateM ε σ β}
    {state final : σ} {result : β} :
    (first >>= next) state = .ok result final ↔
      ∃ value middle, first state = .ok value middle ∧
        next value middle = .ok result final := by
  simp only [bind, EStateM.bind]
  cases first state with
  | ok value middle => exact ⟨fun ran => ⟨value, middle, rfl, ran⟩,
      fun ⟨_, _, equal, ran⟩ => by cases equal; exact ran⟩
  | error error middle => simp

theorem pure_eq_ok {value result : α} {state final : σ} :
    (pure value : EStateM ε σ α) state = .ok result final ↔
      value = result ∧ state = final := by
  simp [pure, EStateM.pure]

theorem throw_ne_ok {error : ε} {state final : σ} {result : α} :
    (throw error : EStateM ε σ α) state ≠ .ok result final :=
  nofun

theorem get_eq_ok {state result final : σ} :
    (get : EStateM ε σ σ) state = .ok result final ↔ state = result ∧ state = final := by
  change EStateM.Result.ok state state = _ ↔ _
  simp

theorem get_bind_run {next : σ → EStateM ε σ α} {state : σ} :
    (get >>= next) state = next state state :=
  rfl

theorem set_eq_ok {next state final : σ} {result : PUnit} :
    (set next : EStateM ε σ PUnit) state = .ok result final ↔ next = final := by
  change EStateM.Result.ok PUnit.unit next = _ ↔ _
  simp

theorem modify_eq_ok {change : σ → σ} {state final : σ} {result : PUnit} :
    (modify change : EStateM ε σ PUnit) state = .ok result final ↔
      change state = final := by
  change EStateM.Result.ok PUnit.unit (_ : σ) = _ ↔ _
  simp

theorem modifyGet_eq_ok {change : σ → α × σ} {state final : σ} {result : α} :
    (modifyGet change : EStateM ε σ α) state = .ok result final ↔
      (change state).1 = result ∧ (change state).2 = final := by
  change EStateM.Result.ok (_ : α) (_ : σ) = _ ↔ _
  simp

theorem ofExcept_eq_ok {outcome : Except ε α} {state final : σ} {result : α} :
    (MonadExcept.ofExcept outcome : EStateM ε σ α) state = .ok result final ↔
      outcome = .ok result ∧ state = final := by
  cases outcome with
  | ok value =>
      change EStateM.Result.ok value state = _ ↔ _
      simp
  | error error => exact ⟨nofun, nofun⟩

/-- Checks that succeed one after the other leave the state as it was. -/
theorem forM_discard_ofExcept_eq_ok {check : α → Except ε β} {items : List α}
    {state final : σ} {result : PUnit} :
    (items.forM fun item => discard (MonadExcept.ofExcept (check item) : EStateM ε σ β))
        state = .ok result final ↔
      state = final ∧ ∀ item ∈ items, ∃ value, check item = .ok value := by
  induction items with
  | nil => exact ⟨fun ran => by cases ran; simp, fun ⟨equal, _⟩ => by cases equal; rfl⟩
  | cons item items ih =>
      change (discard (MonadExcept.ofExcept (check item) : EStateM ε σ β) >>= fun _ =>
        items.forM fun item => discard (MonadExcept.ofExcept (check item))) state = _ ↔ _
      rw [bind_eq_ok]
      cases checked : check item with
      | ok value =>
          simp only [List.mem_cons, forall_eq_or_imp, checked]
          constructor
          · rintro ⟨_, _, first, rest⟩
            cases first
            obtain ⟨equal, others⟩ := ih.mp rest
            exact ⟨equal, ⟨value, rfl⟩, others⟩
          · rintro ⟨equal, _, others⟩
            exact ⟨⟨⟩, state, rfl, ih.mpr ⟨equal, others⟩⟩
      | error error =>
          constructor
          · rintro ⟨_, _, first, _⟩
            cases first
          · rintro ⟨_, others⟩
            obtain ⟨value, found⟩ := others item (by simp)
            rw [checked] at found
            cases found

/-! ## Kept properties -/

/-- A step keeps a property of the state if the property still holds at its end, also
when the step fails. -/
def Keeps (property : σ → Prop) (step : EStateM ε σ α) : Prop :=
  ∀ state, property state → property (finalState (step state))

variable {property : σ → Prop}

/-- What holds at the end of a sequence: it holds where the first step fails, and at the
end of the second step from wherever the first one succeeds. -/
theorem finalState_bind {first : EStateM ε σ α} {next : α → EStateM ε σ β} {state : σ}
    (firstHolds : property (finalState (first state)))
    (nextHolds : ∀ value middle, first state = .ok value middle →
      property (finalState (next value middle))) :
    property (finalState ((first >>= next) state)) := by
  simp only [Bind.bind, EStateM.bind]
  cases ran : first state with
  | ok value middle => exact nextHolds value middle ran
  | error error middle =>
      rw [ran] at firstHolds
      exact firstHolds

theorem Keeps.of_ok {step : EStateM ε σ α} {state final : σ} {value : α}
    (kept : Keeps property step) (holds : property state) (ran : step state = .ok value final) :
    property final := by
  have after := kept state holds
  rw [ran] at after
  exact after

theorem Keeps.bind {first : EStateM ε σ α} {next : α → EStateM ε σ β}
    (firstKeeps : Keeps property first) (nextKeeps : ∀ value, Keeps property (next value)) :
    Keeps property (first >>= next) := by
  intro state holds
  refine finalState_bind (firstKeeps state holds) fun value middle ran => ?_
  have middleHolds := firstKeeps state holds
  rw [ran] at middleHolds
  exact nextKeeps value middle middleHolds

theorem Keeps.pure (value : α) : Keeps property (Pure.pure value : EStateM ε σ α) :=
  fun _ holds => holds

theorem Keeps.throw (error : ε) : Keeps property (throw error : EStateM ε σ α) :=
  fun _ holds => holds

theorem Keeps.get : Keeps property (MonadState.get : EStateM ε σ σ) :=
  fun _ holds => holds

theorem Keeps.ofExcept (outcome : Except ε α) :
    Keeps property (MonadExcept.ofExcept outcome : EStateM ε σ α) := by
  intro state holds
  cases outcome <;> exact holds

theorem Keeps.modifyGet {change : σ → α × σ}
    (kept : ∀ state, property state → property (change state).2) :
    Keeps property (modifyGet change : EStateM ε σ α) :=
  fun state holds => kept state holds

theorem Keeps.discard {step : EStateM ε σ α} (kept : Keeps property step) :
    Keeps property (discard step) := by
  intro state holds
  have final := kept state holds
  simp only [Functor.discard, Functor.mapConst, EStateM.map, Function.comp]
  cases ran : step state <;> rw [ran] at final <;> exact final

theorem Keeps.forM {items : List β} {step : β → EStateM ε σ PUnit}
    (kept : ∀ item ∈ items, Keeps property (step item)) :
    Keeps property (items.forM step) := by
  induction items with
  | nil => exact Keeps.pure _
  | cons item items ih =>
      have rest : Keeps property (items.forM step) :=
        ih fun other member => kept other (by simp [member])
      exact (kept item (by simp)).bind fun _ => rest

/-! ## Failures -/

theorem bind_eq_error {first : EStateM ε σ α} {next : α → EStateM ε σ β}
    {state final : σ} {error : ε} :
    (first >>= next) state = .error error final ↔ first state = .error error final ∨
      ∃ value middle, first state = .ok value middle ∧
        next value middle = .error error final := by
  simp only [bind, EStateM.bind]
  cases first state with
  | ok value middle => exact ⟨fun failed => .inr ⟨value, middle, rfl, failed⟩,
      fun failed => failed.elim nofun fun ⟨_, _, equal, failed⟩ => by cases equal; exact failed⟩
  | error other middle => simp

theorem throw_eq_error {error other : ε} {state final : σ} :
    (throw error : EStateM ε σ α) state = .error other final ↔
      error = other ∧ state = final := by
  change EStateM.Result.error error state = .error other final ↔ _
  simp

/-- An outcome fails only with errors that have a property. -/
def ErrsOnly (failure : ε → Prop) (outcome : Except ε α) : Prop :=
  ∀ error, outcome = .error error → failure error

/-- A step fails only with errors that have a property. -/
def FailsOnly (failure : ε → Prop) (step : EStateM ε σ α) : Prop :=
  ∀ state error final, step state = .error error final → failure error

section Failures

variable {failure : ε → Prop}

namespace ErrsOnly

theorem ok (value : α) : ErrsOnly failure (.ok value) :=
  fun _ failed => by cases failed

theorem error {error : ε} (holds : failure error) : ErrsOnly failure (.error error : Except ε α) :=
  fun _ failed => Except.error.inj failed ▸ holds

theorem bind {first : Except ε α} {next : α → Except ε β} (firstErrs : ErrsOnly failure first)
    (nextErrs : ∀ value, ErrsOnly failure (next value)) : ErrsOnly failure (first >>= next) := by
  cases first with
  | ok value => exact nextErrs value
  | error error => exact .error (firstErrs error rfl)

theorem ite {condition : Prop} [Decidable condition] {first second : Except ε α}
    (firstErrs : ErrsOnly failure first) (secondErrs : ErrsOnly failure second) :
    ErrsOnly failure (if condition then first else second) := by
  split
  · exact firstErrs
  · exact secondErrs

theorem mapM {items : List α} {step : α → Except ε β}
    (errs : ∀ item, ErrsOnly failure (step item)) : ErrsOnly failure (items.mapM step) := by
  induction items with
  | nil => exact .ok _
  | cons item items ih =>
      rw [List.mapM_cons]
      exact .bind (errs item) fun _ => .bind ih fun _ => .ok _

theorem forM {items : List α} {step : α → Except ε PUnit}
    (errs : ∀ item, ErrsOnly failure (step item)) : ErrsOnly failure (items.forM step) := by
  induction items with
  | nil => exact .ok _
  | cons item items ih => exact .bind (errs item) fun _ => ih

end ErrsOnly

namespace FailsOnly

theorem pure (value : α) : FailsOnly failure (Pure.pure value : EStateM ε σ α) :=
  fun _ _ _ failed => by cases failed

theorem throw {error : ε} (holds : failure error) :
    FailsOnly failure (throw error : EStateM ε σ α) :=
  fun _ _ _ failed => by cases failed; exact holds

theorem get : FailsOnly failure (MonadState.get : EStateM ε σ σ) :=
  fun _ _ _ failed => by cases failed

theorem set (state : σ) : FailsOnly failure (MonadStateOf.set state : EStateM ε σ PUnit) :=
  fun _ _ _ failed => by cases failed

theorem modifyGet (change : σ → α × σ) : FailsOnly failure (modifyGet change : EStateM ε σ α) :=
  fun _ _ _ failed => by cases failed

theorem ofExcept {outcome : Except ε α} (errs : ErrsOnly failure outcome) :
    FailsOnly failure (MonadExcept.ofExcept outcome : EStateM ε σ α) := by
  cases outcome with
  | ok value => exact pure value
  | error error => exact throw (errs error rfl)

theorem bind {first : EStateM ε σ α} {next : α → EStateM ε σ β}
    (firstFails : FailsOnly failure first)
    (nextFails : ∀ value, FailsOnly failure (next value)) : FailsOnly failure (first >>= next) := by
  intro state error final failed
  simp only [Bind.bind, EStateM.bind] at failed
  cases ran : first state with
  | ok value middle =>
      rw [ran] at failed
      exact nextFails value middle error final failed
  | error other middle =>
      rw [ran] at failed
      cases failed
      exact firstFails state _ _ ran

/-- Nothing follows a failure. -/
theorem throw_bind {error : ε} {next : α → EStateM ε σ β} (holds : failure error) :
    FailsOnly failure (MonadExcept.throw error >>= next) :=
  fun _ _ _ failed => by cases failed; exact holds

theorem ite {condition : Prop} [Decidable condition] {first second : EStateM ε σ α}
    (firstFails : FailsOnly failure first) (secondFails : FailsOnly failure second) :
    FailsOnly failure (if condition then first else second) := by
  split
  · exact firstFails
  · exact secondFails

theorem forM {items : List β} {step : β → EStateM ε σ PUnit}
    (fails : ∀ item, FailsOnly failure (step item)) : FailsOnly failure (items.forM step) := by
  induction items with
  | nil => exact pure _
  | cons item items ih => exact .bind (fails item) fun _ => ih

end FailsOnly

end Failures

/-! ## Kept properties with results -/

/-- The state at the end has a property, and so has the value or the error. -/
def Ends (property : σ → Prop) (value : α → Prop) (failure : ε → Prop) :
    EStateM.Result ε σ α → Prop
  | .ok result final => property final ∧ value result
  | .error error final => property final ∧ failure error

/-- A step keeps a property of the state, its value has a property, and so has the error that
it fails with. -/
def Yields (property : σ → Prop) (value : α → Prop) (failure : ε → Prop)
    (step : EStateM ε σ α) : Prop :=
  ∀ state, property state → Ends property value failure (step state)

namespace Yields

variable {value : α → Prop} {other : β → Prop} {failure : ε → Prop}

theorem bind {first : EStateM ε σ α} {next : α → EStateM ε σ β}
    (firstYields : Yields property value failure first)
    (nextYields : ∀ result, value result → Yields property other failure (next result)) :
    Yields property other failure (first >>= next) := by
  intro state holds
  have middle := firstYields state holds
  simp only [Bind.bind, EStateM.bind]
  cases ran : first state with
  | ok result middleState =>
      rw [ran] at middle
      exact nextYields result middle.2 middleState middle.1
  | error error final =>
      rw [ran] at middle
      exact middle

theorem pure {result : α} (satisfies : value result) :
    Yields property value failure (Pure.pure result : EStateM ε σ α) :=
  fun _ holds => ⟨holds, satisfies⟩

theorem throw {error : ε} (fails : failure error) :
    Yields property value failure (throw error : EStateM ε σ α) :=
  fun _ holds => ⟨holds, fails⟩

theorem get_bind {next : σ → EStateM ε σ α}
    (nextYields : ∀ state, property state → Ends property value failure (next state state)) :
    Yields property value failure (MonadState.get >>= next) :=
  nextYields

theorem ofExcept {outcome : Except ε α} (errs : ErrsOnly failure outcome) :
    Yields property (outcome = .ok ·) failure
      (MonadExcept.ofExcept outcome : EStateM ε σ α) := by
  intro state holds
  cases outcome with
  | ok result => exact ⟨holds, rfl⟩
  | error error => exact ⟨holds, errs error rfl⟩

theorem weaken {weaker : α → Prop} {step : EStateM ε σ α}
    (yields : Yields property value failure step)
    (implies : ∀ result, value result → weaker result) :
    Yields property weaker failure step := by
  intro state holds
  have ends := yields state holds
  cases ran : step state with
  | ok result final => rw [ran] at ends; exact ⟨ends.1, implies result ends.2⟩
  | error error final => rw [ran] at ends; exact ends

/-- A step that keeps the property and says nothing about its value. -/
theorem of_keeps {step : EStateM ε σ α} (keeps : Keeps property step)
    (fails : FailsOnly failure step) : Yields property (fun _ => True) failure step := by
  intro state holds
  have kept := keeps state holds
  cases ran : step state with
  | ok result final => rw [ran] at kept; exact ⟨kept, trivial⟩
  | error error final => rw [ran] at kept; exact ⟨kept, fails state error final ran⟩

theorem keeps {step : EStateM ε σ α} (yields : Yields property value failure step) :
    Keeps property step := by
  intro state holds
  have after := yields state holds
  cases ran : step state <;> rw [ran] at after <;> exact after.1

end Yields

end Stateful

end Cil
