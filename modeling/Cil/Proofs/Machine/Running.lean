import Cil.Machine.Memory

/-!
# Running pieces of execution

How a piece of execution that is put together from smaller ones runs, if the first one
succeeds.
-/

namespace Cil

namespace Exec

open MonadExcept (ofExcept)

variable {α β : Type} {context : Context} {machine : Machine}

theorem bind_run (first : Exec α) (next : α → Exec β) :
    (first >>= next) context machine =
      match first context machine with
      | .ok value middle => next value context middle
      | .error error middle => .error error middle := by
  change EStateM.bind (first context) (fun value => next value context) machine = _
  unfold EStateM.bind
  cases first context machine <;> rfl

theorem bind_of_ok {first : Exec α} {next : α → Exec β} {value : α} {middle : Machine}
    (ran : first context machine = .ok value middle) :
    (first >>= next) context machine = next value context middle := by
  rw [bind_run, ran]

theorem discard_of_ok {step : Exec α} {value : α} {final : Machine}
    (ran : step context machine = .ok value final) :
    discard step context machine = .ok ⟨⟩ final := by
  change EStateM.map (fun _ => PUnit.unit) (step context) machine = _
  simp only [EStateM.map, ran]

@[simp]
theorem pure_run (value : α) : (pure value : Exec α) context machine = .ok value machine :=
  rfl

@[simp]
theorem get_run : (get : Exec Machine) context machine = .ok machine machine :=
  rfl

@[simp]
theorem module_run : module context machine = .ok context.module machine :=
  rfl

@[simp]
theorem ofExcept_ok_run (value : α) :
    (ofExcept (.ok value : Except Error α) : Exec α) context machine = .ok value machine :=
  rfl

theorem readHeap_of_ok {query : Heap → Except Error α} {value : α}
    (answer : query machine.heap = .ok value) :
    readHeap query context machine = .ok value machine := by
  unfold readHeap
  rw [bind_of_ok get_run, answer, ofExcept_ok_run]

/-! ## What a piece of execution that succeeds has done -/

theorem bind_ok_iff {first : Exec α} {next : α → Exec β} {result : β} {final : Machine} :
    (first >>= next) context machine = .ok result final ↔
      ∃ value middle, first context machine = .ok value middle ∧
        next value context middle = .ok result final := by
  rw [bind_run]
  cases first context machine <;> simp [and_assoc]

theorem pure_ok_iff {value result : α} {final : Machine} :
    (pure value : Exec α) context machine = .ok result final ↔
      value = result ∧ machine = final := by
  simp

theorem ofExcept_ok_iff {outcome : Except Error α} {result : α} {final : Machine} :
    (ofExcept outcome : Exec α) context machine = .ok result final ↔
      outcome = .ok result ∧ machine = final := by
  cases outcome with
  | ok value => simp
  | error error => exact ⟨nofun, nofun⟩

theorem readHeap_ok_iff {query : Heap → Except Error α} {result : α} {final : Machine} :
    readHeap query context machine = .ok result final ↔
      query machine.heap = .ok result ∧ machine = final := by
  unfold readHeap
  rw [bind_of_ok get_run, ofExcept_ok_iff]

theorem onHeap_ok_iff {action : HeapM α} {result : α} {final : Machine} :
    onHeap action context machine = .ok result final ↔
      ∃ heap, action machine.heap = .ok result heap ∧ { machine with heap } = final := by
  unfold onHeap
  dsimp only
  cases action machine.heap <;> simp [and_assoc]

theorem catchThrown_ok_iff {action : Exec α} {result : α} {final : Machine} :
    catchThrown action context machine = .ok (.ok result) final ↔
      action context machine = .ok result final := by
  unfold catchThrown
  rcases action context machine with ⟨value, middle⟩ | ⟨error, middle⟩
  · simp
  · cases error <;> simp

theorem catchThrown_error_iff {action : Exec α} {exception : HeapRef} {final : Machine} :
    catchThrown action context machine = .ok (.error exception) final ↔
      action context machine = .error (.thrown exception) final := by
  unfold catchThrown
  rcases action context machine with ⟨value, middle⟩ | ⟨error, middle⟩
  · simp
  · cases error <;> simp

theorem catchThrown_of_uncaught {action : Exec α} {error : Error} {final : Machine}
    (uncaught : error.kind ≠ "Thrown") (ran : action context machine = .error error final) :
    catchThrown action context machine = .error error final := by
  unfold catchThrown
  rw [ran]
  cases error with
  | thrown exception => exact absurd rfl uncaught
  | _ => rfl

theorem raise_ne_ok {type : Token} {message? : Option String} {result : α} {final : Machine} :
    raise type message? context machine ≠ .ok result final := by
  intro ran
  obtain ⟨_, _, _, thrown⟩ := bind_ok_iff.mp ran
  cases thrown

end Exec

end Cil
