import Cil.Proofs.Isolation.Forwarding

/-!
# The priority of shims

A run is to replace a call by the earliest shim that is bound to the receiver of the call,
or else by the earliest other shim that accepts the receiver.  A shim is for its own method
and for the methods that override it.  The choice follows this policy wherever the call has
a receiver, and for static methods.  A call on null or without a receiver is matched by the
method alone: the scope of a shim is not asked, and overrides are left out.
-/

namespace Cil

open Stateful

/-! ## The policy -/

/-- A call is among those that a shim is meant for.  On null, or without a receiver, only the
shims for every receiver are. -/
def ReceiverMatch.Accepts (module : Module) (receiver? : Option Receiver) :
    ReceiverMatch → Prop
  | .any => True
  | .object reference =>
    ∃ receiver, receiver? = some receiver ∧ receiver.object? = some reference
  | .type scope =>
    ∃ receiver runtimeType, receiver? = some receiver ∧
      receiver.runtimeType? = some runtimeType ∧ module.isSubtypeOf runtimeType scope

namespace Shim

/-- A shim names the called method and accepts the receiver. -/
structure Fits (module : Module) (method : MethodDef) (receiver? : Option Receiver)
    (shim : Shim) : Prop where
  names : shim.identity = method.identity ∨ module.overrides method shim.method
  accepts : shim.receiver.Accepts module receiver?

def IsBound (shim : Shim) : Prop :=
  ∃ reference, shim.receiver = .object reference

def Earliest (shims : List Shim) (property : Shim → Prop) (index : Nat) : Prop :=
  (∃ shim, shims[index]? = some shim ∧ property shim) ∧
    ∀ earlier < index, ∀ shim, shims[earlier]? = some shim → ¬ property shim

/-- What the policy wants to replace a call: the earliest fitting shim that is bound to an
object, without one the earliest fitting shim, and nothing only if no shim fits. -/
inductive Chosen (module : Module) (shims : List Shim) (method : MethodDef)
    (receiver? : Option Receiver) : Option Nat → Prop
  | bound {index : Nat} :
      Earliest shims (fun shim => shim.IsBound ∧ shim.Fits module method receiver?) index →
      Chosen module shims method receiver? (some index)
  | unbound {index : Nat} :
      (∀ shim ∈ shims, shim.IsBound → ¬ shim.Fits module method receiver?) →
      Earliest shims (fun shim => ¬ shim.IsBound ∧ shim.Fits module method receiver?) index →
      Chosen module shims method receiver? (some index)
  | none :
      (∀ shim ∈ shims, ¬ shim.Fits module method receiver?) →
      Chosen module shims method receiver? none

/-- A shim that was made for a target, and whose replacement passed the checks. -/
def Accepted (shim : Shim) : Prop :=
  ∃ (module : Module) (target : ShimTarget) (replacement : Replacement),
    target.replaceBy module replacement = .ok shim

/-- The first shim that is for exactly a method, or for every receiver and a slot that the
method takes over, is for exactly the method and for every receiver. -/
def PlainFirst (module : Module) (shims : List Shim) (method : MethodDef) : Prop :=
  ∀ shim, shims.find? (fun shim => shim.identity == method.identity ||
      (shim.receiver == .any && shim.covers module method)) = some shim →
    shim.identity = method.identity ∧ shim.receiver = .any

variable {module : Module} {shims : List Shim} {method : MethodDef} {receiver : Receiver}
  {receiver? : Option Receiver} {shim : Shim}

/-! ## The policy as a search -/

theorem findIdx?_eq_some_iff_earliest {decides : Shim → Bool} {property : Shim → Prop}
    (decided : ∀ shim ∈ shims, decides shim ↔ property shim) {index : Nat} :
    shims.findIdx? decides = some index ↔ Earliest shims property index := by
  rw [List.findIdx?_eq_some_iff_getElem]
  constructor
  · rintro ⟨inside, holds, before⟩
    refine ⟨⟨shims[index], List.getElem?_eq_getElem inside,
      (decided _ (List.getElem_mem inside)).mp holds⟩, ?_⟩
    intro earlier isEarlier shim place has
    obtain ⟨inside, rfl⟩ := List.getElem?_eq_some_iff.mp place
    exact before earlier isEarlier ((decided _ (List.getElem_mem inside)).mpr has)
  · rintro ⟨⟨shim, place, has⟩, before⟩
    obtain ⟨inside, rfl⟩ := List.getElem?_eq_some_iff.mp place
    refine ⟨inside, (decided _ (List.getElem_mem inside)).mpr has, ?_⟩
    intro earlier isEarlier holds
    have inside : earlier < shims.length := by omega
    exact before earlier isEarlier _ (List.getElem?_eq_getElem inside)
      ((decided _ (List.getElem_mem inside)).mp holds)

theorem findIdx?_eq_none_iff_forall {decides : Shim → Bool} {property : Shim → Prop}
    (decided : ∀ shim ∈ shims, decides shim ↔ property shim) :
    shims.findIdx? decides = none ↔ ∀ shim ∈ shims, ¬ property shim := by
  simp only [List.findIdx?_eq_none_iff, ← Bool.not_eq_true]
  exact forall₂_congr fun shim member => not_congr (decided shim member)

theorem Earliest.unique {property : Shim → Prop} {first second : Nat}
    (isFirst : Earliest shims property first) (isSecond : Earliest shims property second) :
    first = second := by
  obtain ⟨⟨shim, place, has⟩, before⟩ := isFirst
  obtain ⟨⟨other, otherPlace, otherHas⟩, otherBefore⟩ := isSecond
  by_contra apart
  rcases Nat.lt_or_gt_of_ne apart with less | less
  · exact otherBefore first less shim place has
  · exact before second less other otherPlace otherHas

theorem Earliest.exists_mem {property : Shim → Prop} {index : Nat}
    (earliest : Earliest shims property index) : ∃ shim ∈ shims, property shim := by
  obtain ⟨⟨shim, place, has⟩, _⟩ := earliest
  exact ⟨shim, List.mem_of_getElem? place, has⟩

/-- The policy leaves no choice. -/
theorem Chosen.unique {first second : Option Nat}
    (isFirst : Chosen module shims method receiver? first)
    (isSecond : Chosen module shims method receiver? second) : first = second := by
  cases isFirst with
  | bound earliest =>
    obtain ⟨shim, member, isBound, fits⟩ := earliest.exists_mem
    cases isSecond with
    | bound other => rw [earliest.unique other]
    | unbound noBound => exact absurd fits (noBound shim member isBound)
    | none noShim => exact absurd fits (noShim shim member)
  | unbound noBound earliest =>
    obtain ⟨shim, member, _, fits⟩ := earliest.exists_mem
    cases isSecond with
    | bound other =>
      obtain ⟨shim, member, isBound, fits⟩ := other.exists_mem
      exact absurd fits (noBound shim member isBound)
    | unbound _ other => rw [earliest.unique other]
    | none noShim => exact absurd fits (noShim shim member)
  | none noShim =>
    cases isSecond with
    | bound other =>
      obtain ⟨shim, member, _, fits⟩ := other.exists_mem
      exact absurd fits (noShim shim member)
    | unbound _ other =>
      obtain ⟨shim, member, _, fits⟩ := other.exists_mem
      exact absurd fits (noShim shim member)
    | none => rfl

/-- A search among the bound shims and then among the others follows the policy. -/
theorem chosen_search {isBoundFit isOtherFit : Shim → Bool}
    (bound : ∀ shim ∈ shims,
      isBoundFit shim ↔ shim.IsBound ∧ shim.Fits module method receiver?)
    (other : ∀ shim ∈ shims,
      isOtherFit shim ↔ ¬ shim.IsBound ∧ shim.Fits module method receiver?) :
    Chosen module shims method receiver?
      ((shims.findIdx? isBoundFit).or (shims.findIdx? isOtherFit)) := by
  cases first : shims.findIdx? isBoundFit with
  | some index => exact .bound ((findIdx?_eq_some_iff_earliest bound).mp first)
  | none =>
    rw [Option.none_or]
    have noBound : ∀ shim ∈ shims, shim.IsBound → ¬ shim.Fits module method receiver? :=
      fun shim member isBound fits =>
        (findIdx?_eq_none_iff_forall bound).mp first shim member ⟨isBound, fits⟩
    cases second : shims.findIdx? isOtherFit with
    | some index => exact .unbound noBound ((findIdx?_eq_some_iff_earliest other).mp second)
    | none =>
      refine .none fun shim member fits => ?_
      by_cases isBound : shim.IsBound
      · exact noBound shim member isBound fits
      · exact (findIdx?_eq_none_iff_forall other).mp second shim member ⟨isBound, fits⟩

/-! ## Calls with a receiver -/

theorem covers_iff : shim.covers module method ↔
    shim.identity = method.identity ∨ module.overrides method shim.method := by
  simp [covers]

theorem isBoundTo_iff (module : Module) : shim.isBoundTo receiver ↔
    shim.IsBound ∧ shim.receiver.Accepts module (some receiver) := by
  cases object : receiver.object? <;> cases scope : shim.receiver <;>
    simp [isBoundTo, IsBound, ReceiverMatch.Accepts, object, scope]
  exact eq_comm

theorem accepts_iff : shim.accepts module receiver ↔
    ¬ shim.IsBound ∧ shim.receiver.Accepts module (some receiver) := by
  cases scope : shim.receiver <;>
    simp [accepts, IsBound, ReceiverMatch.Accepts, scope, Option.any_eq_true]

theorem chosen_of_receiver (isInstance : method.isStatic = false) :
    Chosen module shims method (some receiver)
      (choose? module shims method (some receiver)) := by
  simp only [choose?, isInstance]
  apply chosen_search
  · intro shim _
    rw [Bool.and_eq_true, isBoundTo_iff module, covers_iff, and_assoc]
    exact and_congr_right fun _ => ⟨fun both => ⟨both.2, both.1⟩,
      fun fits => ⟨fits.accepts, fits.names⟩⟩
  · intro shim _
    rw [Bool.and_eq_true, accepts_iff, covers_iff, and_assoc]
    exact and_congr_right fun _ => ⟨fun both => ⟨both.2, both.1⟩,
      fun fits => ⟨fits.accepts, fits.names⟩⟩

/-! ## Calls without a receiver -/

/-- A shim for a method without a receiver is accepted for every receiver only. -/
theorem Accepted.unscoped (accepted : shim.Accepted) (isStatic : shim.method.isStatic = true) :
    shim.receiver = .any := by
  obtain ⟨module, target, replacement, isAccepted⟩ := accepted
  unfold ShimTarget.replaceBy at isAccepted
  by_cases refused : (target.lacksReceiver && target.receiver != .any) = true
  · rw [if_pos refused] at isAccepted
    cases isAccepted
  · rw [if_neg refused] at isAccepted
    obtain ⟨⟨params, returnType⟩, _, isAccepted⟩ := except_bind_eq_ok.mp isAccepted
    obtain ⟨_, _, isAccepted⟩ := except_bind_eq_ok.mp isAccepted
    obtain ⟨_, _, isAccepted⟩ := except_bind_eq_ok.mp isAccepted
    obtain ⟨_, _, isAccepted⟩ := except_bind_eq_ok.mp isAccepted
    obtain rfl := Except.ok.inj isAccepted
    have lacks : target.lacksReceiver = true := by
      simp only [ShimTarget.lacksReceiver, isStatic, Bool.true_or]
    simpa [lacks] using refused

theorem fits_of_static (isStatic : method.isStatic = true) (accepted : shim.Accepted) :
    shim.Fits module method receiver? ↔ shim.identity = method.identity := by
  constructor
  · intro fits
    rcases fits.names with names | overrides
    · exact names
    · simp [Module.overrides, isStatic] at overrides
  · intro names
    obtain ⟨_, _, _, _, sameStatic, _, _⟩ := MethodDef.of_identity names
    have unscoped := accepted.unscoped (sameStatic.trans isStatic)
    exact ⟨.inl names, by simp [unscoped, ReceiverMatch.Accepts]⟩

theorem fits_without_receiver : shim.Fits module method none ↔
    shim.receiver = .any ∧ shim.covers module method := by
  rw [covers_iff]
  constructor
  · intro fits
    refine ⟨?_, fits.names⟩
    have accepts := fits.accepts
    cases scope : shim.receiver <;> simp [ReceiverMatch.Accepts, scope] at accepts ⊢
  · rintro ⟨unscoped, names⟩
    exact ⟨names, by simp [unscoped, ReceiverMatch.Accepts]⟩

/-- Where only shims for every receiver fit, the policy wants the earliest one. -/
theorem chosen_unscoped {isFit : Shim → Bool}
    (unscoped : ∀ shim ∈ shims, shim.Fits module method receiver? → shim.receiver = .any)
    (decided : ∀ shim ∈ shims, isFit shim ↔ shim.Fits module method receiver?) :
    Chosen module shims method receiver? (shims.findIdx? isFit) := by
  have notBound : ∀ shim ∈ shims, shim.Fits module method receiver? → ¬ shim.IsBound := by
    rintro shim member fits ⟨reference, scope⟩
    rw [unscoped shim member fits] at scope
    cases scope
  have search : shims.findIdx? isFit =
      (shims.findIdx? fun _ => false).or (shims.findIdx? isFit) := by
    have nothing : shims.findIdx? (fun _ => false) = none := by simp
    rw [nothing, Option.none_or]
  rw [search]
  apply chosen_search
  · intro shim member
    simpa using fun isBound fits => notBound shim member fits isBound
  · intro shim member
    rw [decided shim member]
    exact ⟨fun fits => ⟨notBound shim member fits, fits⟩, fun ⟨_, fits⟩ => fits⟩

theorem chosen_of_static (isStatic : method.isStatic = true)
    (accepted : ∀ shim ∈ shims, shim.Accepted) :
    Chosen module shims method receiver? (choose? module shims method receiver?) := by
  rw [choose?_without_receiver (.inl isStatic)]
  apply chosen_unscoped
  · intro shim member fits
    have names := (fits_of_static isStatic (accepted shim member)).mp fits
    obtain ⟨_, _, _, _, sameStatic, _, _⟩ := MethodDef.of_identity names
    exact (accepted shim member).unscoped (sameStatic.trans isStatic)
  · intro shim member
    rw [beq_iff_eq, fits_of_static isStatic (accepted shim member)]

theorem chosen_none_iff {index? : Option Nat} : Chosen module shims method none index? ↔
    index? = shims.findIdx? fun shim =>
      shim.receiver == .any && shim.covers module method := by
  have search : Chosen module shims method none (shims.findIdx? fun shim =>
      shim.receiver == .any && shim.covers module method) := by
    apply chosen_unscoped
    · exact fun shim _ fits => (fits_without_receiver.mp fits).1
    · intro shim _
      rw [fits_without_receiver, Bool.and_eq_true, beq_iff_eq]
  constructor
  · exact fun chosen => chosen.unique search
  · rintro rfl
    exact search

/-- Two searches end at one place exactly if what either meets first, both accept. -/
theorem findIdx?_eq_findIdx?_iff {first second : Shim → Bool} :
    shims.findIdx? first = shims.findIdx? second ↔
      ∀ shim, shims.find? (fun shim => first shim || second shim) = some shim →
        first shim = true ∧ second shim = true := by
  induction shims with
  | nil => simp
  | cons head tail ih =>
    rw [List.findIdx?_cons, List.findIdx?_cons, List.find?_cons]
    cases isFirst : first head <;> cases isSecond : second head
    · simpa [Option.map_inj_right] using ih
    · simp [isFirst]
    · have apart : some 0 ≠ (tail.findIdx? second).map (· + 1) := Ne.symm (by simp)
      simp [isSecond, apart]
    · simp [isFirst, isSecond]

theorem chosen_of_absent_iff :
    Chosen module shims method none (choose? module shims method none) ↔
      PlainFirst module shims method := by
  rw [chosen_none_iff, choose?_without_receiver (.inr rfl), findIdx?_eq_findIdx?_iff]
  unfold PlainFirst
  refine forall₂_congr fun shim _ => ?_
  rw [Bool.and_eq_true, beq_iff_eq, beq_iff_eq]
  exact and_congr_right fun names => ⟨fun both => both.1,
    fun unscoped => ⟨unscoped, covers_iff.mpr (.inl names)⟩⟩

end Shim

/-! ## Bells -/

namespace Bells

def silencing (scope : ReceiverMatch) (type : Token) : ShimTarget × Replacement :=
  ({ method := method 26, receiver := scope, objectType? := some type },
    .native
      { name := "silence", params := [.reference type], returnType := .int32
        body := .host fun _ => .done (.int32 0) })

def silence (scope : ReceiverMatch) (type : Token) : Shim :=
  let (target, replacement) := silencing scope type
  ((target.replaceBy module replacement).toOption).getD default

theorem silence_accepted {scope : ReceiverMatch} {type : Token}
    (passes : ((silencing scope type).1.replaceBy module (silencing scope type).2).isOk) :
    (silence scope type).Accepted := by
  refine ⟨module, (silencing scope type).1, (silencing scope type).2, ?_⟩
  unfold silence
  cases made : (silencing scope type).1.replaceBy module (silencing scope type).2 with
  | ok shim => simp [made, Except.toOption]
  | error => simp [made, Except.isOk, Except.toBool] at passes

end Bells

end Cil
