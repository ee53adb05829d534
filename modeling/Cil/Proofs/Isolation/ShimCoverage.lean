import Cil.Machine.Thread
import Cil.Proofs.Machine.Running
import Cil.Proofs.Metadata.Slots

/-!
# The reach of a shim

A shim without a receiver of its own stands in for its method and for the methods that
override it.  A virtual call through a stub finds the method that the receiver runs first,
so it reaches a shim for the called method exactly if that method overrides the called one.
-/

namespace Cil

/-! ## Choosing among shims -/

/-- A shim matches a call of a method if it is for the method and takes the receiver. -/
def Shim.Matches (module : Module) (method : MethodDef) (receiver : Receiver) (shim : Shim) :
    Prop :=
  shim.covers module method ∧ (shim.isBoundTo receiver ∨ shim.accepts module receiver)

namespace IsolationRun

variable {run : IsolationRun} {module : Module} {method : MethodDef} {receiver : Receiver}

/-- The shim that is chosen for an instance method matches the call. -/
theorem matches_of_shimFor? {chosen : Shim} (isInstance : method.isStatic = false)
    (choice : run.shimFor? module method (some receiver) = some chosen) :
    chosen ∈ run.shims ∧ chosen.Matches module method receiver := by
  obtain ⟨index, found, place⟩ := Option.bind_eq_some_iff.mp choice
  simp only [Shim.choose?, isInstance, Option.or_eq_some_iff] at found
  obtain ⟨inside, rfl⟩ := List.getElem?_eq_some_iff.mp place
  refine ⟨List.getElem_mem inside, ?_⟩
  rcases found with bound | ⟨_, accepted⟩
  · obtain ⟨_, holds, _⟩ := List.findIdx?_eq_some_iff_getElem.mp bound
    obtain ⟨isBound, covers⟩ := Bool.and_eq_true_iff.mp holds
    exact ⟨covers, Or.inl isBound⟩
  · obtain ⟨_, holds, _⟩ := List.findIdx?_eq_some_iff_getElem.mp accepted
    obtain ⟨accepts, covers⟩ := Bool.and_eq_true_iff.mp holds
    exact ⟨covers, Or.inr accepts⟩

/-- If a shim matches a call of an instance method, then one is chosen. -/
theorem exists_shimFor? {shim : Shim} (isInstance : method.isStatic = false)
    (member : shim ∈ run.shims) (isMatch : shim.Matches module method receiver) :
    ∃ chosen, run.shimFor? module method (some receiver) = some chosen := by
  have found : ∃ index, Shim.choose? module run.shims method (some receiver) = some index := by
    rw [← Option.isSome_iff_exists]
    simp only [Shim.choose?, isInstance, Option.isSome_or, List.findIdx?_isSome,
      Bool.or_eq_true, List.any_eq_true]
    obtain ⟨covers, isBound | accepts⟩ := isMatch
    · exact Or.inl ⟨shim, member, by simp [isBound, covers]⟩
    · exact Or.inr ⟨shim, member, by simp [accepts, covers]⟩
  obtain ⟨index, found⟩ := found
  have inside : index < run.shims.length := by
    simp only [Shim.choose?, isInstance, Option.or_eq_some_iff] at found
    rcases found with bound | ⟨_, accepted⟩
    · exact (List.findIdx?_eq_some_iff_getElem.mp bound).1
    · exact (List.findIdx?_eq_some_iff_getElem.mp accepted).1
  exact ⟨run.shims[index], by simp [shimFor?, found, inside]⟩

/-- Calls of a method that some shim names are not forwarded. -/
theorem forwards_eq_false {shim : Shim} (member : shim ∈ run.shims)
    (names : shim.identity = method.identity) (isolated : run.isIntrinsic module method = false)
    (isVirtualCall : Bool) : run.forwards module method isVirtualCall = false := by
  have named : Shim.anyNames run.shims method.identity :=
    List.any_eq_true.mpr ⟨shim, member, by simp [names]⟩
  simp [forwards, isolated, named]

end IsolationRun

/-! ## Virtual calls -/

/-- A shim is for the method that a virtual call of its own method resolves to, if the type of
that method derives from or implements the type of the called one. -/
theorem Shim.covers_of_resolveVirtual {module : Module} (tables : module.Tables)
    (fits : module.methods.size < Token.rowBound) {shim : Shim} {type : Token}
    {method resolved : MethodDef} (declared : module.Declares method)
    (isInstance : method.isStatic = false) (isSlot : method.isVirtual || method.isAbstract)
    (names : shim.identity = method.identity)
    (resolves : module.resolveVirtual type method = .ok resolved)
    (subtype : module.isSubtypeOf resolved.declaringType method.declaringType) :
    shim.covers module resolved := by
  rcases tables.overrides_of_resolveVirtual fits declared isInstance isSlot names resolves
    subtype with rfl | overrides
  · simp [covers, names]
  · simp [covers, overrides]

/-- The method that a virtual call resolves to is an instance method. -/
theorem Module.isStatic_of_resolveVirtual {module : Module} (tables : module.Tables)
    {type : Token} {method resolved : MethodDef} (isInstance : method.isStatic = false)
    (isSlot : method.isVirtual || method.isAbstract)
    (resolves : module.resolveVirtual type method = .ok resolved) :
    resolved.isStatic = false := by
  rw [resolveVirtual_eq isInstance isSlot] at resolves
  rcases tables.resolveFrom_cases resolves with rfl | fills
  · exact isInstance
  · exact fills.isInstance

namespace Exec

variable {context : Context} {machine : Machine} {isolation : IsolationRun} {site : Stub}

theorem runOf_of_active (active : machine.run? site.run = some isolation) :
    runOf site context machine = .ok isolation machine := by
  unfold runOf
  rw [bind_of_ok get_run, active]
  rfl

theorem shimFor?_of_active (active : machine.run? site.run = some isolation)
    (method : MethodDef) (receiver? : Option Receiver) :
    shimFor? site method receiver? context machine =
      .ok (isolation.shimFor? context.module method receiver?) machine := by
  unfold shimFor?
  rw [bind_of_ok (runOf_of_active active), bind_of_ok module_run, pure_run]

/-- A run without shims replaces nothing. -/
theorem shimFor?_of_noShims (active : machine.run? site.run = some isolation)
    (noShims : isolation.shims = []) (method : MethodDef) (receiver? : Option Receiver) :
    shimFor? site method receiver? context machine = .ok none machine := by
  rw [shimFor?_of_active active, IsolationRun.shimFor?, noShims]
  cases Shim.choose? context.module [] method receiver? <;> rfl

theorem receiverOf?_object {reference : HeapRef} {type : Token}
    (live : machine.heap.typeOf reference = .ok type) :
    receiverOf? (.object reference) context machine =
      .ok (some ⟨some reference, some type⟩) machine := by
  have typed : runtimeType? (.object reference) context machine = .ok (some type) machine := by
    dsimp only [runtimeType?]
    rw [bind_of_ok (readHeap_of_ok live), pure_run]
  dsimp only [receiverOf?]
  rw [bind_of_ok (pure_run _)]
  dsimp only
  rw [bind_of_ok typed, pure_run]

/-- A virtual call through a stub runs the replacement of the shim that the run has for the
method that the receiver runs. -/
theorem runStub_virtual {reference : HeapRef} {type : Token} {resolved : MethodDef}
    {shim : Shim} (kind : site.kind = .virtual)
    (active : machine.run? site.run = some isolation)
    (live : machine.heap.typeOf reference = .ok type)
    (resolves : context.module.resolveVirtual type site.target = .ok resolved)
    (choice : isolation.shimFor? context.module resolved
      (some ⟨some reference, some type⟩) = some shim)
    (run : Runner) (others : List Value) :
    runStub run site (.object reference :: others) context machine =
      runReplacement run shim.replacement (.object reference :: others) context machine := by
  have resolvedRun : resolve site.target ⟨some reference, some type⟩ context machine =
      .ok resolved machine := by
    dsimp only [resolve]
    rw [bind_of_ok module_run, resolves, ofExcept_ok_run]
  have chosen : shimFor? site resolved (some ⟨some reference, some type⟩) context machine =
      .ok (some shim) machine := by
    rw [shimFor?_of_active active, choice]
  unfold runStub
  rw [bind_of_ok (discard_of_ok (runOf_of_active active)), kind]
  dsimp only [stubVirtual]
  rw [bind_of_ok (receiverOf?_object live)]
  dsimp only
  rw [bind_of_ok resolvedRun, bind_of_ok chosen]

/-- A virtual call on an object, through a stub of a run that has a shim for all calls of the
called method. -/
structure ShimmedCall (context : Context) (machine : Machine) (isolation : IsolationRun)
    (site : Stub) (shim : Shim) (reference : HeapRef) (type : Token) : Prop where
  reachable : context.module.Reachable
  /-- The methods have tokens of their own. -/
  fits : context.module.methods.size < Token.rowBound
  declared : context.module.Declares site.target
  kind : site.kind = .virtual
  isInstance : site.target.isStatic = false
  isSlot : site.target.isVirtual || site.target.isAbstract
  isolated : isolation.isIntrinsic context.module site.target = false
  active : machine.run? site.run = some isolation
  member : shim ∈ isolation.shims
  names : shim.identity = site.target.identity
  unscoped : shim.receiver = .any
  live : machine.heap.typeOf reference = .ok type
  subtype : context.module.isSubtypeOf type site.target.declaringType

/-- A virtual call through a stub runs, whatever else it is given, the replacement of a shim
that matches the method that the receiver runs. -/
def RunsShim (context : Context) (machine : Machine) (isolation : IsolationRun) (site : Stub)
    (reference : HeapRef) (type : Token) : Prop :=
  ∃ resolved, context.module.resolveVirtual type site.target = .ok resolved ∧
    ∃ chosen ∈ isolation.shims,
      chosen.Matches context.module resolved ⟨some reference, some type⟩ ∧
      ∀ run others, runStub run site (.object reference :: others) context machine =
        runReplacement run chosen.replacement (.object reference :: others) context machine

/-- The call of a method that has a shim for every receiver is not forwarded, and it runs a
shim on every object that derives from or implements the type of the method.  For an interface
method that holds only where the type with the implementation has the interface itself. -/
theorem virtualCall_runs_shim {context : Context} {machine : Machine}
    {isolation : IsolationRun} {site : Stub} {shim : Shim} {reference : HeapRef} {type : Token}
    (call : ShimmedCall context machine isolation site shim reference type)
    (implemented : site.target.declaringType ∈ context.module.baseChain type ∨
      ∀ resolved, context.module.resolveVirtual type site.target = .ok resolved →
        context.module.isSubtypeOf resolved.declaringType site.target.declaringType) :
    isolation.forwards context.module site.target true = false ∧
      RunsShim context machine isolation site reference type := by
  have tables := call.reachable.tables
  refine ⟨IsolationRun.forwards_eq_false call.member call.names call.isolated true, ?_⟩
  obtain ⟨resolved, resolves⟩ := tables.resolveVirtual_total call.subtype
  have subtype : context.module.isSubtypeOf resolved.declaringType
      site.target.declaringType := by
    rcases implemented with onChain | below
    · exact tables.isSubtypeOf_of_resolveVirtual call.isInstance call.isSlot resolves onChain
    · exact below resolved resolves
  have isInstance : resolved.isStatic = false :=
    Module.isStatic_of_resolveVirtual tables call.isInstance call.isSlot resolves
  have covers : shim.covers context.module resolved :=
    Shim.covers_of_resolveVirtual tables call.fits call.declared call.isInstance call.isSlot
      call.names resolves subtype
  have isMatch : shim.Matches context.module resolved ⟨some reference, some type⟩ :=
    ⟨covers, Or.inr (by simp [Shim.accepts, call.unscoped])⟩
  obtain ⟨chosen, choice⟩ := IsolationRun.exists_shimFor? isInstance call.member isMatch
  obtain ⟨chosenMember, chosenMatch⟩ := IsolationRun.matches_of_shimFor? isInstance choice
  exact ⟨resolved, resolves, chosen, chosenMember, chosenMatch,
    fun run others => runStub_virtual call.kind call.active call.live resolves choice run others⟩

end Exec

/-! ## Greeters -/

namespace Greeters

open Stateful

def interface : Token := .ofRow .typeDef 18
def base : Token := .ofRow .typeDef 19
def derived : Token := .ofRow .typeDef 20
def loud : Token := .ofRow .typeDef 21

def greet : MethodDeclaration :=
  { name := "Greet", flags := MethodModifiers.isVirtual, returnType := .int32 }

def withInterface : Module :=
  finalState (Module.declareMethod interface greet.asAbstract (finalState
    (Module.declareType (TypeDeclaration.asInterface { space := "Demo", name := "IGreeter" })
      Module.initial)))

def withBase : Module :=
  finalState (Module.setBody (.ofRow .methodDef 27) [0x0A, 0x1D, 0x2A] (finalState
    (Module.declareMethod base greet (finalState
      (Module.declareType { space := "Demo", name := "Base" } withInterface)))))

def module : Module :=
  finalState (Module.declareMethod loud greet (finalState
    (Module.declareType { space := "Demo", name := "Loud", base? := some derived } (finalState
      (Module.declareType
        { space := "Demo", name := "Derived", base? := some base, interfaces := [interface] }
        withBase)))))

theorem module_reachable : module.Reachable :=
  .declareMethod _ _ (.declareType _ (.declareType _ (.setBody _ _ (.declareMethod _ _
    (.declareType _ (.declareMethod _ _ (.declareType _ .initial)))))))

def method (row : Nat) : MethodDef :=
  ((module.method (.ofRow .methodDef row)).toOption).getD default

def replacing (target : MethodDef) : Shim :=
  { method := target, receiver := .any
    replacement := .native
      { name := "replacement", params := [.reference target.declaringType]
        returnType := .int32, body := .host fun _ => .done (.int32 42) }
    isSetter := false, constructionBase? := none }

def machine (type : Token) (target : MethodDef) : Machine :=
  { Machine.ofModule module .standard with
    heap := ⟨#[.object type []], 0⟩
    runs := #[some { shims := [replacing target], config := {} }] }

theorem shimmedCall (type : Token) (row : Nat)
    (declared : module.Declares (method row)) (isInstance : (method row).isStatic = false)
    (isSlot : (method row).isVirtual || (method row).isAbstract)
    (isolated : ForwardPolicy.isIntrinsic {} module (method row) = false)
    (subtype : module.isSubtypeOf type (method row).declaringType) :
    Exec.ShimmedCall ⟨module, .standard⟩ (machine type (method row))
      { shims := [replacing (method row)], config := {} } ⟨0, .virtual, method row⟩
      (replacing (method row)) ⟨1⟩ type where
  reachable := module_reachable
  fits := by decide +kernel
  declared := declared
  kind := rfl
  isInstance := isInstance
  isSlot := isSlot
  isolated := isolated
  active := rfl
  member := List.mem_singleton.mpr rfl
  names := rfl
  unscoped := rfl
  live := rfl
  subtype := subtype

/-- The shim of the base type's method covers the override. -/
theorem loud_runs_shim :
    Exec.RunsShim ⟨module, .standard⟩ (machine loud (method 27))
      { shims := [replacing (method 27)], config := {} } ⟨0, .virtual, method 27⟩ ⟨1⟩ loud := by
  have call := shimmedCall loud 27 ⟨_, rfl, rfl⟩ (by decide +kernel)
    (by decide +kernel) (by decide +kernel) (by decide +kernel)
  exact (Exec.virtualCall_runs_shim call (Or.inl (by decide +kernel))).2

def returns (number : Int32) (result : EStateM.Result Error Machine Value) : Bool :=
  match result with
  | .ok (.int32 value) _ => value == number
  | _ => false

/-- The shim of the interface method is passed by where the base type, which does not have the
interface, implements the method. -/
theorem derived_escapes_shim :
    ¬ ∀ (context : Context) (machine : Machine) (isolation : IsolationRun) (site : Stub)
      (shim : Shim) (reference : HeapRef) (type : Token),
      Exec.ShimmedCall context machine isolation site shim reference type →
        Exec.RunsShim context machine isolation site reference type := by
  intro covered
  have call := shimmedCall derived 26 ⟨_, rfl, rfl⟩ (by decide +kernel) (by decide +kernel)
    (by decide +kernel) (by decide +kernel)
  obtain ⟨resolved, _, chosen, member, _, runs⟩ := covered _ _ _ _ _ _ _ call
  obtain rfl := List.mem_singleton.mp member
  have escaped : returns 7 (Exec.runStub (Exec.activate 2) ⟨0, .virtual, method 26⟩
      [.object ⟨1⟩] ⟨module, .standard⟩ (machine derived (method 26))) = true := by
    decide +kernel
  rw [runs] at escaped
  have replaced : returns 7 (Exec.runReplacement (Exec.activate 2)
      (replacing (method 26)).replacement [.object ⟨1⟩] ⟨module, .standard⟩
      (machine derived (method 26))) = false := by
    decide +kernel
  rw [replaced] at escaped
  cases escaped

end Greeters

end Cil
