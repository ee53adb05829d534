import Cil.Isolation.Policy
import Cil.Isolation.Registry
import Cil.Isolation.Stub

/-!
# Isolation runs

A run holds its shims and its configuration, and remembers the stubs and the
instrumented bodies that were made for it.  Each is made at most once.
-/

namespace Cil

/-- The state of an isolation run. -/
structure IsolationRun where
  shims : List Shim
  config : IsolationConfig
  /-- The stubs by kind and target. -/
  stubs : List ((StubKind × MethodIdentity) × Native) := []
  /-- The instrumented bodies by origin, apart for those that interface calls use. -/
  bodies : List ((MethodIdentity × Bool) × DynamicMethod) := []
deriving Inhabited

namespace IsolationRun

def stub? (run : IsolationRun) (kind : StubKind) (target : MethodIdentity) : Option Native :=
  run.stubs.lookup (kind, target)

def body? (run : IsolationRun) (origin : MethodIdentity) (forInterface : Bool) :
    Option DynamicMethod :=
  run.bodies.lookup (origin, forInterface)

/-- Whether a method belongs to a type that is never isolated. -/
def isIntrinsic (run : IsolationRun) (module : Module) (method : MethodDef) : Bool :=
  run.config.policy.isIntrinsic module method

/-- Whether a call site is kept as it is, without a stub. -/
def forwards (run : IsolationRun) (module : Module) (method : MethodDef)
    (isVirtualCall : Bool) : Bool :=
  run.isIntrinsic module method ||
    (!Shim.anyNames run.shims method.identity &&
      !(isVirtualCall && method.isOverridable) &&
      !(module.bodyOf? method).isSome && !method.isAbstract &&
      run.config.policy.forwardsBodiless method)

/-- The shim that replaces a call. -/
def shimFor? (run : IsolationRun) (module : Module) (method : MethodDef)
    (receiver? : Option Receiver) : Option Shim :=
  (Shim.choose? module run.shims method receiver?).bind (run.shims[·]?)

/-- The remembered stub, or a new one that is remembered from now on. -/
def stubOf (module : Module) (id : Nat) (kind : StubKind) (target : MethodDef) :
    EStateM Error IsolationRun Native := do
  match (← get).stub? kind target.identity with
  | some native => return native
  | none =>
    let native ← MonadExcept.ofExcept (Stub.native module ⟨id, kind, target⟩)
    modify fun run => { run with stubs := ((kind, target.identity), native) :: run.stubs }
    return native

end IsolationRun

end Cil
