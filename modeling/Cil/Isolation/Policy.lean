import Cil.Machine.Limits
import Cil.Metadata.Module

/-!
# Forwarding policy

The calls that an isolated body makes directly, without a stub: all calls of
intrinsic methods, and calls of some methods that have no body.
-/

namespace Cil

/-- Which calls need no stub. -/
structure ForwardPolicy where
  /-- The namespaces of intrinsic types, nested ones included. -/
  intrinsicSpaces : List String :=
    ["System.Runtime.CompilerServices", "System.Runtime.Intrinsics",
      "System.Runtime.InteropServices"]
  /-- The full names of further types that count as intrinsic. -/
  forcedTypes : List String := []
  forwardsInternalCalls : Bool := true
  forwardsPlatformInvokes : Bool := true
deriving DecidableEq, Repr, Inhabited

namespace ForwardPolicy

/-- The policy that forwards as little as possible. -/
def none : ForwardPolicy :=
  { intrinsicSpaces := [], forwardsInternalCalls := false, forwardsPlatformInvokes := false }

/-- Whether a namespace is another one or nested in it. -/
def isWithin (space outer : String) : Bool :=
  space == outer || (outer ++ ".").toList.isPrefixOf space.toList

/-- Whether a method belongs to a type that is never isolated. -/
def isIntrinsic (policy : ForwardPolicy) (module : Module) (method : MethodDef) : Bool :=
  match module.typeDef method.declaringType with
  | .error _ => false
  | .ok owner =>
    policy.intrinsicSpaces.any (isWithin owner.space) ||
      policy.forcedTypes.contains owner.fullName

/-- Whether calls of a method without a body need no stub. -/
def forwardsBodiless (policy : ForwardPolicy) (method : MethodDef) : Bool :=
  if method.isPlatformInvoke then policy.forwardsPlatformInvokes
  else if method.isInternalCall then policy.forwardsInternalCalls
  else true

end ForwardPolicy

/-- How an isolation run is set up. -/
structure IsolationConfig where
  policy : ForwardPolicy := {}
  /-- The bounds of the run, if they differ from those of the machine. -/
  limits? : Option Limits := Option.none
deriving DecidableEq, Repr, Inhabited

namespace IsolationConfig

/-- Forwards as little as possible, within the standard bounds. -/
def strict : IsolationConfig :=
  { policy := .none, limits? := some .standard }

/-- Forwards as usual, without bounds but for the call depth. -/
def permissive : IsolationConfig :=
  { limits? := some .unlimited }

end IsolationConfig

end Cil
