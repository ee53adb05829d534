import Cil.Document.Code
import Cil.Document.Value
import Cil.Isolation.Registry
import Cil.Isolation.Policy
import Cil.Listing

/-!
# Documents of limits, policies, assembled methods and shims
-/

namespace Cil

instance : FromDocument Limits where
  fromDocument document := do
    let preset : Option String ← document.get "preset"
    let start : Limits := if preset = some "unlimited" then .unlimited else .standard
    return { callDepth := ← document.getD "depth" start.callDepth
             instructions := ← document.getD "instructions" start.instructions
             heapObjects := ← document.getD "objects" start.heapObjects }

instance : FromDocument ForwardPolicy where
  fromDocument document := do
    let preset : Option String ← document.get "preset"
    let start : ForwardPolicy := if preset = some "none" then .none else {}
    return { intrinsicSpaces := start.intrinsicSpaces ++ (← document.get "namespaces")
             forcedTypes := start.forcedTypes ++ (← document.get "types")
             forwardsInternalCalls := ← document.getD "internal" start.forwardsInternalCalls
             forwardsPlatformInvokes :=
               ← document.getD "pinvoke" start.forwardsPlatformInvokes }

instance : FromDocument IsolationConfig where
  fromDocument document := do
    let start : IsolationConfig :=
      match ← document.get "preset" with
      | some "strict" => .strict
      | some "permissive" => .permissive
      | _ => {}
    let limits? : Option Limits ← document.get "limits"
    return { policy := ← document.getD "forward" start.policy
             limits? := limits?.or start.limits? }

/-- A scope entry is a method of the module or a native method. -/
instance : FromDocument ScopeEntry where
  fromDocument document := do
    match document.field? "member" with
    | some method => return .member (← fromDocument method)
    | none => return .native (← fromDocument document)

def Module.describeDynamic (module : Module) (method : DynamicMethod) : Document :=
  let scope := method.scope
  let code := method.code
  .record
    [("name", method.name), ("origin", method.origin.text), ("signature", method.signature),
      ("params", method.params), ("ret", method.returnType), ("locals", code.locals),
      ("body", method.body), ("max_stack", code.maxStack),
      ("scope", scope.toList.map fun (token, _) => (token, scope.describe module token)),
      ("scope_len", (scope.size, (scope.size == 0).toNat)), ("clauses", code.clauses),
      ("listing", Listing.ofDynamic module method)]

instance : ToDocument ReceiverMatch where
  toDocument
    | .any => "any"
    | .object reference => reference.text
    | .type type => type

def Module.describeShim (module : Module) (shim : Shim) : Document :=
  let signature : List (String × Document) :=
    match shim.replacement.signature module with
    | .ok (params, returnType) => [("params", params), ("ret", returnType)]
    | .error _ => []
  let target : List (String × Document) :=
    [("original", module.methodName shim.method.token), ("identity", shim.identity.text),
      ("receiver", shim.receiver), ("setter", shim.isSetter),
      ("base", shim.constructionBase?)]
  .record (target ++ signature)

instance : ToDocument Receiver where
  toDocument receiver := toDocument (receiver.object?.map (·.id), receiver.runtimeType?)

end Cil
