import Cil.Isolation.Shim

/-!
# Choosing a shim

Among the shims of a run, one that is bound to the receiver itself comes first;
otherwise the earliest one that accepts the receiver is chosen.
-/

namespace Cil

/-- What a call knows about its receiver. -/
structure Receiver where
  object? : Option HeapRef
  runtimeType? : Option Token
deriving DecidableEq, Repr, Inhabited

namespace Shim

/-- Whether a shim is for a method: for the method itself, or for one whose slot the
method takes over. -/
def covers (module : Module) (method : MethodDef) (shim : Shim) : Bool :=
  shim.identity == method.identity || module.overrides method shim.method

/-- Whether a shim is bound to the receiver itself. -/
def isBoundTo (receiver : Receiver) (shim : Shim) : Bool :=
  match receiver.object? with
  | some object => shim.receiver == .object object
  | none => false

/-- Whether a shim that is bound to no object accepts a receiver. -/
def accepts (module : Module) (receiver : Receiver) (shim : Shim) : Bool :=
  match shim.receiver with
  | .object _ => false
  | .type type => receiver.runtimeType?.any (module.isSubtypeOf · type)
  | .any => true

/-- Whether some shim is for exactly this method. -/
def anyNames (shims : List Shim) (identity : MethodIdentity) : Bool :=
  shims.any (·.identity == identity)

/-- The index of the shim that replaces a call.  Without a receiver only a shim for
exactly the called method does. -/
def choose? (module : Module) (shims : List Shim) (method : MethodDef)
    (receiver? : Option Receiver) : Option Nat :=
  match method.isStatic, receiver? with
  | false, some receiver =>
    (shims.findIdx? fun shim => shim.isBoundTo receiver && shim.covers module method).or
      (shims.findIdx? fun shim =>
        shim.accepts module receiver && shim.covers module method)
  | _, _ => shims.findIdx? (·.identity == method.identity)

end Shim

end Cil
