import Cil.Document.Emission
import Cil.Metadata.Declaration

/-!
# Documents of types, fields and methods

Declarations are read, and what a module knows about its types, fields and methods is
written.
-/

namespace Cil

/-! ## Declarations -/

/-- The declaration with a flag of a given name. -/
def TypeDeclaration.withFlag (declaration : TypeDeclaration) (flag : String) :
    Reader TypeDeclaration :=
  match flag with
  | "value_type" => return declaration.asValueType
  | "interface" => return declaration.asInterface
  | "abstract" => return declaration.asAbstract
  | "sealed" => return declaration.asSealed
  | flag => throw ("unknown type flag " ++ flag)

instance : FromDocument TypeDeclaration where
  fromDocument document := do
    let declaration : TypeDeclaration :=
      { space := ← document.getD "ns" "", name := ← document.get "name"
        base? := ← document.get "base", interfaces := ← document.get "implements" }
    let flags : List String ← document.get "flags"
    flags.foldlM TypeDeclaration.withFlag declaration

instance : FromDocument FieldDeclaration where
  fromDocument document := do
    let declaration : FieldDeclaration :=
      { name := ← document.get "name", signature := ← document.get "sig" }
    let isStatic : Bool ← document.get "static"
    return if isStatic then declaration.asStatic else declaration

instance : FromDocument BodyDeclaration where
  fromDocument document :=
    return { locals := ← document.get "locals", maxStack? := ← document.get "max_stack"
             initLocals := ← document.getD "init_locals" true
             program? := ← document.get "asm" }

/-- The declaration with a flag of a given name. -/
def MethodDeclaration.withFlag (declaration : MethodDeclaration) (flag : String) :
    Reader MethodDeclaration :=
  match flag with
  | "static" => return declaration.withFlags MethodModifiers.isStatic
  | "virtual" => return declaration.withFlags MethodModifiers.isVirtual
  | "abstract" => return declaration.asAbstract
  | "final" => return declaration.withFlags MethodModifiers.isFinal
  | "new_slot" => return declaration.withFlags MethodModifiers.newSlot
  | "special" => return declaration.withFlags MethodModifiers.specialName
  | "internal" => return declaration.asInternalCall
  | "pinvoke" => return declaration.asPlatformInvoke
  | flag => throw ("unknown method flag " ++ flag)

/-- A method without a name is a constructor. -/
instance : FromDocument MethodDeclaration where
  fromDocument document := do
    let declaration : MethodDeclaration :=
      match ← document.get "name" with
      | some name => { name }
      | none => .ofConstructor
    let flags : List String ← document.get "flags"
    let declaration ← flags.foldlM MethodDeclaration.withFlag declaration
    return { declaration with
      params := ← document.get "params", returnType := ← document.getD "ret" .void
      genericArity := ← document.getD "arity" 0, body? := ← document.get "body" }

/-! ## Descriptions -/

def Module.describeType (module : Module) (type : TypeDef) : Document := .record
  [("full_name", type.fullName), ("flags", type.flags), ("base", type.base?),
    ("interfaces", type.interfaces), ("value_type", type.isValueType),
    ("interface", type.isInterface), ("sig", type.signature),
    ("methods", (module.methodsOf type.token).map (·.token)),
    ("fields", (module.fieldsOf type.token).map (·.token))]

def Module.describeMethod (module : Module) (method : MethodDef) : Document :=
  let identity := method.identity
  let body? := module.bodyOf? method
  let marks : List IdentityFlags :=
    [IdentityFlags.isStatic, IdentityFlags.isConstructor, IdentityFlags.isVirtual,
      IdentityFlags.isAbstract]
  .record
    [("token", method.token), ("name", method.name), ("owner", method.declaringType),
      ("flags", method.flags), ("access", method.access), ("code_type", method.codeType),
      ("options", method.options), ("arity", method.genericArity),
      ("args", method.genericArguments), ("signature", method.signature),
      ("is", [method.isStatic, method.isConstructor, method.isAbstract, method.isVirtual,
        method.isOverridable, method.isInternalCall, method.isPlatformInvoke,
        body?.isSome, method.isInstantiation]),
      ("identity", identity.text),
      ("identity_is", marks.map fun mark => identity.flags.contains mark),
      ("full_name", module.methodName method.token), ("body", body?)]

instance : ToDocument FieldDef where
  toDocument field := .record
    [("name", field.name), ("owner", field.declaringType), ("sig", field.signature),
      ("flags", field.flags), ("static", field.isStatic)]

end Cil
