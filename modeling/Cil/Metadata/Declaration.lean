import Cil.Code.Assembler
import Cil.Code.Body

/-!
# Declaring types, fields and methods

Declarations say what to add to a module; declaring checks them against the tables
and appends rows.  A type can only build on types that are already declared.
-/

namespace Cil

open MonadExcept (ofExcept)

structure TypeDeclaration where
  space : String
  name : String
  flags : TypeFlags := TypeFlags.isPublic
  base? : Option Token := none
  interfaces : List Token := []
  isValueType : Bool := false
deriving Repr, Inhabited

namespace TypeDeclaration

def asValueType (declaration : TypeDeclaration) : TypeDeclaration :=
  { declaration with
    isValueType := true, flags := declaration.flags ||| TypeFlags.isSealed }

def asInterface (declaration : TypeDeclaration) : TypeDeclaration :=
  { declaration with
    flags := declaration.flags ||| TypeFlags.isInterface ||| TypeFlags.isAbstract }

def asAbstract (declaration : TypeDeclaration) : TypeDeclaration :=
  { declaration with flags := declaration.flags ||| TypeFlags.isAbstract }

def asSealed (declaration : TypeDeclaration) : TypeDeclaration :=
  { declaration with flags := declaration.flags ||| TypeFlags.isSealed }

/-- The base type: interfaces have none, and the others derive from the root of
their kind if nothing else is said. -/
def effectiveBase? (declaration : TypeDeclaration) : Option Token :=
  if declaration.flags.contains TypeFlags.isInterface then none
  else if declaration.base?.isSome then declaration.base?
  else if declaration.isValueType then some Core.valueType
  else some Core.object

end TypeDeclaration

structure FieldDeclaration where
  name : String
  signature : TypeSig
  flags : FieldFlags := FieldFlags.isPublic
deriving Repr, Inhabited

def FieldDeclaration.asStatic (declaration : FieldDeclaration) : FieldDeclaration :=
  { declaration with flags := declaration.flags ||| FieldFlags.isStatic }

structure BodyDeclaration where
  locals : List TypeSig := []
  maxStack? : Option Nat := none
  initLocals : Bool := true
  /-- The program, if one was given. -/
  program? : Option (List Statement) := none
deriving Inhabited

structure MethodDeclaration where
  name : String
  flags : MethodModifiers := MethodModifiers.hideBySig
  codeType : CodeType := CodeType.intermediate
  options : ImplOptions := Flags.empty
  params : List TypeSig := []
  returnType : TypeSig := .void
  genericArity : Nat := 0
  body? : Option BodyDeclaration := none
deriving Inhabited

namespace MethodDeclaration

def ofConstructor : MethodDeclaration :=
  { name := MethodDef.constructorName
    flags := MethodModifiers.hideBySig ||| MethodModifiers.specialName |||
      MethodModifiers.runtimeSpecialName }

def withFlags (declaration : MethodDeclaration) (flags : MethodModifiers) :
    MethodDeclaration :=
  { declaration with flags := declaration.flags ||| flags }

def asAbstract (declaration : MethodDeclaration) : MethodDeclaration :=
  declaration.withFlags (MethodModifiers.isVirtual ||| MethodModifiers.isAbstract)

def asInternalCall (declaration : MethodDeclaration) : MethodDeclaration :=
  { declaration with options := declaration.options ||| ImplOptions.internalCall }

def asPlatformInvoke (declaration : MethodDeclaration) : MethodDeclaration :=
  { declaration.withFlags (MethodModifiers.platformInvoke ||| MethodModifiers.isStatic) with
    options := declaration.options ||| ImplOptions.preserveSig }

/-- Whether the method is implemented elsewhere or not at all. -/
def isBodiless (declaration : MethodDeclaration) : Bool :=
  declaration.flags.contains MethodModifiers.isAbstract ||
    declaration.flags.contains MethodModifiers.platformInvoke ||
    declaration.options.contains ImplOptions.internalCall

end MethodDeclaration

namespace Module

def declareType (declaration : TypeDeclaration) : ModuleM Token := do
  let module ← get
  if (module.findType? declaration.space declaration.name).isSome then
    throw (.malformed (.typeAlreadyDefined declaration.space declaration.name))
  let base? := declaration.effectiveBase?
  (base?.toList ++ declaration.interfaces).forM fun dependency =>
    discard (ofExcept (module.typeDef dependency))
  addType fun token =>
    { token, space := declaration.space, name := declaration.name, flags := declaration.flags
      base?, interfaces := declaration.interfaces, isValueType := declaration.isValueType }

/-- Adds a field to a type. -/
def declareField (owner : Token) (declaration : FieldDeclaration) : ModuleM Token := do
  discard (ofExcept ((← get).typeDef owner))
  addField fun token =>
    { token, declaringType := owner, name := declaration.name
      signature := declaration.signature, flags := declaration.flags }

/-- Assembles a body: its bytes, and the signature of its locals, which is added to
the module if there are any. -/
def buildBody (declaration : BodyDeclaration) : ModuleM (List UInt8 × Token) := do
  let some program := declaration.program? | throw (.malformed .implementationMissing)
  let emitted ← ofExcept (Assembler.assembleAll (some (← get)) program)
  let locals ←
    if declaration.locals.isEmpty then pure Token.null
    else addSignature (.locals (declaration.locals.map fun signature => { signature }))
  let maxStack := declaration.maxStack?.getD emitted.maxStack
  let bytes ← ofExcept
    (Body.encode emitted.code maxStack locals declaration.initLocals emitted.clauses)
  return (bytes, locals)

/-- Assembles and attaches the body of a method that has none. -/
def implement (method : Token) (declaration : BodyDeclaration) : ModuleM Unit := do
  let definition ← ofExcept ((← get).method method)
  if definition.body?.isSome then throw (.malformed (.bodyAlreadySet method))
  let (bytes, _) ← buildBody declaration
  setBody method bytes

/-- Adds a method to a type.  The instance methods of an interface are abstract.  A
body that cannot be assembled leaves the method without one. -/
def declareMethod (owner : Token) (declaration : MethodDeclaration) : ModuleM Token := do
  let ownerDef ← ofExcept ((← get).typeDef owner)
  if declaration.isBodiless && declaration.body?.isSome then
    throw (.malformed (.bodyNotAllowed ownerDef.fullName declaration.name))
  let isStatic := declaration.flags.contains MethodModifiers.isStatic
  if ownerDef.isInterface && !isStatic && declaration.body?.isSome then
    throw (.notSupported (.defaultInterfaceMethod ownerDef.fullName declaration.name))
  let flags :=
    if ownerDef.isInterface && !isStatic then
      declaration.flags ||| MethodModifiers.isVirtual ||| MethodModifiers.isAbstract
    else declaration.flags
  let token ← addMethod fun token =>
    { token, declaringType := owner, name := declaration.name, flags
      access := AccessFlags.isPublic, codeType := declaration.codeType
      options := declaration.options, params := declaration.params
      returnType := declaration.returnType, genericArity := declaration.genericArity
      genericArguments := [], body? := none }
  if let some body := declaration.body? then implement token body
  return token

end Module

end Cil
