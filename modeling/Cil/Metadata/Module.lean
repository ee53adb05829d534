import Cil.Metadata.Core

/-!
# Modules

A module is a set of tables.  Rows are only ever appended, so a token keeps its
meaning for the life of the module; the one thing that changes in place is the
body of a method definition, which is attached at most once.
-/

namespace Cil

open MonadExcept (ofExcept)

/-- The tables of a module. -/
structure Module where
  types : Array TypeDef
  methods : Array MethodDef
  fields : Array FieldDef
  strings : Array String
  signatures : Array StandAloneSignature
  /-- The generic definition and the type arguments of each instantiation. -/
  instantiations : Array (Token × List TypeSig)
deriving Repr

/-- A change of a module that may fail.  What was appended before a failure
stays. -/
abbrev ModuleM := EStateM Error Module

namespace Module

/-- The module that holds the core library and nothing else. -/
def initial : Module :=
  { types := Core.types.toArray, methods := Core.methods.toArray
    fields := Core.fields.toArray, strings := #[], signatures := #[], instantiations := #[] }

instance : Inhabited Module := ⟨initial⟩

/-! ## Looking up rows -/

/-- The row of a table that a token names. -/
def row? {α : Type} (table : TableId) (rows : Array α) (token : Token) : Option α :=
  (token.indexIn? table).bind (rows[·]?)

def typeDef (module : Module) (token : Token) : Except Error TypeDef :=
  match row? .typeDef module.types token with
  | some type => .ok type
  | none => .error (.typeNotFound token)

def field (module : Module) (token : Token) : Except Error FieldDef :=
  match row? .field module.fields token with
  | some field => .ok field
  | none => .error (.fieldNotFound token)

def userString (module : Module) (token : Token) : Except Error String :=
  match row? .userString module.strings token with
  | some text => .ok text
  | none => .error (.stringNotFound token)

def standAloneSignature (module : Module) (token : Token) :
    Except Error StandAloneSignature :=
  match row? .standAloneSig module.signatures token with
  | some signature => .ok signature
  | none => .error (.malformed (.unknownSignature token))

def methodDef (module : Module) (token : Token) : Except Error MethodDef :=
  match row? .methodDef module.methods token with
  | some method => .ok method
  | none => .error (.methodNotFound token.text)

/-- The method that a token names: a definition, or an instantiation with the
body that its definition has at this moment. -/
def method (module : Module) (token : Token) : Except Error MethodDef :=
  if token.tableId? = some .methodSpec then
    match row? .methodSpec module.instantiations token with
    | some (definition, arguments) => do
      (← module.methodDef definition).instantiate token arguments
    | none => .error (.methodNotFound token.text)
  else module.methodDef token

/-- The body of a method that was resolved earlier: a definition's body is the one
attached by now, an instantiation keeps the one it was resolved with. -/
def bodyOf? (module : Module) (method : MethodDef) : Option (List UInt8) :=
  if method.isInstantiation then method.body?
  else (row? .methodDef module.methods method.token).bind (·.body?)

/-- The methods that a type declares, in order of declaration. -/
def methodsOf (module : Module) (type : Token) : List MethodDef :=
  module.methods.toList.filter (·.declaringType == type)

/-- The fields that a type declares, in order of declaration. -/
def fieldsOf (module : Module) (type : Token) : List FieldDef :=
  module.fields.toList.filter (·.declaringType == type)

def findType? (module : Module) (space name : String) : Option Token :=
  (module.types.toList.find? fun type => type.space == space && type.name == name).map
    (·.token)

/-- The method of a type with a given name and parameters. -/
def findMethod? (module : Module) (type : Token) (name : String) (params : List TypeSig) :
    Option Token :=
  ((module.methodsOf type).find? fun method =>
    method.name == name && method.params == params).map (·.token)

/-- The first method of a type with a given name. -/
def findMethodNamed? (module : Module) (type : Token) (name : String) : Option Token :=
  ((module.methodsOf type).find? (·.name == name)).map (·.token)

/-- The full name of a type, or the text of its token if there is no such type. -/
def typeName (module : Module) (token : Token) : String :=
  match module.typeDef token with
  | .ok type => type.fullName
  | .error _ => token.text

/-- The name of a type without its namespace, or the text of its token. -/
def shortTypeName (module : Module) (token : Token) : String :=
  match module.typeDef token with
  | .ok type => type.name
  | .error _ => token.text

/-- The name of a method with its owner and type arguments. -/
def methodName (module : Module) (token : Token) : String :=
  match module.method token with
  | .ok method =>
    let arguments :=
      if method.isInstantiation then
        "<" ++ Text.commaSeparated (method.genericArguments.map TypeSig.text) ++ ">"
      else ""
    module.typeName method.declaringType ++ "::" ++ method.name ++ arguments
  | .error _ => token.text

/-- The signature of a slot that holds an instance of a type. -/
def typeSig (module : Module) (type : Token) : Except Error TypeSig :=
  match Core.primitiveSig? type with
  | some signature => .ok signature
  | none => do return (← module.typeDef type).signature

def isValueType (module : Module) (type : Token) : Bool :=
  match module.typeDef type with
  | .ok definition => definition.isValueType
  | .error _ => false

def isInterface (module : Module) (type : Token) : Bool :=
  match module.typeDef type with
  | .ok definition => definition.isInterface
  | .error _ => false

/-- The variables of a locals signature; no signature means no variables. -/
def locals (module : Module) : Option Token → Except Error (List LocalVariable)
  | none => .ok []
  | some token => do
    match ← module.standAloneSignature token with
    | .locals slots => return slots
    | .method _ => throw (.malformed (.notLocalsSignature token))

/-- The type of a field's zero value and of a parameter's receiver: an address for
value types. -/
def receiverSig (module : Module) (owner : Token) : Except Error TypeSig := do
  let signature ← module.typeSig owner
  return if module.isValueType owner then .byRef signature else signature

/-! ## Appending rows -/

def addType (build : Token → TypeDef) : ModuleM Token :=
  modifyGet fun module =>
    let token := Token.ofRow .typeDef (module.types.size + 1)
    (token, { module with types := module.types.push (build token) })

def addMethod (build : Token → MethodDef) : ModuleM Token :=
  modifyGet fun module =>
    let token := Token.ofRow .methodDef (module.methods.size + 1)
    (token, { module with methods := module.methods.push (build token) })

def addField (build : Token → FieldDef) : ModuleM Token :=
  modifyGet fun module =>
    let token := Token.ofRow .field (module.fields.size + 1)
    (token, { module with fields := module.fields.push (build token) })

def addString (text : String) : ModuleM Token :=
  modifyGet fun module =>
    let token := Token.ofRow .userString (module.strings.size + 1)
    (token, { module with strings := module.strings.push text })

def addSignature (signature : StandAloneSignature) : ModuleM Token :=
  modifyGet fun module =>
    let token := Token.ofRow .standAloneSig (module.signatures.size + 1)
    (token, { module with signatures := module.signatures.push signature })

/-- The token of the instantiation of a generic method.  Equal requests get equal
tokens. -/
def instantiateMethod (method : Token) (arguments : List TypeSig) : ModuleM Token := do
  let module ← get
  let definition ← ofExcept (module.method method)
  let _ ← ofExcept (definition.instantiate (Token.ofRow .methodSpec 0) arguments)
  match module.instantiations.findIdx? (· == (method, arguments)) with
  | some index => return Token.ofRow .methodSpec (index + 1)
  | none =>
    set { module with instantiations := module.instantiations.push (method, arguments) }
    return Token.ofRow .methodSpec (module.instantiations.size + 1)

/-- Attaches a body to a method definition that has none. -/
def setBody (method : Token) (bytes : List UInt8) : ModuleM Unit := do
  let module ← get
  if method.tableId? = some .methodSpec then
    throw (.malformed (.bodyOfInstantiation method))
  let definition ← ofExcept (module.methodDef method)
  if definition.body?.isSome then throw (.malformed (.bodyAlreadySet method))
  set { module with
    methods := module.methods.modify (method.row - 1) fun definition =>
      { definition with body? := some bytes } }

end Module

end Cil
