import Cil.Code.MethodCode
import Cil.Isolation.StubKind
import Cil.Machine.Value

/-!
# What can be called

A callable is a method of the module, a method that was assembled at run time, or a
native method.  Native methods do what the core library defines, stand for a call
site of an isolated body, or run a program of the host.

A program of the host is a tree of requests to the machine.  It decides how to go on
by the answers, and it ends with a value or a failure.
-/

namespace Cil

/-- What a program of the host asks the machine to do. -/
inductive Request
  /-- Checks that a method exists. -/
  | resolve (method : Token)
  | call (method : Token) (arguments : List Value)
  | callVirtual (method : Token) (arguments : List Value)
  | construct (method : Token) (arguments : List Value)
  | load (pointer : Pointer)
  | store (pointer : Pointer) (value : Value)
  | newString (text : String)
  | newObject (type : Token)
  | newArray (elementType : TypeSig) (elements : List Value)
  | newBox (type : Token) (payload : Value)
  | zero (signature : TypeSig)
  | functionPointer (method : Token)
  | throwNew (type : Token) (message? : Option String)
  | writeLine (text : String)
  /-- The number of calls that are in progress. -/
  | depth
  /-- The number of instructions executed so far. -/
  | executed
deriving Repr

/-- A program of the host. -/
inductive Program
  | done (value : Value)
  | fail (error : Error)
  | perform (request : Request) (next : Value → Program)
  /-- Reads a string from the heap; null reads as no text. -/
  | readString (reference : Value) (next : Except Error (Option String) → Program)

namespace Program

instance : Inhabited Program := ⟨done .void⟩

/-- Goes on with the value of a program. -/
def andThen : Program → (Value → Program) → Program
  | done value, next => next value
  | fail error, _ => fail error
  | perform request first, next => perform request fun answer => (first answer).andThen next
  | readString reference first, next =>
    readString reference fun answer => (first answer).andThen next

def ask (request : Request) : Program :=
  perform request done

end Program

/-- The methods of the core library, by what they do. -/
inductive CoreNative
  | nothing
  | toString
  | concat
  | toUpper
  | length
  | equality
  | writeLineString
  | writeLineInt
  | message
  | setMessage
  | createDelegate
  | invokeDelegate
deriving DecidableEq, Repr, Inhabited

/-- A stub: the call site of an isolated body that it stands for, and the run that it
belongs to. -/
structure Stub where
  run : Nat
  kind : StubKind
  target : MethodDef
deriving Repr, Inhabited

/-- What a native method does. -/
inductive NativeBody
  | core (operation : CoreNative)
  | stub (site : Stub)
  | host (program : List Value → Program)

instance : Inhabited NativeBody := ⟨.core .nothing⟩

structure Native where
  name : String
  params : List TypeSig
  returnType : TypeSig
  body : NativeBody
deriving Inhabited

/-- The signature of calls of a native method. -/
def Native.signature (native : Native) : MethodSignature :=
  { hasThis := false, params := native.params, returnType := native.returnType }

/-- What a dynamic token stands for. -/
inductive ScopeEntry
  | native (provided : Native)
  | member (method : Token)
deriving Inhabited

/-- The dynamic tokens of a method, numbered from one. -/
structure Scope where
  entries : Array ScopeEntry := #[]
deriving Inhabited

namespace Scope

def size (scope : Scope) : Nat := scope.entries.size

/-- The token of the entry at an index. -/
def tokenAt (index : Nat) : Token := .ofRow .dynamic (index + 1)

def add (scope : Scope) (entry : ScopeEntry) : Token × Scope :=
  (tokenAt scope.size, ⟨scope.entries.push entry⟩)

def find? (scope : Scope) (token : Token) : Option ScopeEntry :=
  (token.indexIn? .dynamic).bind (scope.entries[·]?)

def toList (scope : Scope) : List (Token × ScopeEntry) :=
  scope.entries.toList.zipIdx.map fun (entry, index) => (tokenAt index, entry)

/-- The name of what a token stands for. -/
def describe (scope : Scope) (module : Module) (token : Token) : String :=
  match scope.find? token with
  | some (.native provided) => provided.name
  | some (.member method) => module.methodName method
  | none => token.text

end Scope

/-- A method that was assembled at run time. -/
structure DynamicMethod where
  name : String
  origin : MethodIdentity
  params : List TypeSig
  returnType : TypeSig
  body : List UInt8
  code : MethodCode
  scope : Scope
deriving Inhabited

namespace DynamicMethod

/-- Assembles a method from its code.  The code must be valid together with the
clauses, and it must fit into a method body. -/
def ofCode (name : String) (origin : MethodIdentity) (params : List TypeSig)
    (returnType : TypeSig) (locals : List LocalVariable) (scope : Scope)
    (code : List UInt8) (maxStack : Nat) (clauses : List Clause) :
    Except Error DynamicMethod := do
  let body ← Body.encode code maxStack .null true clauses
  let code ← MethodCode.ofBytes code locals clauses maxStack true
  return { name, origin, params, returnType, body, code, scope }

def signature (method : DynamicMethod) : MethodSignature :=
  { hasThis := false, params := method.params, returnType := method.returnType }

end DynamicMethod

/-- Something that can be called. -/
inductive Callable
  | method (definition : MethodDef)
  | dynamic (assembled : DynamicMethod)
  | native (provided : Native)
deriving Inhabited

namespace Callable

/-- Whether a call takes a receiver apart from the parameters. -/
def hasThis : Callable → Bool
  | method definition => !definition.isStatic
  | dynamic _ | native _ => false

def name (module : Module) : Callable → String
  | method definition => module.methodName definition.token
  | dynamic assembled => assembled.name
  | native provided => provided.name

end Callable

end Cil
