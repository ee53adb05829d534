import Cil.Machine.Callable
import Cil.Text.Quoted

/-!
# Listings

The code of a method as text: a line for each instruction and one for each clause.
-/

namespace Cil

namespace Listing

def targetList (targets : List Nat) : String :=
  Text.commaSeparated (targets.map Text.codeOffset)

/-- What a token names.  Dynamic tokens are looked up in the scope, if there is one. -/
def tokenText (module : Module) (scope? : Option Scope) (token : Token) : String :=
  match token.tableId? with
  | some .methodDef | some .methodSpec => module.methodName token
  | some .typeDef => module.typeName token
  | some .field =>
    match module.field token with
    | .ok field => module.typeName field.declaringType ++ "::" ++ field.name
    | .error _ => token.text
  | some .userString =>
    match module.userString token with
    | .ok text => Text.quoted text
    | .error _ => token.text
  | some .dynamic =>
    match scope? with
    | some scope => scope.describe module token
    | none => token.text
  | some .standAloneSig | none => token.text

def operandText? (module : Module) (scope? : Option Scope) (instruction : Instruction) :
    Option String :=
  match instruction.operand with
  | .none => none
  | .immediate value =>
    if instruction.targets.isEmpty then some value.text
    else some (targetList instruction.targets)
  | .target offset => some (Text.codeOffset offset.toNat)
  | .switch _ => some ("(" ++ targetList instruction.targets ++ ")")
  | .token token => some (tokenText module scope? token)
  | .localIndex index => some s!"V_{index.toNat}"
  | .argumentIndex index => some s!"A_{index.toNat}"

def instructionLine (module : Module) (scope? : Option Scope) (instruction : Instruction) :
    String :=
  Text.codeOffset instruction.offset ++ ": " ++ instruction.mnemonic ++
    match operandText? module scope? instruction with
    | some text => " " ++ text
    | none => ""

/-- What a clause is for. -/
def clauseSubject (module : Module) (scope? : Option Scope) (clause : Clause) : String :=
  match clause.kind with
  | .catchClause =>
    match clause.class? with
    | some exceptionClass => " " ++ tokenText module scope? exceptionClass
    | none => ""
  | .filterClause => " " ++ Text.codeOffset clause.filterOffset
  | .finallyClause | .faultClause => ""

def clauseLine (module : Module) (scope? : Option Scope) (clause : Clause) : String :=
  let range (start stop : Nat) : String :=
    Text.codeOffset start ++ " to " ++ Text.codeOffset stop
  ".try " ++ range clause.tryOffset clause.tryEnd ++ " " ++ clause.kind.name ++
    clauseSubject module scope? clause ++ " handler " ++
    range clause.handlerOffset clause.handlerEnd

/-- The listing of code. -/
def ofCode (module : Module) (scope? : Option Scope) (code : MethodCode) : String :=
  let lines := code.instructions.toList.map (instructionLine module scope?) ++
    code.clauses.map (clauseLine module scope?)
  String.join (lines.map (· ++ "\n"))

def ofMethod (module : Module) (method : Token) : Except Error String := do
  return ofCode module none (← MethodCode.ofMethod module (← module.method method))

def ofDynamic (module : Module) (method : DynamicMethod) : String :=
  ofCode module (some method.scope) method.code

end Listing

end Cil
