import Cil.Reference
import Cil.Token

/-!
# Errors

Every operation that can fail returns one of these errors.  An error is a kind
with a cause; the wording of all of them is in `Error.message` and in the text
functions of the causes.  A managed exception that is still looking for its
handler travels as `Error.thrown`.
-/

namespace Cil

open Text (codeOffset hexUpper)

/-- Why metadata, a method body or an emission sequence is not well formed. -/
inductive Malformation
  -- Method bodies.
  | emptyBody
  | unknownHeader (firstByte : Nat)
  | fatHeaderTooSmall (size : Nat)
  | codeTooLong
  | tooManyClauses (count : Nat)
  | branchTarget (offset target : Nat)
  | clauseBoundary (offset : Nat)
  -- Metadata.
  | notGenericDefinition (method : String)
  | genericArgumentCount (method : String) (expected actual : Nat)
  | bodyAlreadySet (method : Token)
  | bodyOfInstantiation (method : Token)
  | unknownSignature (token : Token)
  | notLocalsSignature (token : Token)
  | typeAlreadyDefined (space name : String)
  | bodyNotAllowed (owner method : String)
  | implementationMissing
  -- Emission.
  | stackUnderflow (depth : Int) (pops pushes : Nat)
  | stackTooDeep
  | atInstruction (mnemonic : String) (cause : Malformation)
  | atBranch (mnemonic label : String) (cause : Malformation)
  | atSwitch (cause : Malformation)
  | atCall (mnemonic : String) (cause : Malformation)
  | labelDepth (label : String) (expected actual : Int)
  | branchDepth (label : String) (expected actual : Int)
  | noBlockToEnd
  | blockWithoutHandler (position : Nat)
  | handlerOutsideBlock
  | filterWithoutHandler (position : Nat)
  | filteredHandlerWithoutFilter
  | blockNeverEnded (position : Nat)
  | tooManySwitchTargets
  | labelDefinedTooFar
  | labelTooFar
  | instructionTooFar
  | switchTooFar
  | clauseTooFar
  -- Assembly with named blocks.
  | blockNotInnermost (name innermost : String)
  | blockNotOpen (name : String)
  | blockNeverClosed (name : String)
  | callNeedsSymbols (token : Token)
  | callHasTooManyArguments (token : Token)
  | notCallSite (token : Token)
  -- Instrumentation.
  | tooManyParameters (method : String)
  | argumentOutOfRange (index count : Nat)
  -- Execution.
  | endOutsideHandler
  | pastTheEnd (codeSize : Nat)
  | noInstructionAt (offset : Nat)
  | noArgument (offset index : Nat)
  | noLocal (offset index : Nat)
  | unexpectedOperand (offset : Nat) (mnemonic : String)
  | dynamicTokenNotInScope (token : Token)
  | indirectCallSignature (offset : Nat)
  | frameNotActive (frame : Nat)
  | filterWithoutEnd (offset : Nat)
  | handlerWithoutEnd (kind : String) (offset : Nat)
  | rethrowOutsideHandler (offset : Nat)
deriving DecidableEq, Repr, Inhabited

def Malformation.text : Malformation → String
  | emptyBody => "Provided data for body parsing is empty"
  | unknownHeader firstByte => s!"MethodHeader is neither FAT nor TINY - {firstByte}"
  | fatHeaderTooSmall size => s!"Fat header too small - {size}"
  | codeTooLong => "Method body size exceeds u32 range"
  | tooManyClauses count => s!"Too many exception clauses - {count}"
  | branchTarget offset target =>
    "Branch at " ++ codeOffset offset ++ " targets " ++ codeOffset target ++
      ", which is not an instruction"
  | clauseBoundary offset =>
    "Exception clause boundary " ++ codeOffset offset ++ " is not an instruction boundary"
  | notGenericDefinition method => s!"{method} is not a generic method definition"
  | genericArgumentCount method expected actual =>
    s!"{method} takes {expected} generic argument(s), got {actual}"
  | bodyAlreadySet method => s!"Method {method} already has a body"
  | bodyOfInstantiation method => s!"Instantiation {method} shares the body of its definition"
  | unknownSignature token => s!"Unknown stand-alone signature {token}"
  | notLocalsSignature token => s!"Signature {token} is not a locals signature"
  | typeAlreadyDefined space name => s!"Type {space}.{name} is already defined"
  | bodyNotAllowed owner method => s!"Method {owner}::{method} cannot have a body"
  | implementationMissing => "Method body implementation is required"
  | stackUnderflow depth pops pushes =>
    s!"Stack underflow: depth became {depth} after instruction with {pops} pops, {pushes} pushes"
  | stackTooDeep => "Stack depth exceeds u16 range"
  | atInstruction mnemonic cause =>
    s!"Stack error at instruction '{mnemonic}': Malformed - " ++ cause.text
  | atBranch mnemonic label cause =>
    s!"Stack error at branch '{mnemonic}' to '{label}': Malformed - " ++ cause.text
  | atSwitch cause => "Stack error at 'switch': Malformed - " ++ cause.text
  | atCall mnemonic cause => s!"Stack error at call '{mnemonic}': Malformed - " ++ cause.text
  | labelDepth label expected actual =>
    s!"Stack depth mismatch at label '{label}': expected {expected} (from branch), " ++
      s!"got {actual} (current)"
  | branchDepth label expected actual =>
    s!"Stack depth mismatch for branch to '{label}': expected {expected}, but branch has {actual}"
  | noBlockToEnd => "No open exception block to end"
  | blockWithoutHandler position => s!"Exception block at {position} has no handler"
  | handlerOutsideBlock => "Handler started outside of an exception block"
  | filterWithoutHandler position => s!"Filter at {position} has no handler"
  | filteredHandlerWithoutFilter => "Filtered handler without a preceding filter"
  | blockNeverEnded position => s!"Exception block at {position} was never ended"
  | tooManySwitchTargets => "Too many switch targets"
  | labelDefinedTooFar => "Bytecode length exceeds u32 range"
  | labelTooFar => "Label position exceeds i32 range"
  | instructionTooFar => "Instruction position exceeds i32 range"
  | switchTooFar => "Switch instruction end exceeds i32 range"
  | clauseTooFar => "Clause offset exceeds u32 range"
  | blockNotInnermost name innermost =>
    s!"Exception block '{name}' used while '{innermost}' is innermost"
  | blockNotOpen name => s!"Exception block '{name}' is not open"
  | blockNeverClosed name => s!"Exception block '{name}' was never closed"
  | callNeedsSymbols token => s!"Call to {token} needs a symbol table"
  | callHasTooManyArguments token => s!"Call to {token} has too many arguments"
  | notCallSite token => s!"{token} is not a call-site signature"
  | tooManyParameters method => s!"{method} has too many parameters"
  | argumentOutOfRange index count => s!"Argument {index} out of range, the method has {count}"
  | endOutsideHandler => "endfinally or endfilter reached outside of a handler block"
  | pastTheEnd codeSize => s!"Execution ran past the end of the method ({codeSize} bytes)"
  | noInstructionAt offset => "No instruction starts at " ++ codeOffset offset
  | noArgument offset index => codeOffset offset ++ s!": no argument {index}"
  | noLocal offset index => codeOffset offset ++ s!": no local {index}"
  | unexpectedOperand offset mnemonic =>
    codeOffset offset ++ s!": {mnemonic} has an unexpected operand"
  | dynamicTokenNotInScope token => s!"Dynamic token {token} is not in scope"
  | indirectCallSignature offset => codeOffset offset ++ ": calli needs a call-site signature"
  | frameNotActive frame => s!"Frame {frame} is not active"
  | filterWithoutEnd offset => "Filter at " ++ codeOffset offset ++ " did not end with endfilter"
  | handlerWithoutEnd kind offset =>
    s!"{kind} handler at " ++ codeOffset offset ++ " did not end with endfinally"
  | rethrowOutsideHandler offset =>
    "rethrow outside of a catch handler at " ++ codeOffset offset

/-- Why an instruction can be neither decoded, nor instrumented, nor executed. -/
inductive Obstacle
  | unknownOpcode (byte : Nat)
  | unknownExtendedOpcode (byte : Nat)
  | reservedOpcode (lead byte : Nat)
  | noExecutionRule (mnemonic : String)
  | noEmissionRule (mnemonic : String)
  | strayConstraint (constraint : Token) (mnemonic : String)
  | constraintOnOtherCall (mnemonic : String)
  | noLongForm (mnemonic : String)
  | noTarget (mnemonic : String)
  | noTokenOperand (mnemonic : String)
  | notCallSite (token : Token)
  | tooManyPops (mnemonic : String) (count : Nat)
deriving DecidableEq, Repr, Inhabited

def Obstacle.text : Obstacle → String
  | unknownOpcode byte => "unknown opcode " ++ hexUpper 2 byte
  | unknownExtendedOpcode byte => "unknown opcode FE " ++ hexUpper 2 byte
  | reservedOpcode lead byte => "reserved opcode " ++ hexUpper 2 lead ++ hexUpper 2 byte
  | noExecutionRule mnemonic => s!"no execution rule for {mnemonic}"
  | noEmissionRule mnemonic => s!"{mnemonic} has no emission rule"
  | strayConstraint constraint mnemonic =>
    s!"constrained. {constraint} must prefix callvirt, found {mnemonic}"
  | constraintOnOtherCall mnemonic => s!"constrained. must prefix callvirt, found {mnemonic}"
  | noLongForm mnemonic => s!"no long form for {mnemonic}"
  | noTarget mnemonic => s!"{mnemonic} without a target"
  | noTokenOperand mnemonic => s!"{mnemonic} without a token operand"
  | notCallSite token => s!"calli through {token} which is not a call-site signature"
  | tooManyPops mnemonic count => s!"{mnemonic} pops {count} values"

/-- Why a replacement cannot stand for a method. -/
inductive ShimFault
  | construction
  | returnType
  | receiverByReference
  | instanceType
  | parameterCount
  | parameterType (index : Nat)
deriving DecidableEq, Repr, Inhabited

def ShimFault.text : ShimFault → String
  | construction => "Mismatched construction types"
  | returnType => "Mismatched return types"
  | receiverByReference => "ValueType instances must be passed by ref"
  | instanceType => "Mismatched instance types"
  | parameterCount => "Parameters count do not match"
  | parameterType index => s!"Parameter types at {index} do not match"

/-- Why a request is outside of what is supported. -/
inductive Limitation
  | heapFull (limit : Nat)
  | abstractCall (method : String)
  | nothingToExecute (method : String)
  | defaultInterfaceMethod (owner method : String)
  | stringTooLong
  | bindToValue (value : String)
  | bindToBoxed (type : String)
  | noReceiverToMatch (method : String)
  | stubNeeds (stub method requirement : String)
  | runEnded (method : String)
  | foreignShim (identity : String)
  | entryPoint (method : String)
  /-- What a native method refuses, in its own words. -/
  | refused (words : String)
deriving DecidableEq, Repr, Inhabited

def Limitation.text : Limitation → String
  | heapFull limit => s!"heap object limit of {limit} reached"
  | abstractCall method => s!"cannot call abstract method {method}"
  | nothingToExecute method => s!"{method} has neither a body nor a native implementation"
  | defaultInterfaceMethod owner method => s!"default interface method {owner}::{method}"
  | stringTooLong => "string length exceeds int32"
  | bindToValue value => s!"cannot bind a shim to {value}, only reference type instances"
  | bindToBoxed type => s!"cannot bind a shim to a boxed {type}"
  | noReceiverToMatch method => s!"{method} has no receiver to match"
  | stubNeeds stub method requirement => s!"{stub} for {method} needs {requirement}"
  | runEnded method => s!"stub for {method} invoked after its isolation run ended"
  | foreignShim identity => s!"shim for {identity} was built against another symbol table"
  | entryPoint method => s!"entry point {method} must be static and parameterless"
  | refused words => words

/-- Why a value does not have the shape that an operation needs. -/
inductive Mismatch
  | expected (shape found : String)
  | noField (kind : String) (field : Token)
  | notLive (reference : HeapRef)
  | unknownFunction (pointer : FunctionPointer)
  | exceptionIsValueType (type : Token)
  | noReceiver (method : String)
  | danglingPointer (pointer : String)
  | missingNativeArgument (index : Nat)
  | delegateNeedsFunction (found : String)
  | notDelegate (reference : HeapRef)
  | cannotThrow (offset : Nat) (found : String)
  | notFieldOwner (offset : Nat) (mnemonic found : String)
  | notFunctionPointer (offset : Nat)
  /-- An arithmetic instruction on operands that it does not take. -/
  | operands (offset : Nat) (complaint : String)
  /-- What a native method complains about, in its own words. -/
  | refused (words : String)
deriving DecidableEq, Repr, Inhabited

def Mismatch.text : Mismatch → String
  | expected shape found => s!"expected {shape}, found {found}"
  | noField kind field => s!"{kind} has no field {field}"
  | notLive reference => s!"{reference} does not refer to a live object"
  | unknownFunction pointer => s!"unknown function pointer {pointer}"
  | exceptionIsValueType type => s!"exception type {type} is a value type"
  | noReceiver method => s!"virtual call to {method} without a receiver"
  | danglingPointer pointer => s!"dangling managed pointer {pointer}"
  | missingNativeArgument index => s!"missing native argument {index}"
  | delegateNeedsFunction found =>
    s!"delegate constructor expects a function pointer, found {found}"
  | notDelegate reference => s!"{reference} is not a delegate"
  | cannotThrow offset found => codeOffset offset ++ s!": cannot throw {found}"
  | notFieldOwner offset mnemonic found => codeOffset offset ++ s!": {mnemonic} on {found}"
  | notFunctionPointer offset => codeOffset offset ++ ": calli expects a function pointer"
  | operands offset complaint => codeOffset offset ++ ": " ++ complaint
  | refused words => words

/-- Why a branch cannot be emitted or resolved. -/
inductive BranchFault
  | notABranch (mnemonic : String)
  | emptySwitch
  | outOfShortRange (displacement : Int)
deriving DecidableEq, Repr, Inhabited

def BranchFault.text : BranchFault → String
  | notABranch mnemonic => s!"instruction '{mnemonic}' is not a branch instruction"
  | emptySwitch => "switch must have at least one target"
  | outOfShortRange displacement =>
    s!"offset {displacement} out of range for 1-byte instruction"

/-- What can go wrong. -/
inductive Error
  | unreadableMethodBody (method : Token)
  | unsupportedInstruction (offset : Nat) (obstacle : Obstacle)
  | invalidShimSignature (fault : ShimFault)
  | malformed (cause : Malformation)
  | outOfBounds
  | notSupported (limitation : Limitation)
  | typeNotFound (type : Token)
  | methodNotFound (method : String)
  | fieldNotFound (field : Token)
  | stringNotFound (token : Token)
  | invalidMnemonic (mnemonic : String)
  | invalidBranch (fault : BranchFault)
  | undefinedLabel (label : String)
  | duplicateLabel (label : String)
  | unexpectedOperand
  | wrongOperandType (expected : String)
  | stackUnderflow (offset : Nat)
  | typeMismatch (mismatch : Mismatch)
  | managedException (type message : String)
  /-- A managed exception in flight. -/
  | thrown (exception : HeapRef)
  | callDepthExceeded (limit : Nat)
  | instructionLimit (limit : Nat)
  /-- Arithmetic without a result, such as alignment to a multiple of zero. -/
  | undefinedArithmetic
  /-- The evaluation used up the steps it was given. -/
  | outOfFuel
deriving DecidableEq, Repr, Inhabited

namespace Error

/-- The wording of an error.  Of a malformation only the cause is worded. -/
def message : Error → String
  | unreadableMethodBody method => s!"Method {method} has no readable body"
  | unsupportedInstruction offset obstacle =>
    "Unsupported instruction at " ++ codeOffset offset ++ ": " ++ obstacle.text
  | invalidShimSignature fault => "Invalid shim signature: " ++ fault.text
  | malformed cause => cause.text
  | outOfBounds => "Out of Bound read would have occurred!"
  | notSupported limitation => "Not supported - " ++ limitation.text
  | typeNotFound type => s!"Failed to find type - {type}"
  | methodNotFound method => s!"Failed to find method - {method}"
  | fieldNotFound field => s!"Failed to find field - {field}"
  | stringNotFound token => s!"Failed to find user string - {token}"
  | invalidMnemonic mnemonic => s!"Invalid mnemonic - {mnemonic}"
  | invalidBranch fault => "Invalid branch - " ++ fault.text
  | undefinedLabel label => s!"Undefined label - {label}"
  | duplicateLabel label => s!"Duplicate label - {label}"
  | unexpectedOperand => "Unexpected operand"
  | wrongOperandType expected => s!"Wrong operand type - expected {expected}"
  | stackUnderflow offset => "Evaluation stack underflow at " ++ codeOffset offset
  | typeMismatch mismatch => "Type mismatch - " ++ mismatch.text
  | managedException type message => s!"Unhandled managed exception {type}: {message}"
  | thrown exception => s!"Managed exception in flight - {exception}"
  | callDepthExceeded limit => s!"Reached the maximum call depth allowed - {limit}"
  | instructionLimit limit =>
    s!"Reached the maximum number of executed instructions - {limit}"
  | undefinedArithmetic => "Arithmetic without a result"
  | outOfFuel => "Evaluation ran out of steps"

def kind : Error → String
  | unreadableMethodBody _ => "UnreadableMethodBody"
  | unsupportedInstruction .. => "UnsupportedInstruction"
  | invalidShimSignature _ => "InvalidShimSignature"
  | malformed _ => "Malformed"
  | outOfBounds => "OutOfBounds"
  | notSupported _ => "NotSupported"
  | typeNotFound _ => "TypeNotFound"
  | methodNotFound _ => "MethodNotFound"
  | fieldNotFound _ => "FieldNotFound"
  | stringNotFound _ => "StringNotFound"
  | invalidMnemonic _ => "InvalidMnemonic"
  | invalidBranch _ => "InvalidBranch"
  | undefinedLabel _ => "UndefinedLabel"
  | duplicateLabel _ => "DuplicateLabel"
  | unexpectedOperand => "UnexpectedOperand"
  | wrongOperandType _ => "WrongOperandType"
  | stackUnderflow _ => "StackUnderflow"
  | typeMismatch _ => "TypeMismatch"
  | managedException .. => "ManagedException"
  | thrown _ => "Thrown"
  | callDepthExceeded _ => "CallDepthExceeded"
  | instructionLimit _ => "InstructionLimit"
  | undefinedArithmetic => "UndefinedArithmetic"
  | outOfFuel => "OutOfFuel"

end Error

end Cil
