import Cil.Code.Assembler
import Cil.Document.Code

/-!
# Documents of cursor steps, emission steps and assembly statements

A step is a list: its name first, and then its arguments.
-/

namespace Cil

namespace Document

def step : Document → Reader (String × List Document)
  | list (name :: arguments) => return (← fromDocument name, arguments)
  | _ => throw "step expected"

/-- Reads an argument of a step; a missing one counts as null. -/
def argument {α : Type} [FromDocument α] (arguments : List Document) (index : Nat) :
    Reader α :=
  fromDocument (arguments[index]?.getD null)

end Document

open Document (argument)

/-! ## Cursors -/

def Cursor.stepOf (document : Document) : Reader (CursorM Document) := do
  let (name, arguments) ← document.step
  let unsigned (width : Nat) : CursorM Document :=
    return .decimal (← Cursor.readNat width)
  let signed (width : Nat) : CursorM Document := return .decimal (← Cursor.readInt width)
  let float (width : Nat) : CursorM Document :=
    return .floatBits width (← Cursor.readNat width)
  match name with
  | "u8" => return unsigned 1
  | "i8" => return signed 1
  | "u16" => return unsigned 2
  | "i16" => return signed 2
  | "u32" => return unsigned 4
  | "i32" => return signed 4
  | "u64" => return unsigned 8
  | "i64" => return signed 8
  | "f32" => return float 4
  | "f64" => return float 8
  | "seek" => return toDocument <$> Cursor.seek (← argument arguments 0)
  | "advance" => return toDocument <$> Cursor.advance (← argument arguments 0)
  | "align" => return toDocument <$> Cursor.align (← argument arguments 0)
  | "peek" => return (fun byte => toDocument byte.toNat) <$> Cursor.peek
  | "bytes" => return toDocument <$> Cursor.readBytes (← argument arguments 0)
  | "info" => return do
      let data := (← get).data
      return .list [data.length, data.isEmpty, data]
  | name => throw ("unknown cursor step " ++ name)

/-! ## Emission -/

/-- The emission step that a document describes, nested no deeper than `steps`. -/
def Encoder.stepWithin : (steps : Nat) → (document : Document) → Reader (EncoderM Document)
  | 0, _ => throw "step nested too deep"
  | steps + 1, document => do
    let (name, arguments) ← document.step
    let done (action : EncoderM Unit) : Reader (EncoderM Document) :=
      return toDocument <$> action
    let indexed (emit : UInt16 → EncoderM Unit) : Reader (EncoderM Document) := do
      done (emit (← argument arguments 0))
    match name with
    | "emit" =>
      let mnemonic ← argument arguments 0
      let operand? : Option Operand ← argument arguments 1
      done (Encoder.emitNamed mnemonic operand?)
    | "decoded" =>
      let code ← argument arguments 0
      done do (← MonadExcept.ofExcept (Instruction.decodeAll code)).forM Encoder.emitDecoded
    | "branch" =>
      let mnemonic ← argument arguments 0
      let label ← argument arguments 1
      done (Encoder.emitBranchNamed mnemonic label)
    | "switch" => done (Encoder.emitSwitch (← argument arguments 0))
    | "call" =>
      let mnemonic ← argument arguments 0
      let operand? : Option Operand ← argument arguments 1
      let count ← argument arguments 2
      let hasResult ← argument arguments 3
      done (Encoder.emitCallNamed mnemonic operand? count hasResult)
    | "ldarg" => indexed Encoder.emitLoadArgument
    | "ldloc" => indexed Encoder.emitLoadLocal
    | "stloc" => indexed Encoder.emitStoreLocal
    | "starg" => indexed Encoder.emitStoreArgument
    | "ldarga" => indexed Encoder.emitLoadArgumentAddress
    | "ldloca" => indexed Encoder.emitLoadLocalAddress
    | "ldc_i4" => done (Encoder.emitConstant (← argument arguments 0))
    | "label" => done (Encoder.defineLabel (← argument arguments 0))
    | "label_offset" =>
      let label ← argument arguments 0
      return do return (← get).labelOffset? label
    | "try" => done Encoder.beginBlock
    | "catch" => done (Encoder.beginCatch (← argument arguments 0))
    | "filter" => done Encoder.beginFilter
    | "filter_handler" => done Encoder.beginFilteredHandler
    | "finally" => done Encoder.beginFinally
    | "fault" => done Encoder.beginFault
    | "end" => done Encoder.endBlock
    | "depth" => done (Encoder.setDepth (Int16.ofInt (← argument arguments 0)))
    | "optimize" => done (Encoder.setShortening (← argument arguments 0))
    | "repeat" =>
      let count : Nat ← argument arguments 0
      let action ← stepWithin steps (← argument arguments 1)
      done ((List.range count).forM fun _ => discard action)
    | name => throw ("unknown emission step " ++ name)

/-- An emission step that tells what it finds out. -/
instance : FromDocument (EncoderM Document) where
  fromDocument document := Encoder.stepWithin document.depth document

/-! ## Assembly -/

/-- The opcode that a statement is named after: its mnemonic, with low lines for points
and without the point of a mark that precedes another instruction. -/
def Opcode.ofStatement? (name : String) : Option Opcode :=
  match name with
  | "box_" => some .box
  | "readonly" => some .readonly
  | "tail" => some .tail
  | "constrained" => some .constrained
  | name => Opcode.ofMnemonic? (name.replace "_" ".")

def Statement.ofDocument (document : Document) : Reader Statement := do
  let (name, arguments) ← document.step
  match name with
  | "label" => return .label (← argument arguments 0)
  | "try_start" => return .tryStart (← argument arguments 0)
  | "try_end" => return .tryEnd (← argument arguments 0)
  | "catch_start" =>
    return .catchStart (← argument arguments 0) (← argument arguments 1)
  | "filter_start" => return .filterStart (← argument arguments 0)
  | "filter_handler_start" => return .filterHandlerStart (← argument arguments 0)
  | "finally_start" => return .finallyStart (← argument arguments 0)
  | "fault_start" => return .faultStart (← argument arguments 0)
  | "catch_end" | "filter_end" | "finally_end" | "fault_end" =>
    return .handlerEnd (← argument arguments 0)
  | "switch" => return .switch (← argument arguments 0)
  | "ldarg" => return .loadArgument (← argument arguments 0)
  | "ldarga" => return .loadArgumentAddress (← argument arguments 0)
  | "starg" => return .storeArgument (← argument arguments 0)
  | "ldloc" => return .loadLocal (← argument arguments 0)
  | "ldloca" => return .loadLocalAddress (← argument arguments 0)
  | "stloc" => return .storeLocal (← argument arguments 0)
  | "ldarg_s" =>
    return .withImmediate .ldargS (.uint8 (UInt8.ofNat (← argument arguments 0)))
  | "ldc_i4" => return .withImmediate .ldcI4 (.int32 (← argument arguments 0))
  | "ldc_i4_s" =>
    return .withImmediate .ldcI4S (.int8 (Int8.ofInt (← argument arguments 0)))
  | "ldc_i4_const" => return .constant (← argument arguments 0)
  | "ldc_i8" =>
    return .withImmediate .ldcI8 (.int64 (Int64.ofInt (← argument arguments 0)))
  | "ldc_r8" =>
    let bits ← (arguments.headD .null).readBits
    return .withImmediate .ldcR8 (.float64 (UInt64.ofNat bits))
  | "call" => return .call .call (← argument arguments 0)
  | "callvirt" => return .call .callvirt (← argument arguments 0)
  | "newobj" => return .construct (← argument arguments 0)
  | "calli" => return .callIndirect (← argument arguments 0)
  | name =>
    let some opcode := Opcode.ofStatement? name | throw ("unknown statement " ++ name)
    if opcode.operand = .none then return .plain opcode
    else if opcode.operand = .token then return .withToken opcode (← argument arguments 0)
    else if opcode.flow.isSingleBranch then return .branch opcode (← argument arguments 0)
    else throw ("unknown statement " ++ name)

instance : FromDocument Statement := ⟨Statement.ofDocument⟩

end Cil
