import Cil.Code.Layout
import Cil.Code.MethodCode
import Cil.Document.Signature

/-!
# Documents of code

Operands are records with one field, which names the kind of the operand.  Offsets and
the parts of instructions are written as numbers, and wide numbers in texts.
-/

namespace Cil

instance : FromDocument Clause where
  fromDocument document := do
    let (tryOffset, tryLength) ← document.get "try"
    let (handlerOffset, handlerLength) ← document.get "handler"
    return { flags := ← document.get "flags", tryOffset, tryLength, handlerOffset
             handlerLength, class? := ← document.get "class"
             filterOffset := ← document.getD "filter" 0 }

instance : ToDocument Clause where
  toDocument clause := .record
    [("flags", clause.flags), ("try", (clause.tryOffset, clause.tryLength)),
      ("handler", (clause.handlerOffset, clause.handlerLength)), ("class", clause.class?),
      ("filter", clause.filterOffset), ("kind", clause.kind.name)]

/-! ## Operands -/

instance : FromDocument Immediate where
  fromDocument
    | .record [("int8", value)] => return .int8 (Int8.ofInt (← fromDocument value))
    | .record [("uint8", value)] => return .uint8 (UInt8.ofNat (← fromDocument value))
    | .record [("int16", value)] => return .int16 (Int16.ofInt (← fromDocument value))
    | .record [("uint16", value)] => return .uint16 (← fromDocument value)
    | .record [("int32", value)] => return .int32 (← fromDocument value)
    | .record [("uint32", value)] => return .uint32 (UInt32.ofNat (← fromDocument value))
    | .record [("int64", value)] => return .int64 (Int64.ofInt (← fromDocument value))
    | .record [("uint64", value)] => return .uint64 (UInt64.ofNat (← fromDocument value))
    | .record [("float32", value)] => return .float32 (UInt32.ofNat (← value.readBits))
    | .record [("float64", value)] => return .float64 (UInt64.ofNat (← value.readBits))
    | _ => throw "immediate expected"

/-- Wide numbers are written in texts. -/
instance : ToDocument Immediate where
  toDocument
    | .int8 value => .record [("int8", value.toInt)]
    | .uint8 value => .record [("uint8", value.toNat)]
    | .int16 value => .record [("int16", value.toInt)]
    | .uint16 value => .record [("uint16", value.toNat)]
    | .int32 value => .record [("int32", value.toInt)]
    | .uint32 value => .record [("uint32", value.toNat)]
    | .int64 value => .record [("int64", .decimal value.toInt)]
    | .uint64 value => .record [("uint64", .decimal value.toNat)]
    | .float32 bits => .record [("float32", .floatBits 4 bits.toNat)]
    | .float64 bits => .record [("float64", .floatBits 8 bits.toNat)]

instance : FromDocument Operand where
  fromDocument
    | .record [("none", _)] => return .none
    | .record [("token", value)] => return .token (← fromDocument value)
    | .record [("local", value)] => return .localIndex (← fromDocument value)
    | .record [("arg", value)] => return .argumentIndex (← fromDocument value)
    | .record [("target", value)] => return .target (UInt64.ofNat (← fromDocument value))
    | .record [("switch", value)] => return .switch (← fromDocument value)
    | document => return .immediate (← fromDocument document)

/-- A record without fields is no operand, just like null. -/
instance : FromDocument (Option Operand) where
  fromDocument
    | .null | .record [] => return none
    | document => return some (← fromDocument document)

instance : ToDocument Operand where
  toDocument
    | .none => .null
    | .immediate value => value
    | .token token => .record [("token", token)]
    | .localIndex index => .record [("local", index.toNat)]
    | .argumentIndex index => .record [("arg", index.toNat)]
    | .target offset => .record [("target", .decimal offset.toNat)]
    | .switch displacements =>
      .record [("switch", displacements.map fun value => value.toInt)]

/-! ## Methods and bodies -/

instance : ToDocument Opcode where
  toDocument opcode := .list
    [opcode.mnemonic, opcode.operand.name, opcode.operand.size?, opcode.category.name,
      opcode.flow.name, opcode.pops, opcode.pushes, false]

instance : ToDocument Instruction where
  toDocument instruction :=
    let opcode := instruction.opcode
    .record
      [("offset", instruction.offset), ("size", instruction.size),
        ("prefix", opcode.code.leadByte), ("opcode", opcode.code.lastByte),
        ("mnemonic", opcode.mnemonic), ("category", opcode.category.name),
        ("flow", opcode.flow.name), ("operand", instruction.operand),
        ("stack", .list [opcode.pops, opcode.pushes, opcode.netEffect]),
        ("targets", instruction.targets.map fun (target : Nat) => Document.decimal target),
        ("next", instruction.nextOffset), ("branch", opcode.flow.isBranch),
        ("is_prefix", instruction.isPrefixMark), ("arg", instruction.argumentIndex?),
        ("local", instruction.localIndex?),
        ("const", instruction.int32Constant?.map fun value => value.toInt),
        ("debug", instruction.describe)]

/-- The document of a body, given the bytes that it was read from. -/
def Body.toDocument (data : List UInt8) (body : Body) : Document := .record
  [("size_code", body.codeSize), ("size_header", body.headerSize), ("size", body.size),
    ("max_stack", body.maxStack), ("fat", body.isFat), ("init", body.initLocals),
    ("eh", body.hasClauses), ("locals", body.locals?), ("handlers", body.clauses),
    ("code", body.code data)]

instance : ToDocument MethodCode where
  toDocument code := .record
    [("instructions", code.instructions.toList.map (·.describe)), ("locals", code.locals),
      ("handlers", code.clauses), ("max_stack", code.maxStack), ("init", code.initLocals),
      ("code_size", code.codeSize)]

instance : ToDocument EmittedCode where
  toDocument emitted := .record
    [("code", emitted.code), ("max_stack", emitted.maxStack),
      ("labels", .record (emitted.labels.map fun (label, offset) => (label, offset))),
      ("handlers", emitted.clauses)]

end Cil
