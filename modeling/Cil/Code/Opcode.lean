/-!
# Opcodes

The instruction set: for every instruction its mnemonic, its code, the operand
that follows the code, what it is about, where control goes next, and how many
values it takes from and leaves on the evaluation stack.

A code is one byte, or the lead byte `0xFE` and a second byte.  `Opcode.entry?`
and `Opcode.ofMnemonic?` are inverse to `Opcode.code` and `Opcode.mnemonic`.
-/

namespace Cil

/-- The form of the operand that follows an instruction's code. -/
inductive OperandKind
  | none
  | int8
  | uint8
  | int16
  | uint16
  | int32
  | uint32
  | int64
  | uint64
  | float32
  | float64
  | token
  | switch
deriving DecidableEq, Repr, Inhabited

namespace OperandKind

def name : OperandKind → String
  | none => "None"
  | int8 => "Int8"
  | uint8 => "UInt8"
  | int16 => "Int16"
  | uint16 => "UInt16"
  | int32 => "Int32"
  | uint32 => "UInt32"
  | int64 => "Int64"
  | uint64 => "UInt64"
  | float32 => "Float32"
  | float64 => "Float64"
  | token => "Token"
  | switch => "Switch"

/-- The size in bytes, if it does not depend on the operand. -/
def size? : OperandKind → Option Nat
  | none => some 0
  | int8 | uint8 => some 1
  | int16 | uint16 => some 2
  | int32 | uint32 | float32 | token => some 4
  | int64 | uint64 | float64 => some 8
  | switch => Option.none

end OperandKind

/-- What an instruction is about. -/
inductive Category
  | arithmetic
  | bitwiseLogical
  | comparison
  | controlFlow
  | conversion
  | loadStore
  | objectModel
  | prefixMark
  | misc
deriving DecidableEq, Repr, Inhabited

def Category.name : Category → String
  | arithmetic => "Arithmetic"
  | bitwiseLogical => "BitwiseLogical"
  | comparison => "Comparison"
  | controlFlow => "ControlFlow"
  | conversion => "Conversion"
  | loadStore => "LoadStore"
  | objectModel => "ObjectModel"
  | prefixMark => "Prefix"
  | misc => "Misc"

/-- Where control goes after an instruction. -/
inductive Flow
  | sequential
  | conditionalBranch
  | unconditionalBranch
  | call
  | return
  | switch
  | throw
  | endFinally
  | leave
deriving DecidableEq, Repr, Inhabited

namespace Flow

def name : Flow → String
  | sequential => "Sequential"
  | conditionalBranch => "ConditionalBranch"
  | unconditionalBranch => "UnconditionalBranch"
  | call => "Call"
  | .return => "Return"
  | switch => "Switch"
  | throw => "Throw"
  | endFinally => "EndFinally"
  | leave => "Leave"

/-- Whether the operand is a single branch target. -/
def isSingleBranch : Flow → Bool
  | conditionalBranch | unconditionalBranch | leave => true
  | _ => false

def isBranch (flow : Flow) : Bool :=
  flow.isSingleBranch || flow == switch

end Flow

/-- The code of an instruction: one byte, or the lead byte and a second byte. -/
inductive OpcodeBytes
  | plain (byte : Nat)
  | extended (byte : Nat)
deriving DecidableEq, Repr, Inhabited

namespace OpcodeBytes

/-- The byte that starts a code of two bytes. -/
def lead : Nat := 0xFE

/-- The lead byte, or zero if there is none. -/
def leadByte : OpcodeBytes → Nat
  | plain _ => 0
  | extended _ => lead

def lastByte : OpcodeBytes → Nat
  | plain byte | extended byte => byte

def bytes : OpcodeBytes → List UInt8
  | plain byte => [UInt8.ofNat byte]
  | extended byte => [UInt8.ofNat lead, UInt8.ofNat byte]

end OpcodeBytes

/-- What is known about an instruction without its operand. -/
structure OpcodeInfo where
  mnemonic : String
  code : OpcodeBytes
  operand : OperandKind
  category : Category
  flow : Flow
  pops : Nat
  pushes : Nat
deriving DecidableEq, Repr, Inhabited

/-- The instructions. -/
inductive Opcode
  | nop | breakpoint | ldarg0 | ldarg1 | ldarg2 | ldarg3 | ldloc0 | ldloc1 | ldloc2
  | ldloc3 | stloc0 | stloc1 | stloc2 | stloc3 | ldargS | ldargaS | stargS | ldlocS
  | ldlocaS | stlocS | ldnull | ldcI4M1 | ldcI40 | ldcI41 | ldcI42 | ldcI43 | ldcI44
  | ldcI45 | ldcI46 | ldcI47 | ldcI48 | ldcI4S | ldcI4 | ldcI8 | ldcR4 | ldcR8 | dup
  | pop | jmp | call | calli | ret | brS | brfalseS | brtrueS | beqS | bgeS | bgtS | bleS
  | bltS | bneUnS | bgeUnS | bgtUnS | bleUnS | bltUnS | br | brfalse | brtrue | beq | bge
  | bgt | ble | blt | bneUn | bgeUn | bgtUn | bleUn | bltUn | switch | ldindI1 | ldindU1
  | ldindI2 | ldindU2 | ldindI4 | ldindU4 | ldindI8 | ldindI | ldindR4 | ldindR8
  | ldindRef | stindRef | stindI1 | stindI2 | stindI4 | stindI8 | stindR4 | stindR8 | add
  | sub | mul | div | divUn | rem | remUn | and | or | xor | shl | shr | shrUn | neg
  | not | convI1 | convI2 | convI4 | convI8 | convR4 | convR8 | convU4 | convU8
  | callvirt | cpobj | ldobj | ldstr | newobj | castclass | isinst | convRUn | unbox
  | throw | ldfld | ldflda | stfld | ldsfld | ldsflda | stsfld | stobj | convOvfI1Un
  | convOvfI2Un | convOvfI4Un | convOvfI8Un | convOvfU1Un | convOvfU2Un | convOvfU4Un
  | convOvfU8Un | convOvfIUn | convOvfUUn | box | newarr | ldlen | ldelema | ldelemI1
  | ldelemU1 | ldelemI2 | ldelemU2 | ldelemI4 | ldelemU4 | ldelemI8 | ldelemI | ldelemR4
  | ldelemR8 | ldelemRef | stelemI | stelemI1 | stelemI2 | stelemI4 | stelemI8 | stelemR4
  | stelemR8 | stelemRef | ldelem | stelem | unboxAny | convOvfI1 | convOvfU1 | convOvfI2
  | convOvfU2 | convOvfI4 | convOvfU4 | convOvfI8 | convOvfU8 | refanyval | ckfinite
  | mkrefany | ldtoken | convU2 | convU1 | convI | convOvfI | convOvfU | addOvf
  | addOvfUn | mulOvf | mulOvfUn | subOvf | subOvfUn | endfinally | leave | leaveS
  | stindI | convU | arglist | ceq | cgt | cgtUn | clt | cltUn | ldftn | ldvirtftn
  | ldarg | ldarga | starg | ldloc | ldloca | stloc | localloc | endfilter | unaligned
  | volatile | tail | initobj | constrained | cpblk | initblk | noCheck | rethrow
  | sizeof | refanytype | readonly
deriving DecidableEq, Repr, Inhabited

namespace Opcode

def info : Opcode → OpcodeInfo
  | .nop => ⟨"nop", .plain 0x00, .none, .misc, .sequential, 0, 0⟩
  | .breakpoint => ⟨"break", .plain 0x01, .none, .misc, .sequential, 0, 0⟩
  | .ldarg0 => ⟨"ldarg.0", .plain 0x02, .none, .loadStore, .sequential, 0, 1⟩
  | .ldarg1 => ⟨"ldarg.1", .plain 0x03, .none, .loadStore, .sequential, 0, 1⟩
  | .ldarg2 => ⟨"ldarg.2", .plain 0x04, .none, .loadStore, .sequential, 0, 1⟩
  | .ldarg3 => ⟨"ldarg.3", .plain 0x05, .none, .loadStore, .sequential, 0, 1⟩
  | .ldloc0 => ⟨"ldloc.0", .plain 0x06, .none, .loadStore, .sequential, 0, 1⟩
  | .ldloc1 => ⟨"ldloc.1", .plain 0x07, .none, .loadStore, .sequential, 0, 1⟩
  | .ldloc2 => ⟨"ldloc.2", .plain 0x08, .none, .loadStore, .sequential, 0, 1⟩
  | .ldloc3 => ⟨"ldloc.3", .plain 0x09, .none, .loadStore, .sequential, 0, 1⟩
  | .stloc0 => ⟨"stloc.0", .plain 0x0A, .none, .loadStore, .sequential, 1, 0⟩
  | .stloc1 => ⟨"stloc.1", .plain 0x0B, .none, .loadStore, .sequential, 1, 0⟩
  | .stloc2 => ⟨"stloc.2", .plain 0x0C, .none, .loadStore, .sequential, 1, 0⟩
  | .stloc3 => ⟨"stloc.3", .plain 0x0D, .none, .loadStore, .sequential, 1, 0⟩
  | .ldargS => ⟨"ldarg.s", .plain 0x0E, .uint8, .loadStore, .sequential, 0, 1⟩
  | .ldargaS => ⟨"ldarga.s", .plain 0x0F, .uint8, .loadStore, .sequential, 0, 1⟩
  | .stargS => ⟨"starg.s", .plain 0x10, .uint8, .loadStore, .sequential, 1, 0⟩
  | .ldlocS => ⟨"ldloc.s", .plain 0x11, .uint8, .loadStore, .sequential, 0, 1⟩
  | .ldlocaS => ⟨"ldloca.s", .plain 0x12, .uint8, .loadStore, .sequential, 0, 1⟩
  | .stlocS => ⟨"stloc.s", .plain 0x13, .uint8, .loadStore, .sequential, 1, 0⟩
  | .ldnull => ⟨"ldnull", .plain 0x14, .none, .loadStore, .sequential, 0, 1⟩
  | .ldcI4M1 => ⟨"ldc.i4.m1", .plain 0x15, .none, .loadStore, .sequential, 0, 1⟩
  | .ldcI40 => ⟨"ldc.i4.0", .plain 0x16, .none, .loadStore, .sequential, 0, 1⟩
  | .ldcI41 => ⟨"ldc.i4.1", .plain 0x17, .none, .loadStore, .sequential, 0, 1⟩
  | .ldcI42 => ⟨"ldc.i4.2", .plain 0x18, .none, .loadStore, .sequential, 0, 1⟩
  | .ldcI43 => ⟨"ldc.i4.3", .plain 0x19, .none, .loadStore, .sequential, 0, 1⟩
  | .ldcI44 => ⟨"ldc.i4.4", .plain 0x1A, .none, .loadStore, .sequential, 0, 1⟩
  | .ldcI45 => ⟨"ldc.i4.5", .plain 0x1B, .none, .loadStore, .sequential, 0, 1⟩
  | .ldcI46 => ⟨"ldc.i4.6", .plain 0x1C, .none, .loadStore, .sequential, 0, 1⟩
  | .ldcI47 => ⟨"ldc.i4.7", .plain 0x1D, .none, .loadStore, .sequential, 0, 1⟩
  | .ldcI48 => ⟨"ldc.i4.8", .plain 0x1E, .none, .loadStore, .sequential, 0, 1⟩
  | .ldcI4S => ⟨"ldc.i4.s", .plain 0x1F, .int8, .loadStore, .sequential, 0, 1⟩
  | .ldcI4 => ⟨"ldc.i4", .plain 0x20, .int32, .loadStore, .sequential, 0, 1⟩
  | .ldcI8 => ⟨"ldc.i8", .plain 0x21, .int64, .loadStore, .sequential, 0, 1⟩
  | .ldcR4 => ⟨"ldc.r4", .plain 0x22, .float32, .loadStore, .sequential, 0, 1⟩
  | .ldcR8 => ⟨"ldc.r8", .plain 0x23, .float64, .loadStore, .sequential, 0, 1⟩
  | .dup => ⟨"dup", .plain 0x25, .none, .misc, .sequential, 1, 2⟩
  | .pop => ⟨"pop", .plain 0x26, .none, .misc, .sequential, 1, 0⟩
  | .jmp => ⟨"jmp", .plain 0x27, .token, .controlFlow, .return, 0, 0⟩
  | .call => ⟨"call", .plain 0x28, .token, .controlFlow, .call, 0, 0⟩
  | .calli => ⟨"calli", .plain 0x29, .token, .controlFlow, .call, 0, 0⟩
  | .ret => ⟨"ret", .plain 0x2A, .none, .controlFlow, .return, 0, 0⟩
  | .brS => ⟨"br.s", .plain 0x2B, .int8, .controlFlow, .unconditionalBranch, 0, 0⟩
  | .brfalseS => ⟨"brfalse.s", .plain 0x2C, .int8, .controlFlow, .conditionalBranch, 1, 0⟩
  | .brtrueS => ⟨"brtrue.s", .plain 0x2D, .int8, .controlFlow, .conditionalBranch, 1, 0⟩
  | .beqS => ⟨"beq.s", .plain 0x2E, .int8, .controlFlow, .conditionalBranch, 2, 0⟩
  | .bgeS => ⟨"bge.s", .plain 0x2F, .int8, .controlFlow, .conditionalBranch, 2, 0⟩
  | .bgtS => ⟨"bgt.s", .plain 0x30, .int8, .controlFlow, .conditionalBranch, 2, 0⟩
  | .bleS => ⟨"ble.s", .plain 0x31, .int8, .controlFlow, .conditionalBranch, 2, 0⟩
  | .bltS => ⟨"blt.s", .plain 0x32, .int8, .controlFlow, .conditionalBranch, 2, 0⟩
  | .bneUnS => ⟨"bne.un.s", .plain 0x33, .int8, .controlFlow, .conditionalBranch, 2, 0⟩
  | .bgeUnS => ⟨"bge.un.s", .plain 0x34, .int8, .controlFlow, .conditionalBranch, 2, 0⟩
  | .bgtUnS => ⟨"bgt.un.s", .plain 0x35, .int8, .controlFlow, .conditionalBranch, 2, 0⟩
  | .bleUnS => ⟨"ble.un.s", .plain 0x36, .int8, .controlFlow, .conditionalBranch, 2, 0⟩
  | .bltUnS => ⟨"blt.un.s", .plain 0x37, .int8, .controlFlow, .conditionalBranch, 2, 0⟩
  | .br => ⟨"br", .plain 0x38, .int32, .controlFlow, .unconditionalBranch, 0, 0⟩
  | .brfalse => ⟨"brfalse", .plain 0x39, .int32, .controlFlow, .conditionalBranch, 1, 0⟩
  | .brtrue => ⟨"brtrue", .plain 0x3A, .int32, .controlFlow, .conditionalBranch, 1, 0⟩
  | .beq => ⟨"beq", .plain 0x3B, .int32, .controlFlow, .conditionalBranch, 2, 0⟩
  | .bge => ⟨"bge", .plain 0x3C, .int32, .controlFlow, .conditionalBranch, 2, 0⟩
  | .bgt => ⟨"bgt", .plain 0x3D, .int32, .controlFlow, .conditionalBranch, 2, 0⟩
  | .ble => ⟨"ble", .plain 0x3E, .int32, .controlFlow, .conditionalBranch, 2, 0⟩
  | .blt => ⟨"blt", .plain 0x3F, .int32, .controlFlow, .conditionalBranch, 2, 0⟩
  | .bneUn => ⟨"bne.un", .plain 0x40, .int32, .controlFlow, .conditionalBranch, 2, 0⟩
  | .bgeUn => ⟨"bge.un", .plain 0x41, .int32, .controlFlow, .conditionalBranch, 2, 0⟩
  | .bgtUn => ⟨"bgt.un", .plain 0x42, .int32, .controlFlow, .conditionalBranch, 2, 0⟩
  | .bleUn => ⟨"ble.un", .plain 0x43, .int32, .controlFlow, .conditionalBranch, 2, 0⟩
  | .bltUn => ⟨"blt.un", .plain 0x44, .int32, .controlFlow, .conditionalBranch, 2, 0⟩
  | .switch => ⟨"switch", .plain 0x45, .switch, .controlFlow, .switch, 1, 0⟩
  | .ldindI1 => ⟨"ldind.i1", .plain 0x46, .none, .loadStore, .sequential, 1, 1⟩
  | .ldindU1 => ⟨"ldind.u1", .plain 0x47, .none, .loadStore, .sequential, 1, 1⟩
  | .ldindI2 => ⟨"ldind.i2", .plain 0x48, .none, .loadStore, .sequential, 1, 1⟩
  | .ldindU2 => ⟨"ldind.u2", .plain 0x49, .none, .loadStore, .sequential, 1, 1⟩
  | .ldindI4 => ⟨"ldind.i4", .plain 0x4A, .none, .loadStore, .sequential, 1, 1⟩
  | .ldindU4 => ⟨"ldind.u4", .plain 0x4B, .none, .loadStore, .sequential, 1, 1⟩
  | .ldindI8 => ⟨"ldind.i8", .plain 0x4C, .none, .loadStore, .sequential, 1, 1⟩
  | .ldindI => ⟨"ldind.i", .plain 0x4D, .none, .loadStore, .sequential, 1, 1⟩
  | .ldindR4 => ⟨"ldind.r4", .plain 0x4E, .none, .loadStore, .sequential, 1, 1⟩
  | .ldindR8 => ⟨"ldind.r8", .plain 0x4F, .none, .loadStore, .sequential, 1, 1⟩
  | .ldindRef => ⟨"ldind.ref", .plain 0x50, .none, .loadStore, .sequential, 1, 1⟩
  | .stindRef => ⟨"stind.ref", .plain 0x51, .none, .loadStore, .sequential, 2, 0⟩
  | .stindI1 => ⟨"stind.i1", .plain 0x52, .none, .loadStore, .sequential, 2, 0⟩
  | .stindI2 => ⟨"stind.i2", .plain 0x53, .none, .loadStore, .sequential, 2, 0⟩
  | .stindI4 => ⟨"stind.i4", .plain 0x54, .none, .loadStore, .sequential, 2, 0⟩
  | .stindI8 => ⟨"stind.i8", .plain 0x55, .none, .loadStore, .sequential, 2, 0⟩
  | .stindR4 => ⟨"stind.r4", .plain 0x56, .none, .loadStore, .sequential, 2, 0⟩
  | .stindR8 => ⟨"stind.r8", .plain 0x57, .none, .loadStore, .sequential, 2, 0⟩
  | .add => ⟨"add", .plain 0x58, .none, .arithmetic, .sequential, 2, 1⟩
  | .sub => ⟨"sub", .plain 0x59, .none, .arithmetic, .sequential, 2, 1⟩
  | .mul => ⟨"mul", .plain 0x5A, .none, .arithmetic, .sequential, 2, 1⟩
  | .div => ⟨"div", .plain 0x5B, .none, .arithmetic, .sequential, 2, 1⟩
  | .divUn => ⟨"div.un", .plain 0x5C, .none, .arithmetic, .sequential, 2, 1⟩
  | .rem => ⟨"rem", .plain 0x5D, .none, .arithmetic, .sequential, 2, 1⟩
  | .remUn => ⟨"rem.un", .plain 0x5E, .none, .arithmetic, .sequential, 2, 1⟩
  | .and => ⟨"and", .plain 0x5F, .none, .bitwiseLogical, .sequential, 2, 1⟩
  | .or => ⟨"or", .plain 0x60, .none, .bitwiseLogical, .sequential, 2, 1⟩
  | .xor => ⟨"xor", .plain 0x61, .none, .bitwiseLogical, .sequential, 2, 1⟩
  | .shl => ⟨"shl", .plain 0x62, .none, .bitwiseLogical, .sequential, 2, 1⟩
  | .shr => ⟨"shr", .plain 0x63, .none, .bitwiseLogical, .sequential, 2, 1⟩
  | .shrUn => ⟨"shr.un", .plain 0x64, .none, .bitwiseLogical, .sequential, 2, 1⟩
  | .neg => ⟨"neg", .plain 0x65, .none, .arithmetic, .sequential, 1, 1⟩
  | .not => ⟨"not", .plain 0x66, .none, .bitwiseLogical, .sequential, 1, 1⟩
  | .convI1 => ⟨"conv.i1", .plain 0x67, .none, .conversion, .sequential, 1, 1⟩
  | .convI2 => ⟨"conv.i2", .plain 0x68, .none, .conversion, .sequential, 1, 1⟩
  | .convI4 => ⟨"conv.i4", .plain 0x69, .none, .conversion, .sequential, 1, 1⟩
  | .convI8 => ⟨"conv.i8", .plain 0x6A, .none, .conversion, .sequential, 1, 1⟩
  | .convR4 => ⟨"conv.r4", .plain 0x6B, .none, .conversion, .sequential, 1, 1⟩
  | .convR8 => ⟨"conv.r8", .plain 0x6C, .none, .conversion, .sequential, 1, 1⟩
  | .convU4 => ⟨"conv.u4", .plain 0x6D, .none, .conversion, .sequential, 1, 1⟩
  | .convU8 => ⟨"conv.u8", .plain 0x6E, .none, .conversion, .sequential, 1, 1⟩
  | .callvirt => ⟨"callvirt", .plain 0x6F, .token, .objectModel, .call, 0, 0⟩
  | .cpobj => ⟨"cpobj", .plain 0x70, .token, .objectModel, .sequential, 2, 0⟩
  | .ldobj => ⟨"ldobj", .plain 0x71, .token, .objectModel, .sequential, 1, 1⟩
  | .ldstr => ⟨"ldstr", .plain 0x72, .token, .objectModel, .sequential, 0, 1⟩
  | .newobj => ⟨"newobj", .plain 0x73, .token, .objectModel, .call, 0, 1⟩
  | .castclass => ⟨"castclass", .plain 0x74, .token, .objectModel, .sequential, 1, 1⟩
  | .isinst => ⟨"isinst", .plain 0x75, .token, .objectModel, .sequential, 1, 1⟩
  | .convRUn => ⟨"conv.r.un", .plain 0x76, .none, .conversion, .sequential, 1, 1⟩
  | .unbox => ⟨"unbox", .plain 0x79, .token, .objectModel, .sequential, 1, 1⟩
  | .throw => ⟨"throw", .plain 0x7A, .none, .controlFlow, .throw, 1, 0⟩
  | .ldfld => ⟨"ldfld", .plain 0x7B, .token, .objectModel, .sequential, 1, 1⟩
  | .ldflda => ⟨"ldflda", .plain 0x7C, .token, .objectModel, .sequential, 1, 1⟩
  | .stfld => ⟨"stfld", .plain 0x7D, .token, .objectModel, .sequential, 2, 0⟩
  | .ldsfld => ⟨"ldsfld", .plain 0x7E, .token, .objectModel, .sequential, 0, 1⟩
  | .ldsflda => ⟨"ldsflda", .plain 0x7F, .token, .objectModel, .sequential, 0, 1⟩
  | .stsfld => ⟨"stsfld", .plain 0x80, .token, .objectModel, .sequential, 1, 0⟩
  | .stobj => ⟨"stobj", .plain 0x81, .token, .objectModel, .sequential, 2, 0⟩
  | .convOvfI1Un => ⟨"conv.ovf.i1.un", .plain 0x82, .none, .conversion, .sequential, 1, 1⟩
  | .convOvfI2Un => ⟨"conv.ovf.i2.un", .plain 0x83, .none, .conversion, .sequential, 1, 1⟩
  | .convOvfI4Un => ⟨"conv.ovf.i4.un", .plain 0x84, .none, .conversion, .sequential, 1, 1⟩
  | .convOvfI8Un => ⟨"conv.ovf.i8.un", .plain 0x85, .none, .conversion, .sequential, 1, 1⟩
  | .convOvfU1Un => ⟨"conv.ovf.u1.un", .plain 0x86, .none, .conversion, .sequential, 1, 1⟩
  | .convOvfU2Un => ⟨"conv.ovf.u2.un", .plain 0x87, .none, .conversion, .sequential, 1, 1⟩
  | .convOvfU4Un => ⟨"conv.ovf.u4.un", .plain 0x88, .none, .conversion, .sequential, 1, 1⟩
  | .convOvfU8Un => ⟨"conv.ovf.u8.un", .plain 0x89, .none, .conversion, .sequential, 1, 1⟩
  | .convOvfIUn => ⟨"conv.ovf.i.un", .plain 0x8A, .none, .conversion, .sequential, 1, 1⟩
  | .convOvfUUn => ⟨"conv.ovf.u.un", .plain 0x8B, .none, .conversion, .sequential, 1, 1⟩
  | .box => ⟨"box", .plain 0x8C, .token, .objectModel, .sequential, 1, 1⟩
  | .newarr => ⟨"newarr", .plain 0x8D, .token, .objectModel, .sequential, 1, 1⟩
  | .ldlen => ⟨"ldlen", .plain 0x8E, .none, .objectModel, .sequential, 1, 1⟩
  | .ldelema => ⟨"ldelema", .plain 0x8F, .token, .objectModel, .sequential, 2, 1⟩
  | .ldelemI1 => ⟨"ldelem.i1", .plain 0x90, .none, .objectModel, .sequential, 2, 1⟩
  | .ldelemU1 => ⟨"ldelem.u1", .plain 0x91, .none, .objectModel, .sequential, 2, 1⟩
  | .ldelemI2 => ⟨"ldelem.i2", .plain 0x92, .none, .objectModel, .sequential, 2, 1⟩
  | .ldelemU2 => ⟨"ldelem.u2", .plain 0x93, .none, .objectModel, .sequential, 2, 1⟩
  | .ldelemI4 => ⟨"ldelem.i4", .plain 0x94, .none, .objectModel, .sequential, 2, 1⟩
  | .ldelemU4 => ⟨"ldelem.u4", .plain 0x95, .none, .objectModel, .sequential, 2, 1⟩
  | .ldelemI8 => ⟨"ldelem.i8", .plain 0x96, .none, .objectModel, .sequential, 2, 1⟩
  | .ldelemI => ⟨"ldelem.i", .plain 0x97, .none, .objectModel, .sequential, 2, 1⟩
  | .ldelemR4 => ⟨"ldelem.r4", .plain 0x98, .none, .objectModel, .sequential, 2, 1⟩
  | .ldelemR8 => ⟨"ldelem.r8", .plain 0x99, .none, .objectModel, .sequential, 2, 1⟩
  | .ldelemRef => ⟨"ldelem.ref", .plain 0x9A, .none, .objectModel, .sequential, 2, 1⟩
  | .stelemI => ⟨"stelem.i", .plain 0x9B, .none, .objectModel, .sequential, 3, 0⟩
  | .stelemI1 => ⟨"stelem.i1", .plain 0x9C, .none, .objectModel, .sequential, 3, 0⟩
  | .stelemI2 => ⟨"stelem.i2", .plain 0x9D, .none, .objectModel, .sequential, 3, 0⟩
  | .stelemI4 => ⟨"stelem.i4", .plain 0x9E, .none, .objectModel, .sequential, 3, 0⟩
  | .stelemI8 => ⟨"stelem.i8", .plain 0x9F, .none, .objectModel, .sequential, 3, 0⟩
  | .stelemR4 => ⟨"stelem.r4", .plain 0xA0, .none, .objectModel, .sequential, 3, 0⟩
  | .stelemR8 => ⟨"stelem.r8", .plain 0xA1, .none, .objectModel, .sequential, 3, 0⟩
  | .stelemRef => ⟨"stelem.ref", .plain 0xA2, .none, .objectModel, .sequential, 3, 0⟩
  | .ldelem => ⟨"ldelem", .plain 0xA3, .token, .objectModel, .sequential, 2, 1⟩
  | .stelem => ⟨"stelem", .plain 0xA4, .token, .objectModel, .sequential, 3, 0⟩
  | .unboxAny => ⟨"unbox.any", .plain 0xA5, .token, .objectModel, .sequential, 1, 1⟩
  | .convOvfI1 => ⟨"conv.ovf.i1", .plain 0xB3, .none, .conversion, .sequential, 1, 1⟩
  | .convOvfU1 => ⟨"conv.ovf.u1", .plain 0xB4, .none, .conversion, .sequential, 1, 1⟩
  | .convOvfI2 => ⟨"conv.ovf.i2", .plain 0xB5, .none, .conversion, .sequential, 1, 1⟩
  | .convOvfU2 => ⟨"conv.ovf.u2", .plain 0xB6, .none, .conversion, .sequential, 1, 1⟩
  | .convOvfI4 => ⟨"conv.ovf.i4", .plain 0xB7, .none, .conversion, .sequential, 1, 1⟩
  | .convOvfU4 => ⟨"conv.ovf.u4", .plain 0xB8, .none, .conversion, .sequential, 1, 1⟩
  | .convOvfI8 => ⟨"conv.ovf.i8", .plain 0xB9, .none, .conversion, .sequential, 1, 1⟩
  | .convOvfU8 => ⟨"conv.ovf.u8", .plain 0xBA, .none, .conversion, .sequential, 1, 1⟩
  | .refanyval => ⟨"refanyval", .plain 0xC2, .token, .objectModel, .sequential, 1, 1⟩
  | .ckfinite => ⟨"ckfinite", .plain 0xC3, .none, .arithmetic, .sequential, 1, 1⟩
  | .mkrefany => ⟨"mkrefany", .plain 0xC6, .token, .objectModel, .sequential, 1, 1⟩
  | .ldtoken => ⟨"ldtoken", .plain 0xD0, .token, .objectModel, .sequential, 0, 1⟩
  | .convU2 => ⟨"conv.u2", .plain 0xD1, .none, .conversion, .sequential, 1, 1⟩
  | .convU1 => ⟨"conv.u1", .plain 0xD2, .none, .conversion, .sequential, 1, 1⟩
  | .convI => ⟨"conv.i", .plain 0xD3, .none, .conversion, .sequential, 1, 1⟩
  | .convOvfI => ⟨"conv.ovf.i", .plain 0xD4, .none, .conversion, .sequential, 1, 1⟩
  | .convOvfU => ⟨"conv.ovf.u", .plain 0xD5, .none, .conversion, .sequential, 1, 1⟩
  | .addOvf => ⟨"add.ovf", .plain 0xD6, .none, .arithmetic, .sequential, 2, 1⟩
  | .addOvfUn => ⟨"add.ovf.un", .plain 0xD7, .none, .arithmetic, .sequential, 2, 1⟩
  | .mulOvf => ⟨"mul.ovf", .plain 0xD8, .none, .arithmetic, .sequential, 2, 1⟩
  | .mulOvfUn => ⟨"mul.ovf.un", .plain 0xD9, .none, .arithmetic, .sequential, 2, 1⟩
  | .subOvf => ⟨"sub.ovf", .plain 0xDA, .none, .arithmetic, .sequential, 2, 1⟩
  | .subOvfUn => ⟨"sub.ovf.un", .plain 0xDB, .none, .arithmetic, .sequential, 2, 1⟩
  | .endfinally => ⟨"endfinally", .plain 0xDC, .none, .controlFlow, .endFinally, 0, 0⟩
  | .leave => ⟨"leave", .plain 0xDD, .int32, .controlFlow, .leave, 0, 0⟩
  | .leaveS => ⟨"leave.s", .plain 0xDE, .int8, .controlFlow, .leave, 0, 0⟩
  | .stindI => ⟨"stind.i", .plain 0xDF, .none, .loadStore, .sequential, 2, 0⟩
  | .convU => ⟨"conv.u", .plain 0xE0, .none, .conversion, .sequential, 1, 1⟩
  | .arglist => ⟨"arglist", .extended 0x00, .none, .misc, .sequential, 0, 1⟩
  | .ceq => ⟨"ceq", .extended 0x01, .none, .comparison, .sequential, 2, 1⟩
  | .cgt => ⟨"cgt", .extended 0x02, .none, .comparison, .sequential, 2, 1⟩
  | .cgtUn => ⟨"cgt.un", .extended 0x03, .none, .comparison, .sequential, 2, 1⟩
  | .clt => ⟨"clt", .extended 0x04, .none, .comparison, .sequential, 2, 1⟩
  | .cltUn => ⟨"clt.un", .extended 0x05, .none, .comparison, .sequential, 2, 1⟩
  | .ldftn => ⟨"ldftn", .extended 0x06, .token, .objectModel, .sequential, 0, 1⟩
  | .ldvirtftn => ⟨"ldvirtftn", .extended 0x07, .token, .objectModel, .sequential, 1, 1⟩
  | .ldarg => ⟨"ldarg", .extended 0x09, .uint16, .loadStore, .sequential, 0, 1⟩
  | .ldarga => ⟨"ldarga", .extended 0x0A, .uint16, .loadStore, .sequential, 0, 1⟩
  | .starg => ⟨"starg", .extended 0x0B, .uint16, .loadStore, .sequential, 1, 0⟩
  | .ldloc => ⟨"ldloc", .extended 0x0C, .uint16, .loadStore, .sequential, 0, 1⟩
  | .ldloca => ⟨"ldloca", .extended 0x0D, .uint16, .loadStore, .sequential, 0, 1⟩
  | .stloc => ⟨"stloc", .extended 0x0E, .uint16, .loadStore, .sequential, 1, 0⟩
  | .localloc => ⟨"localloc", .extended 0x0F, .none, .misc, .sequential, 1, 1⟩
  | .endfilter => ⟨"endfilter", .extended 0x11, .none, .controlFlow, .endFinally, 1, 0⟩
  | .unaligned => ⟨"unaligned.", .extended 0x12, .uint8, .prefixMark, .sequential, 0, 0⟩
  | .volatile => ⟨"volatile.", .extended 0x13, .none, .prefixMark, .sequential, 0, 0⟩
  | .tail => ⟨"tail.", .extended 0x14, .none, .prefixMark, .sequential, 0, 0⟩
  | .initobj => ⟨"initobj", .extended 0x15, .token, .objectModel, .sequential, 1, 0⟩
  | .constrained => ⟨"constrained.", .extended 0x16, .token, .prefixMark, .sequential, 0, 0⟩
  | .cpblk => ⟨"cpblk", .extended 0x17, .none, .misc, .sequential, 3, 0⟩
  | .initblk => ⟨"initblk", .extended 0x18, .none, .misc, .sequential, 3, 0⟩
  | .noCheck => ⟨"no.", .extended 0x19, .uint8, .prefixMark, .sequential, 0, 0⟩
  | .rethrow => ⟨"rethrow", .extended 0x1A, .none, .controlFlow, .throw, 0, 0⟩
  | .sizeof => ⟨"sizeof", .extended 0x1C, .token, .objectModel, .sequential, 0, 1⟩
  | .refanytype => ⟨"refanytype", .extended 0x1D, .none, .objectModel, .sequential, 1, 1⟩
  | .readonly => ⟨"readonly.", .extended 0x1E, .none, .prefixMark, .sequential, 0, 0⟩

/-- The instructions with a code of one byte, in the order of their codes; a gap is a
reserved code. -/
def plainTable : List (Option Opcode) :=
  [ some .nop, some .breakpoint, some .ldarg0, some .ldarg1, some .ldarg2, some .ldarg3,
    some .ldloc0, some .ldloc1, some .ldloc2, some .ldloc3, some .stloc0, some .stloc1,
    some .stloc2, some .stloc3, some .ldargS, some .ldargaS, some .stargS, some .ldlocS,
    some .ldlocaS, some .stlocS, some .ldnull, some .ldcI4M1, some .ldcI40, some .ldcI41,
    some .ldcI42, some .ldcI43, some .ldcI44, some .ldcI45, some .ldcI46, some .ldcI47,
    some .ldcI48, some .ldcI4S, some .ldcI4, some .ldcI8, some .ldcR4, some .ldcR8, none,
    some .dup, some .pop, some .jmp, some .call, some .calli, some .ret, some .brS,
    some .brfalseS, some .brtrueS, some .beqS, some .bgeS, some .bgtS, some .bleS,
    some .bltS, some .bneUnS, some .bgeUnS, some .bgtUnS, some .bleUnS, some .bltUnS,
    some .br, some .brfalse, some .brtrue, some .beq, some .bge, some .bgt, some .ble,
    some .blt, some .bneUn, some .bgeUn, some .bgtUn, some .bleUn, some .bltUn,
    some .switch, some .ldindI1, some .ldindU1, some .ldindI2, some .ldindU2,
    some .ldindI4, some .ldindU4, some .ldindI8, some .ldindI, some .ldindR4,
    some .ldindR8, some .ldindRef, some .stindRef, some .stindI1, some .stindI2,
    some .stindI4, some .stindI8, some .stindR4, some .stindR8, some .add, some .sub,
    some .mul, some .div, some .divUn, some .rem, some .remUn, some .and, some .or,
    some .xor, some .shl, some .shr, some .shrUn, some .neg, some .not, some .convI1,
    some .convI2, some .convI4, some .convI8, some .convR4, some .convR8, some .convU4,
    some .convU8, some .callvirt, some .cpobj, some .ldobj, some .ldstr, some .newobj,
    some .castclass, some .isinst, some .convRUn, none, none, some .unbox, some .throw,
    some .ldfld, some .ldflda, some .stfld, some .ldsfld, some .ldsflda, some .stsfld,
    some .stobj, some .convOvfI1Un, some .convOvfI2Un, some .convOvfI4Un,
    some .convOvfI8Un, some .convOvfU1Un, some .convOvfU2Un, some .convOvfU4Un,
    some .convOvfU8Un, some .convOvfIUn, some .convOvfUUn, some .box, some .newarr,
    some .ldlen, some .ldelema, some .ldelemI1, some .ldelemU1, some .ldelemI2,
    some .ldelemU2, some .ldelemI4, some .ldelemU4, some .ldelemI8, some .ldelemI,
    some .ldelemR4, some .ldelemR8, some .ldelemRef, some .stelemI, some .stelemI1,
    some .stelemI2, some .stelemI4, some .stelemI8, some .stelemR4, some .stelemR8,
    some .stelemRef, some .ldelem, some .stelem, some .unboxAny, none, none, none, none,
    none, none, none, none, none, none, none, none, none, some .convOvfI1,
    some .convOvfU1, some .convOvfI2, some .convOvfU2, some .convOvfI4, some .convOvfU4,
    some .convOvfI8, some .convOvfU8, none, none, none, none, none, none, none,
    some .refanyval, some .ckfinite, none, none, some .mkrefany, none, none, none, none,
    none, none, none, none, none, some .ldtoken, some .convU2, some .convU1, some .convI,
    some .convOvfI, some .convOvfU, some .addOvf, some .addOvfUn, some .mulOvf,
    some .mulOvfUn, some .subOvf, some .subOvfUn, some .endfinally, some .leave,
    some .leaveS, some .stindI, some .convU ]

/-- The instructions with a code of two bytes, in the order of their second bytes. -/
def extendedTable : List (Option Opcode) :=
  [ some .arglist, some .ceq, some .cgt, some .cgtUn, some .clt, some .cltUn,
    some .ldftn, some .ldvirtftn, none, some .ldarg, some .ldarga, some .starg,
    some .ldloc, some .ldloca, some .stloc, some .localloc, none, some .endfilter,
    some .unaligned, some .volatile, some .tail, some .initobj, some .constrained,
    some .cpblk, some .initblk, some .noCheck, some .rethrow, none, some .sizeof,
    some .refanytype, some .readonly ]

def all : List Opcode :=
  plainTable.filterMap id ++ extendedTable.filterMap id

def mnemonic (opcode : Opcode) : String := opcode.info.mnemonic

def code (opcode : Opcode) : OpcodeBytes := opcode.info.code

def operand (opcode : Opcode) : OperandKind := opcode.info.operand

def category (opcode : Opcode) : Category := opcode.info.category

def flow (opcode : Opcode) : Flow := opcode.info.flow

def pops (opcode : Opcode) : Nat := opcode.info.pops

def pushes (opcode : Opcode) : Nat := opcode.info.pushes

/-- The table entry of a code: absent beyond the table, empty where reserved. -/
def entry? : OpcodeBytes → Option (Option Opcode)
  | .plain byte => plainTable[byte]?
  | .extended byte => extendedTable[byte]?

def ofMnemonic? (mnemonic : String) : Option Opcode :=
  all.find? (·.mnemonic == mnemonic)

theorem entry?_code (opcode : Opcode) : entry? opcode.code = some (some opcode) := by
  cases opcode <;> rfl

/-- How many values remain more than were there before. -/
def netEffect (opcode : Opcode) : Int :=
  (opcode.pushes : Int) - opcode.pops

/-! ## Short and long forms of branches -/

/-- The long forms of the branch instructions, each with its short form. -/
def branchForms : List (Opcode × Opcode) :=
  [ (br, brS), (brfalse, brfalseS), (brtrue, brtrueS), (beq, beqS), (bneUn, bneUnS),
    (bge, bgeS), (bgeUn, bgeUnS), (bgt, bgtS), (bgtUn, bgtUnS), (ble, bleS),
    (bleUn, bleUnS), (blt, bltS), (bltUn, bltUnS), (leave, leaveS) ]

/-- The short form of a long branch. -/
def shortForm? (opcode : Opcode) : Option Opcode :=
  (branchForms.find? (·.1 == opcode)).map (·.2)

/-- The long form of a branch, in either form. -/
def longForm? (opcode : Opcode) : Option Opcode :=
  (branchForms.find? fun forms => forms.1 == opcode || forms.2 == opcode).map (·.1)

end Opcode

end Cil
