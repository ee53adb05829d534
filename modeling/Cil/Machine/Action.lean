import Cil.Code.Opcode
import Cil.Machine.Comparison
import Cil.Machine.Conversion

/-!
# What instructions do

Many instructions do the same thing with different operands.  An action is what one of
them does when it is executed, apart from its operand; instructions without an action
can be decoded but not executed.
-/

namespace Cil

/-- What an instruction does. -/
inductive Action
  | nothing
  /-- Says something about the next instruction that makes no difference. -/
  | mark
  /-- Names the type on whose behalf the next call is made. -/
  | constrain
  | loadNull
  | loadInt32
  | loadInt64
  | loadFloat
  | loadString
  | duplicate
  | discard
  | loadArgument
  | loadArgumentAddress
  | storeArgument
  | loadLocal
  | loadLocalAddress
  | storeLocal
  | returnValue
  | jump
  /-- Jumps if the popped value is true, or if it is not. -/
  | jumpIf (expected : Bool)
  | jumpWhen (condition : Condition)
  | select
  | leave
  | endFinally
  | endFilter
  | throw
  | rethrow
  | binary (op : BinaryOp)
  | shift (op : ShiftOp)
  | unary (op : UnaryOp)
  | compare (condition : Condition)
  | convert (conversion : Conversion)
  | call
  | callVirtual
  | construct
  | loadFunction
  | loadVirtualFunction
  | callIndirect
  | loadField
  | loadFieldAddress
  | storeField
  | loadStatic
  | loadStaticAddress
  | storeStatic
  | box
  | unbox
  | unboxAny
  /-- Checks the type of a reference; a failed check throws or gives null. -/
  | cast (throws : Bool)
  | setToZero
  /-- Reads through a pointer and reduces what it reads to a width. -/
  | loadIndirect (width? : Option NumberType)
  | storeIndirect (width? : Option NumberType)
  | newArray
  | arrayLength
  | loadElementAddress
  | loadElement
  | storeElement
deriving DecidableEq, Repr, Inhabited

namespace Opcode

private def signed (relation : Relation) : Condition := ⟨relation, false⟩

private def unsigned (relation : Relation) : Condition := ⟨relation, true⟩

private def unchecked (target : NumberType) : Action :=
  .convert { target }

private def checked (target : NumberType) : Action :=
  .convert { target, isChecked := true }

private def checkedUnsigned (target : NumberType) : Action :=
  .convert { target, isChecked := true, fromUnsigned := true }

/-- What an instruction does, if it can be executed. -/
def action? : Opcode → Option Action
  | nop | breakpoint => some .nothing
  | readonly | volatile | tail | unaligned => some .mark
  | constrained => some .constrain
  | ldnull => some .loadNull
  | ldcI4M1 | ldcI40 | ldcI41 | ldcI42 | ldcI43 | ldcI44 | ldcI45 | ldcI46 | ldcI47
  | ldcI48 | ldcI4S | ldcI4 => some .loadInt32
  | ldcI8 => some .loadInt64
  | ldcR4 | ldcR8 => some .loadFloat
  | ldstr => some .loadString
  | dup => some .duplicate
  | pop => some .discard
  | ldarg0 | ldarg1 | ldarg2 | ldarg3 | ldargS | ldarg => some .loadArgument
  | ldargaS | ldarga => some .loadArgumentAddress
  | stargS | starg => some .storeArgument
  | ldloc0 | ldloc1 | ldloc2 | ldloc3 | ldlocS | ldloc => some .loadLocal
  | ldlocaS | ldloca => some .loadLocalAddress
  | stloc0 | stloc1 | stloc2 | stloc3 | stlocS | stloc => some .storeLocal
  | ret => some .returnValue
  | br | brS => some .jump
  | brtrue | brtrueS => some (.jumpIf true)
  | brfalse | brfalseS => some (.jumpIf false)
  | beq | beqS => some (.jumpWhen (signed .equal))
  | bneUn | bneUnS => some (.jumpWhen (unsigned .notEqual))
  | bge | bgeS => some (.jumpWhen (signed .atLeast))
  | bgeUn | bgeUnS => some (.jumpWhen (unsigned .atLeast))
  | bgt | bgtS => some (.jumpWhen (signed .greater))
  | bgtUn | bgtUnS => some (.jumpWhen (unsigned .greater))
  | ble | bleS => some (.jumpWhen (signed .atMost))
  | bleUn | bleUnS => some (.jumpWhen (unsigned .atMost))
  | blt | bltS => some (.jumpWhen (signed .less))
  | bltUn | bltUnS => some (.jumpWhen (unsigned .less))
  | switch => some .select
  | Opcode.leave | leaveS => some .leave
  | endfinally => some .endFinally
  | endfilter => some .endFilter
  | throw => some .throw
  | rethrow => some .rethrow
  | add => some (.binary .add)
  | sub => some (.binary .sub)
  | mul => some (.binary .mul)
  | div => some (.binary .div)
  | divUn => some (.binary .divUn)
  | rem => some (.binary .rem)
  | remUn => some (.binary .remUn)
  | and => some (.binary .and)
  | or => some (.binary .or)
  | xor => some (.binary .xor)
  | addOvf => some (.binary .addOvf)
  | addOvfUn => some (.binary .addOvfUn)
  | subOvf => some (.binary .subOvf)
  | subOvfUn => some (.binary .subOvfUn)
  | mulOvf => some (.binary .mulOvf)
  | mulOvfUn => some (.binary .mulOvfUn)
  | shl => some (.shift .left)
  | shr => some (.shift .right)
  | shrUn => some (.shift .rightUn)
  | neg => some (.unary .negate)
  | not => some (.unary .complement)
  | ceq => some (.compare (signed .equal))
  | cgt => some (.compare (signed .greater))
  | cgtUn => some (.compare (unsigned .greater))
  | clt => some (.compare (signed .less))
  | cltUn => some (.compare (unsigned .less))
  | convI1 => some (unchecked .int8)
  | convI2 => some (unchecked .int16)
  | convI4 => some (unchecked .int32)
  | convI8 => some (unchecked .int64)
  | convU1 => some (unchecked .uint8)
  | convU2 => some (unchecked .uint16)
  | convU4 => some (unchecked .uint32)
  | convU8 => some (unchecked .uint64)
  | convI => some (unchecked .nativeInt)
  | convU => some (unchecked .nativeUInt)
  | convR4 => some (unchecked .float32)
  | convR8 => some (unchecked .float64)
  | convRUn => some (.convert { target := .real, fromUnsigned := true })
  | convOvfI1 => some (checked .int8)
  | convOvfI2 => some (checked .int16)
  | convOvfI4 => some (checked .int32)
  | convOvfI8 => some (checked .int64)
  | convOvfU1 => some (checked .uint8)
  | convOvfU2 => some (checked .uint16)
  | convOvfU4 => some (checked .uint32)
  | convOvfU8 => some (checked .uint64)
  | convOvfI => some (checked .nativeInt)
  | convOvfU => some (checked .nativeUInt)
  | convOvfI1Un => some (checkedUnsigned .int8)
  | convOvfI2Un => some (checkedUnsigned .int16)
  | convOvfI4Un => some (checkedUnsigned .int32)
  | convOvfI8Un => some (checkedUnsigned .int64)
  | convOvfU1Un => some (checkedUnsigned .uint8)
  | convOvfU2Un => some (checkedUnsigned .uint16)
  | convOvfU4Un => some (checkedUnsigned .uint32)
  | convOvfU8Un => some (checkedUnsigned .uint64)
  | convOvfIUn => some (checkedUnsigned .nativeInt)
  | convOvfUUn => some (checkedUnsigned .nativeUInt)
  | call => some .call
  | callvirt => some .callVirtual
  | newobj => some .construct
  | ldftn => some .loadFunction
  | ldvirtftn => some .loadVirtualFunction
  | calli => some .callIndirect
  | ldfld => some .loadField
  | ldflda => some .loadFieldAddress
  | stfld => some .storeField
  | ldsfld => some .loadStatic
  | ldsflda => some .loadStaticAddress
  | stsfld => some .storeStatic
  | box => some .box
  | unbox => some .unbox
  | unboxAny => some .unboxAny
  | castclass => some (.cast true)
  | isinst => some (.cast false)
  | initobj => some .setToZero
  | ldindI1 => some (.loadIndirect (some .int8))
  | ldindU1 => some (.loadIndirect (some .uint8))
  | ldindI2 => some (.loadIndirect (some .int16))
  | ldindU2 => some (.loadIndirect (some .uint16))
  | ldindU4 => some (.loadIndirect (some .uint32))
  | ldobj | ldindI4 | ldindI8 | ldindI | ldindR4 | ldindR8 | ldindRef =>
    some (.loadIndirect none)
  | stindI1 => some (.storeIndirect (some .int8))
  | stindI2 => some (.storeIndirect (some .int16))
  | stobj | stindI4 | stindI8 | stindI | stindR4 | stindR8 | stindRef =>
    some (.storeIndirect none)
  | newarr => some .newArray
  | ldlen => some .arrayLength
  | ldelema => some .loadElementAddress
  | ldelemI1 | ldelemU1 | ldelemI2 | ldelemU2 | ldelemI4 | ldelemU4 | ldelemI8 | ldelemI
  | ldelemR4 | ldelemR8 | ldelemRef | ldelem => some .loadElement
  | stelemI | stelemI1 | stelemI2 | stelemI4 | stelemI8 | stelemR4 | stelemR8 | stelemRef
  | stelem => some .storeElement
  | jmp | cpobj | refanyval | ckfinite | mkrefany | ldtoken | arglist | localloc | cpblk
  | initblk | noCheck | sizeof | refanytype => none

end Opcode

end Cil
