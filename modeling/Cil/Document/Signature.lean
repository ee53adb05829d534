import Cil.Document
import Cil.Metadata.Flags

/-!
# Documents of signatures

Types are written by name, or as a record with one field that says how a type is made
from a token or from another type.  Answers give them as their text.
-/

namespace Cil

namespace TypeSig

def ofDocument : Document → Reader TypeSig
  | .text "void" => return .void
  | .text "bool" => return .boolean
  | .text "char" => return .char
  | .text "int32" => return .int32
  | .text "int64" => return .int64
  | .text "float64" => return .float64
  | .text "string" => return .string
  | .text "object" => return .object
  | .text "native int" => return .nativeInt
  | .record [("class", type)] => return .reference (← fromDocument type)
  | .record [("valuetype", type)] => return .valueType (← fromDocument type)
  | .record [("param", index)] => return .parameter (← fromDocument index)
  | .record [("byref", target)] => return .byRef (← ofDocument target)
  | .record [("array", element)] => return .array (← ofDocument element)
  | _ => throw "type expected"

end TypeSig

instance : FromDocument TypeSig := ⟨TypeSig.ofDocument⟩

instance : ToDocument TypeSig := ⟨fun signature => signature.text⟩

instance : FromDocument LocalVariable where
  fromDocument
    | .record [("pinned", signature)] =>
      return { signature := ← fromDocument signature, isPinned := true }
    | document => return { signature := ← fromDocument document }

instance : ToDocument LocalVariable where
  toDocument slot := toDocument (slot.signature, slot.isPinned)

instance : FromDocument MethodSignature where
  fromDocument document :=
    return { hasThis := ← document.get "this", params := ← document.get "params"
             returnType := ← document.getD "ret" .void }

instance : ToDocument MethodSignature := ⟨fun signature => signature.text⟩

/-- A signature of locals if there are locals, and else one of a method. -/
instance : FromDocument StandAloneSignature where
  fromDocument document :=
    match document.field? "locals" with
    | some slots => return .locals (← fromDocument slots)
    | none => return .method (← fromDocument document)

instance : ToDocument StandAloneSignature where
  toDocument
    | .locals slots => .record [("locals", slots)]
    | .method signature => .record [("method", signature)]

instance {known : Nat} : FromDocument (Flags known) where
  fromDocument document := return ⟨← fromDocument document⟩

instance {known : Nat} : ToDocument (Flags known) := ⟨fun flags => flags.bits⟩

end Cil
