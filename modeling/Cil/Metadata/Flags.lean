/-!
# Flag sets

A flag set is a word whose set bits all belong to the known flags of its kind.
Reading a raw word drops the unknown bits.
-/

namespace Cil

/-- A set of flags, given by the bits that are known for its kind. -/
structure Flags (known : Nat) where
  bits : Nat
deriving DecidableEq, Repr, Inhabited

namespace Flags

variable {known : Nat}

def empty : Flags known := ⟨0⟩

/-- The known flags among the bits of a word. -/
def ofBits (word : Nat) : Flags known := ⟨word &&& known⟩

/-- Whether every flag of `flags` is in the set. -/
def contains (set flags : Flags known) : Bool :=
  set.bits &&& flags.bits == flags.bits

def union (first second : Flags known) : Flags known :=
  ⟨first.bits ||| second.bits⟩

instance : OrOp (Flags known) := ⟨union⟩

/-- The set with a flag added if a condition holds. -/
def setIf (set : Flags known) (condition : Bool) (flag : Flags known) : Flags known :=
  if condition then set ||| flag else set

end Flags

abbrev TypeFlags := Flags 0x5A1

namespace TypeFlags

def isPublic : TypeFlags := ⟨0x1⟩
def isInterface : TypeFlags := ⟨0x20⟩
def isAbstract : TypeFlags := ⟨0x80⟩
def isSealed : TypeFlags := ⟨0x100⟩
def isSpecialName : TypeFlags := ⟨0x400⟩

end TypeFlags

abbrev FieldFlags := Flags 0x36

namespace FieldFlags

def isPublic : FieldFlags := ⟨0x6⟩
def isStatic : FieldFlags := ⟨0x10⟩
def isInitOnly : FieldFlags := ⟨0x20⟩

end FieldFlags

/-- The low bits of a method's flag word, which say who may call it. -/
def accessMask : Nat := 0x7

/-- The low bits of an implementation flag word, which say what the code is. -/
def codeTypeMask : Nat := 0x3

/-- Who may call a method. -/
abbrev AccessFlags := Flags 0x7

namespace AccessFlags

def isPublic : AccessFlags := ⟨0x6⟩

/-- The access part of a method's flag word. -/
def ofMethodFlags (word : Nat) : AccessFlags :=
  .ofBits (word &&& accessMask)

end AccessFlags

/-- How a method takes part in calls. -/
abbrev MethodModifiers := Flags 0x3DF0

namespace MethodModifiers

def isStatic : MethodModifiers := ⟨0x10⟩
def isFinal : MethodModifiers := ⟨0x20⟩
def isVirtual : MethodModifiers := ⟨0x40⟩
def hideBySig : MethodModifiers := ⟨0x80⟩
def newSlot : MethodModifiers := ⟨0x100⟩
def isAbstract : MethodModifiers := ⟨0x400⟩
def specialName : MethodModifiers := ⟨0x800⟩
def runtimeSpecialName : MethodModifiers := ⟨0x1000⟩
def platformInvoke : MethodModifiers := ⟨0x2000⟩

/-- The part of a method's flag word that is not access. -/
def ofMethodFlags (word : Nat) : MethodModifiers :=
  .ofBits (word - (word &&& accessMask))

end MethodModifiers

/-- What kind of code implements a method. -/
abbrev CodeType := Flags 0x3

namespace CodeType

def intermediate : CodeType := ⟨0x0⟩
def runtime : CodeType := ⟨0x3⟩

/-- The code type part of an implementation flag word. -/
def ofImplFlags (word : Nat) : CodeType :=
  .ofBits (word &&& codeTypeMask)

end CodeType

/-- How a method is implemented. -/
abbrev ImplOptions := Flags 0x11A8

namespace ImplOptions

def preserveSig : ImplOptions := ⟨0x80⟩
def internalCall : ImplOptions := ⟨0x1000⟩

/-- The options part of an implementation flag word. -/
def ofImplFlags (word : Nat) : ImplOptions :=
  .ofBits (word - (word &&& codeTypeMask))

end ImplOptions

/-- What an identity remembers about a method's modifiers. -/
abbrev IdentityFlags := Flags 0xF

namespace IdentityFlags

def isStatic : IdentityFlags := ⟨0x1⟩
def isConstructor : IdentityFlags := ⟨0x2⟩
def isAbstract : IdentityFlags := ⟨0x4⟩
def isVirtual : IdentityFlags := ⟨0x8⟩

end IdentityFlags

end Cil
