/-!
# References held by values

Heap objects and callables are named by numbers that are handed out once and
never reused.
-/

namespace Cil

/-- The name of a heap object. -/
structure HeapRef where
  id : Nat
deriving DecidableEq, Repr, Inhabited

namespace HeapRef

def text (reference : HeapRef) : String :=
  s!"HeapRef({reference.id})"

instance : ToString HeapRef := ⟨text⟩

end HeapRef

/-- The name of a callable, as code holds it. -/
structure FunctionPointer where
  id : Nat
deriving DecidableEq, Repr, Inhabited

namespace FunctionPointer

def text (pointer : FunctionPointer) : String :=
  s!"fnptr({pointer.id})"

instance : ToString FunctionPointer := ⟨text⟩

end FunctionPointer

end Cil
