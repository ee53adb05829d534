/-!
# Limits

What an execution may use.  Zero stands for any number.
-/

namespace Cil

/-- The bounds of an execution. -/
structure Limits where
  callDepth : Nat := 128
  instructions : Nat := 10000000
  heapObjects : Nat := 1000000
deriving DecidableEq, Repr, Inhabited

namespace Limits

/-- The bounds of an execution that is not told otherwise. -/
def standard : Limits := {}

/-- Only the call depth is bounded. -/
def unlimited : Limits := { instructions := 0, heapObjects := 0 }

def text (limits : Limits) : String :=
  s!"RuntimeLimits \x7b max_call_depth: {limits.callDepth}, " ++
    s!"max_instructions: {limits.instructions}, max_heap_objects: {limits.heapObjects} \x7d"

end Limits

end Cil
