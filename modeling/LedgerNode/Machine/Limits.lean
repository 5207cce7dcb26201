/-!
# Execution limits

- `Limits`: how deep calls may nest and how many items the evaluation stack may hold.
-/

namespace LedgerNode

/-- The resource bounds of one execution. -/
structure Limits where
  /-- The greatest number of frames on the invocation stack. -/
  maxInvocationDepth : Nat := 1024
  /-- The greatest number of items on the evaluation stack. -/
  maxStackSize : Nat := 2048
deriving DecidableEq, Repr

end LedgerNode
