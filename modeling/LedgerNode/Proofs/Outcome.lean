/-!
# Results of composed computations

A computation that is followed by a function, or by another computation, succeeds when both parts
do.

- `map_eq_ok_iff`, `map_eq_error_iff`: a function applied to a result.
- `bind_eq_ok_iff`: a computation that goes on with the result of another.
-/

namespace LedgerNode

variable {ε α β : Type}

/-- A result that passed through a function comes from a result. -/
theorem map_eq_ok_iff {r : Except ε α} {f : α → β} {b : β} :
    r.map f = .ok b ↔ ∃ a, r = .ok a ∧ f a = b := by
  cases r <;> simp [Except.map]

/-- A fault that passed through a function was there before. -/
theorem map_eq_error_iff {r : Except ε α} {f : α → β} {x : ε} :
    r.map f = .error x ↔ r = .error x := by
  cases r <;> simp [Except.map]

/-- A sequence of two computations succeeds when both do. -/
theorem bind_eq_ok_iff {r : Except ε α} {f : α → Except ε β} {b : β} :
    (r >>= f) = .ok b ↔ ∃ a, r = .ok a ∧ f a = .ok b := by
  cases r <;> simp [bind, Except.bind]

end LedgerNode
