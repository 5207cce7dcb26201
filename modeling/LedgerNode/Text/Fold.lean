/-!
# Case folding

Names of fields, levels and the like are compared without regard to the case of the letters `a` to
`z`. Other letters keep their case.

- `Text.fold`: a text with these letters in lower case.
- `Text.sameFolded`: equality without regard to their case, an equivalence relation
  (`Text.sameFolded_iff` says it of characters).
-/

namespace LedgerNode.Text

/-- A text with the letters `A` to `Z` in lower case. -/
def fold (s : String) : String :=
  s.map Char.toLower

/-- Whether two texts are equal but for the case of the letters `a` to `z`. -/
def sameFolded (s t : String) : Bool :=
  fold s = fold t

theorem sameFolded_iff {s t : String} :
    sameFolded s t = true ↔ s.toList.map Char.toLower = t.toList.map Char.toLower := by
  simp [sameFolded, fold, ← String.toList_inj]

@[simp] theorem sameFolded_refl (s : String) : sameFolded s s = true := by
  simp [sameFolded]

theorem sameFolded_comm (s t : String) : sameFolded s t = sameFolded t s := by
  simp [sameFolded, eq_comm]

theorem sameFolded_trans {s t u : String} (h : sameFolded s t = true)
    (k : sameFolded t u = true) : sameFolded s u = true := by
  simp_all [sameFolded]

end LedgerNode.Text
