/-!
# Numerals

The decimal and hexadecimal spellings of whole numbers that messages, listings and documents use,
and the fill that brings a numeral to a width.

- `Text.numeral`, `Text.integer`: decimal digits, with a minus sign for a negative integer. They
  tell which number they spell (`Text.numeral_inj`, `Text.integer_inj`).
- `Text.hexNumeral`: lowercase hexadecimal digits.
- `Text.padLeft`: leading fill up to a width.
-/

namespace LedgerNode.Text

/-- A number in decimal digits, without leading zeros. -/
def numeral (n : Nat) : String :=
  String.ofList (Nat.toDigits 10 n)

/-- An integer in decimal digits, with a minus sign when negative. -/
def integer (n : Int) : String :=
  if n < 0 then "-" ++ numeral n.natAbs else numeral n.natAbs

theorem isDigit_of_mem_numeral {n : Nat} {c : Char} (h : c ∈ (numeral n).toList) :
    c.isDigit = true := by
  rw [numeral, String.toList_ofList] at h
  exact Nat.isDigit_of_mem_toDigits (by decide) (by decide) h

/-- The digits of a number denote it. -/
theorem numeral_inj {m n : Nat} (h : numeral m = numeral n) : m = n := by
  have hdigits := congrArg String.toList h
  rw [numeral, numeral, String.toList_ofList, String.toList_ofList] at hdigits
  rw [← Nat.ofDigitChars_ten_toDigits (n := m), hdigits, Nat.ofDigitChars_ten_toDigits]

theorem numeral_ne_minus (m : Nat) (s : String) : numeral m ≠ "-" ++ s := by
  intro h
  have hminus : '-' ∈ (numeral m).toList := by
    rw [h, String.toList_append]
    exact List.mem_cons_self
  exact absurd (isDigit_of_mem_numeral hminus) (by decide)

/-- The sign and the digits of an integer denote it. -/
theorem integer_inj {m n : Int} (h : integer m = integer n) : m = n := by
  unfold integer at h
  split at h
  · split at h
    · have hnumeral : numeral m.natAbs = numeral n.natAbs := by
        simpa only [← String.toList_inj, String.toList_append, List.append_cancel_left_eq] using h
      have habs := numeral_inj hnumeral
      omega
    · exact absurd h.symm (numeral_ne_minus _ _)
  · split at h
    · exact absurd h (numeral_ne_minus _ _)
    · have habs := numeral_inj h
      omega

/-- A number in lowercase hexadecimal digits, without leading zeros. -/
def hexNumeral (n : Nat) : String :=
  String.ofList (Nat.toDigits 16 n)

/-- A text filled with leading `fill` characters up to a width. -/
def padLeft (fill : Char) (width : Nat) (s : String) : String :=
  String.ofList (List.replicate (width - s.length) fill) ++ s

/-- A numeral of at least as many digits as the width needs no fill. -/
theorem padLeft_of_le {fill : Char} {width : Nat} {s : String} (h : width ≤ s.length) :
    padLeft fill width s = s := by
  simp [padLeft, Nat.sub_eq_zero_of_le h]

end LedgerNode.Text
