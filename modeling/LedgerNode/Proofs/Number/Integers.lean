import LedgerNode.Number.Binary64
import Mathlib.Data.Nat.Log

/-!
# Integers among the floating-point numbers

A significand holds every whole number up to the power of two behind its bits, so the nearest
floating-point number to such an integer is the integer itself.

- `Binary64.round_of_lt`: below that power the significand is the integer with its bits moved up.
- `Binary64.whole?_ofInt`: the integer is read off the number again.
-/

namespace LedgerNode.Binary64

/-- The bits of a positive number below `2 ^ 53`, moved up until they are 53. -/
theorem leadingBit_le_shiftLeft {n : Nat} (hpos : 0 < n) (hlt : n < 2 * leadingBit) :
    n.log2 ≤ 52 ∧ leadingBit ≤ n <<< (52 - n.log2) ∧ n <<< (52 - n.log2) < 2 * leadingBit := by
  have hlog : n.log2 ≤ 52 := by
    have h := (Nat.log2_lt (Nat.ne_of_gt hpos) (k := 53)).mpr hlt
    omega
  have hsplit : 2 ^ n.log2 * 2 ^ (52 - n.log2) = leadingBit := by
    rw [← Nat.pow_add, Nat.add_sub_cancel' hlog]
    rfl
  refine ⟨hlog, ?_, ?_⟩
  · rw [Nat.shiftLeft_eq, ← hsplit]
    exact Nat.mul_le_mul_right _ (Nat.log2_self_le (Nat.ne_of_gt hpos))
  · rw [Nat.shiftLeft_eq, ← hsplit, ← Nat.mul_assoc, ← Nat.pow_succ']
    exact Nat.mul_lt_mul_of_pos_right Nat.lt_log2_self (Nat.two_pow_pos _)

/-- A positive number below `2 ^ 53` is held exactly. -/
theorem round_of_lt (negative : Bool) {n : Nat} (hpos : 0 < n) (hlt : n < 2 * leadingBit) :
    round negative n 1 =
      ⟨negative, n <<< (52 - n.log2), -((52 - n.log2 : Nat) : Int)⟩ := by
  obtain ⟨hlog, hlow, hhigh⟩ := leadingBit_le_shiftLeft hpos hlt
  have hone : (1 : Nat).log2 = 0 := by decide
  have hscale : scale n 1 (-((52 - n.log2 : Nat) : Int)) = (n <<< (52 - n.log2), 1) := by
    simp [scale]
  have hexponent : exponentOf n 1 = -((52 - n.log2 : Nat) : Int) := by
    have hguess : max ((n.log2 : Int) - ((1 : Nat).log2 : Int) - 52) minExponent =
        -((52 - n.log2 : Nat) : Int) := by
      rw [hone, minExponent]
      omega
    unfold exponentOf
    dsimp only
    rw [hguess, hscale, if_neg]
    rw [Nat.div_one]
    omega
  have hround : roundQuotient (n <<< (52 - n.log2)) 1 = n <<< (52 - n.log2) := by
    have h := roundQuotient_mul (n <<< (52 - n.log2)) Nat.one_pos
    rwa [Nat.mul_one] at h
  unfold round carry
  dsimp only
  rw [if_neg (Nat.ne_of_gt hpos), hexponent, hscale]
  dsimp only
  rw [hround, if_neg (Nat.ne_of_lt hhigh)]

/-- Moving bits up does not change what they count. -/
theorem whole?_shiftLeft (negative : Bool) (n k : Nat) :
    whole? ⟨negative, n <<< k, -(k : Int)⟩ = some (if negative then -(n : Int) else n) := by
  have hup : (-(k : Int)).toNat = 0 := by omega
  have hdown : (- -(k : Int)).toNat = k := by omega
  have hpos : 0 < 2 ^ k := Nat.two_pow_pos k
  unfold whole? magnitude
  dsimp only
  rw [hup, hdown, Nat.shiftLeft_zero, Nat.shiftLeft_eq, Nat.shiftLeft_eq, Nat.one_mul,
    Nat.mul_mod_left, if_pos rfl, Nat.mul_div_cancel _ hpos]
  rfl

/-- A whole number up to `2 ^ 53` is the number nearest to it. -/
theorem whole?_round (negative : Bool) {n : Nat} (h : n ≤ 2 * leadingBit) :
    (round negative n 1).whole? = some (if negative then -(n : Int) else n) := by
  rcases Nat.eq_zero_or_pos n with rfl | hpos
  · cases negative <;> rfl
  · rcases Nat.lt_or_eq_of_le h with hlt | rfl
    · rw [round_of_lt negative hpos hlt, whole?_shiftLeft]
    · -- the power of two itself takes one bit more, the last of which is zero
      cases negative <;> rfl

/-- So is an integer of such a magnitude. -/
theorem whole?_ofInt {n : Int} (h : n.natAbs ≤ 2 * leadingBit) : (ofInt n).whole? = some n := by
  have hsign : (if decide (n < 0) = true then -(n.natAbs : Int) else n.natAbs) = n := by
    simp only [decide_eq_true_eq]
    omega
  exact (whole?_round (n < 0) h).trans (congrArg some hsign)

end LedgerNode.Binary64
