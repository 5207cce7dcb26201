/-!
# Binary floating-point numbers

The finite numbers of the IEEE 754 format of 64 bits, held as an exact sign, significand and power
of two. Arithmetic is exact on numerators and denominators and rounds once, to the nearest number
and from halfway to the even significand.

- `Binary64`: `± significand * 2 ^ exponent`.
- `Binary64.ofInt`: the nearest number to an integer.
- `Binary64.ofRatio?`: the nearest number to a quotient, unless that lies beyond the format.
- `Binary64.whole?`: the integer that a number is, if it is one.
-/

namespace LedgerNode

/-- A finite floating-point number: `± significand * 2 ^ exponent`. -/
structure Binary64 where
  /-- Whether the sign is minus; zero has a sign too. -/
  negative : Bool
  /-- A whole number below `2 ^ 53`. -/
  significand : Nat
  /-- The power of two that the significand counts. -/
  exponent : Int
deriving DecidableEq, Repr

namespace Binary64

/-- The least exponent of the format. -/
def minExponent : Int := -1074

/-- The greatest exponent of a number whose significand has all 53 bits. -/
def maxExponent : Int := 971

/-- The first of the 53 bits of a significand, `2 ^ 52`. -/
def leadingBit : Nat := 0x10000000000000

/-- Zero with a sign. -/
def zero (negative : Bool) : Binary64 := ⟨negative, 0, minExponent⟩

instance : Inhabited Binary64 := ⟨zero false⟩

/-- The whole number nearest to a quotient; from halfway, the even one. -/
def roundQuotient (num den : Nat) : Nat :=
  let q := num / den
  let twice := 2 * (num % den)
  if twice < den then q
  else if den < twice then q + 1
  else if q % 2 = 0 then q
  else q + 1

/-- A quotient without remainder needs no rounding. -/
theorem roundQuotient_mul (q : Nat) {den : Nat} (h : 0 < den) :
    roundQuotient (q * den) den = q := by
  simp [roundQuotient, Nat.mul_div_cancel _ h, h]

/-- The quotient `num / den` counted in units of `2 ^ exponent`, as numerator and denominator. -/
def scale (num den : Nat) (exponent : Int) : Nat × Nat :=
  (num <<< (-exponent).toNat, den <<< exponent.toNat)

/-- The exponent at which a positive quotient has 53 bits before the point, or the least one. -/
def exponentOf (num den : Nat) : Int :=
  let guess : Int := max (num.log2 - den.log2 - 52) minExponent
  let scaled := scale num den guess
  if scaled.1 / scaled.2 < leadingBit ∧ minExponent < guess then guess - 1 else guess

/-- A significand of 53 bits or one more, brought below `2 ^ 53`. -/
def carry (negative : Bool) (significand : Nat) (exponent : Int) : Binary64 :=
  if significand = 2 * leadingBit then ⟨negative, leadingBit, exponent + 1⟩
  else ⟨negative, significand, exponent⟩

/-- The nearest number to `num / den` with the given sign, as if exponents had no upper end. -/
def round (negative : Bool) (num den : Nat) : Binary64 :=
  if num = 0 then zero negative
  else
    let exponent := exponentOf num den
    let scaled := scale num den exponent
    carry negative (roundQuotient scaled.1 scaled.2) exponent

/-- The nearest number to `num / den` with the given sign, or nothing beyond the greatest number. -/
def ofRatio? (negative : Bool) (num den : Nat) : Option Binary64 :=
  let x := round negative num den
  if maxExponent < x.exponent then none else some x

/-- The nearest number to an integer. -/
def ofInt (n : Int) : Binary64 :=
  round (n < 0) n.natAbs 1

/-- The magnitude of a number as a numerator and a denominator. -/
def magnitude (x : Binary64) : Nat × Nat :=
  (x.significand <<< x.exponent.toNat, 1 <<< (-x.exponent).toNat)

/-- The integer with the sign of `x` and the given magnitude. -/
def signed (x : Binary64) (n : Nat) : Int :=
  if x.negative then -(n : Int) else n

/-- The integer that a number is, if it is one. -/
def whole? (x : Binary64) : Option Int :=
  let (num, den) := x.magnitude
  if num % den = 0 then some (x.signed (num / den)) else none

end Binary64

end LedgerNode
