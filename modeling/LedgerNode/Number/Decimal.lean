import LedgerNode.Number.Binary64
import LedgerNode.Text.Numeral

/-!
# Decimal text of floating-point numbers

A decimal that rounds to a floating-point number reads back as it. The shortest such decimal lies
on the coarsest grid of multiples of a power of ten that has a point in the interval of reals that
round to the number; of two such points the one nearer to the number is taken, and of two equally
near ones the one with an even last digit.

- `Decimal`: `digits * 10 ^ exponent`.
- `Binary64.shortest`: the shortest decimal of a positive number.
- `Decimal.positional`, `Decimal.scientific`: its two spellings.
- `Binary64.toDecimalText`: a number in a given style.
-/

namespace LedgerNode

/-- A decimal number: `digits * 10 ^ exponent`. -/
structure Decimal where
  /-- The significant digits, read as one number. -/
  digits : Nat
  /-- The power of ten that they count. -/
  exponent : Int
deriving DecidableEq, Repr

namespace Decimal

/-- The power of ten of the first digit. -/
def magnitude (d : Decimal) : Int :=
  d.exponent + (Nat.toDigits 10 d.digits).length - 1

/-- The digits with a decimal point and zeros where they are needed, and no exponent. -/
def positional (d : Decimal) : String :=
  let digits := Nat.toDigits 10 d.digits
  if 0 ≤ d.exponent then
    String.ofList (digits ++ List.replicate d.exponent.toNat '0')
  else
    let places := (-d.exponent).toNat
    let padded := List.replicate (places + 1 - digits.length) '0' ++ digits
    String.ofList
      (padded.take (padded.length - places) ++ '.' :: padded.drop (padded.length - places))

/-- One digit, the others behind a point, and the signed power of ten behind `e`. -/
def scientific (d : Decimal) : String :=
  let power := d.magnitude
  let sign := if power < 0 then "-" else "+"
  let mantissa := match Nat.toDigits 10 d.digits with
    | first :: second :: rest => first :: '.' :: second :: rest
    | digits => digits
  String.ofList mantissa ++ "e" ++ sign ++ Text.numeral power.natAbs

end Decimal

/-- How floating-point numbers are written. -/
structure DecimalStyle where
  /-- The powers of ten of the first digit for which no exponent is written. -/
  isPositional : Int → Bool

namespace Binary64

/-- The reals that round to a positive number, in quarters of its last place: the ends, and whether
they belong to it. -/
structure RoundingInterval where
  low : Nat
  high : Nat
  closed : Bool

/-- The reals that round to a positive number. -/
def roundingInterval (x : Binary64) : RoundingInterval where
  low :=
    if x.significand = leadingBit ∧ minExponent < x.exponent then 4 * x.significand - 1
    else 4 * x.significand - 2
  high := 4 * x.significand + 2
  closed := x.significand % 2 = 0

/-- Whether `num / den` quarters of a last place lie in an interval. -/
def RoundingInterval.contains (i : RoundingInterval) (num den : Nat) : Bool :=
  if i.closed then i.low * den ≤ num && num ≤ i.high * den
  else i.low * den < num && num < i.high * den

/-- The points of the grid of multiples of `10 ^ exponent` around a positive number that round to
it, the better one if there are two. -/
def onGrid? (x : Binary64) (exponent : Int) : Option Nat :=
  -- `unit / den` is one grid step in quarters of the last place of `x`
  let unit := Nat.pow 10 exponent.toNat <<< (2 - x.exponent).toNat
  let den := Nat.pow 10 (-exponent).toNat <<< (x.exponent - 2).toNat
  let target := 4 * x.significand * den
  let below := target / unit
  let above := below + 1
  let interval := x.roundingInterval
  let useBelow := 0 < below && interval.contains (below * unit) den
  let useAbove := interval.contains (above * unit) den
  if useBelow && useAbove then
    let down := target - below * unit
    let up := above * unit - target
    if down < up then some below
    else if up < down then some above
    else some (if below % 2 = 0 then below else above)
  else if useBelow then some below
  else if useAbove then some above
  else none

/-- The first of `steps` grids, each ten times finer than the one before, with a point that rounds
to the number. -/
def searchGrids (x : Binary64) : (steps : Nat) → (exponent : Int) → Decimal
  | 0, exponent => ⟨0, exponent⟩
  | steps + 1, exponent =>
    match x.onGrid? exponent with
    | some digits => ⟨digits, exponent⟩
    | none => x.searchGrids steps (exponent - 1)

/-- A power of ten above a positive number. -/
def powerAbove (x : Binary64) : Int :=
  Int.fdiv ((x.exponent + x.significand.log2) * 30103) 100000 + 2

/-- The shortest decimal that rounds to a positive number. Seventeen digits always suffice, and the
search starts at most three grids above the first digit. -/
def shortest (x : Binary64) : Decimal :=
  x.searchGrids 20 x.powerAbove

/-- A decimal numeral with at least one place behind the point. -/
def withPoint (s : String) : String :=
  if s.contains '.' then s else s ++ ".0"

/-- A number in a given style. -/
def toDecimalText (style : DecimalStyle) (x : Binary64) : String :=
  let sign := if x.negative then "-" else ""
  let d := if x.significand = 0 then ⟨0, 0⟩ else x.shortest
  if style.isPositional d.magnitude then sign ++ withPoint d.positional
  else sign ++ d.scientific

end Binary64

end LedgerNode
