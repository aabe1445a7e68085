import Toolsmith.Number.Binary64

/-! # The shortest decimal of a binary number

`Binary64.shortest` is the decimal with the fewest digits among those that round to a number; of
several, the one nearest to it, and on a tie the one with an even last digit. The search runs over
ever finer powers of ten and tests the two neighbours of the number on each.
-/

namespace Toolsmith
namespace Binary64

/-- Compare `a * 10 ^ i` with `n * 2 ^ j`. -/
def compareScaled (a : Nat) (i : Int) (n : Nat) (j : Int) : Ordering :=
  compare (a * powerOf 10 i * powerOf 2 (-j)) (n * powerOf 2 j * powerOf 10 (-i))

/-- Whether the gap to the next smaller number is half the gap to the next larger one. -/
def narrowBelow (x : Binary64) : Bool :=
  x.significand = Nat.pow 2 (precision - 1) && minExponent < x.exponent

/-- Whether a decimal rounds to the magnitude of `x`: it lies between the midpoints to the
neighbours, which count when the significand is even. -/
def roundsTo (x : Binary64) (decimal : Decimal) : Bool :=
  let below := if x.narrowBelow then 4 * x.significand - 1 else 4 * x.significand - 2
  let above := 4 * x.significand + 2
  let closed := x.significand % 2 == 0
  let low := compareScaled decimal.digits decimal.exponent below (x.exponent - 2)
  let high := compareScaled decimal.digits decimal.exponent above (x.exponent - 2)
  (low == .gt || (closed && low == .eq)) && (high == .lt || (closed && high == .eq))

/-- The least `k` such that the magnitude of `x` is below `10 ^ k`. -/
def decimalScale (x : Binary64) : Int :=
  digitCount (x.significand * powerOf 2 x.exponent * powerOf 10 decimalLimit /
    powerOf 2 (-x.exponent)) - decimalLimit

/-- The multiple of `10 ^ grid` that rounds to `x` and is nearest to it, if a neighbour does. -/
def onGrid? (x : Binary64) (grid : Int) : Option Decimal :=
  let num := x.significand * powerOf 2 x.exponent * powerOf 10 (-grid)
  let den := powerOf 2 (-x.exponent) * powerOf 10 grid
  let lower : Decimal := ⟨num / den, grid⟩
  let upper : Decimal := ⟨num / den + 1, grid⟩
  match x.roundsTo lower, x.roundsTo upper with
  | true, true => some ⟨roundHalfEven num den, grid⟩
  | true, false => some lower
  | false, true => some upper
  | false, false => none

/-- The exact value of the magnitude of `x`. -/
def exact (x : Binary64) : Decimal :=
  if 0 ≤ x.exponent then ⟨x.significand * powerOf 2 x.exponent, 0⟩
  else ⟨x.significand * powerOf 5 (-x.exponent), x.exponent⟩

/-- Drop at most `fuel` zeros at the end. -/
def dropZeros : Nat → Decimal → Decimal
  | 0, decimal => decimal
  | fuel + 1, decimal =>
    if decimal.digits ≠ 0 ∧ decimal.digits % 10 = 0 then
      dropZeros fuel ⟨decimal.digits / 10, decimal.exponent + 1⟩
    else decimal

/-- As many digits as any number needs. -/
def maxDigits : Nat := 17

/-- The shortest decimal that rounds to the magnitude of `x`. -/
def shortest (x : Binary64) : Decimal :=
  if x.significand = 0 then ⟨0, 0⟩
  else
    let scale := x.decimalScale
    let found := (List.range maxDigits).findSome? fun n : Nat => x.onGrid? (scale - (n + 1))
    let decimal := found.getD x.exact
    dropZeros (digitCount decimal.digits) decimal

end Binary64
end Toolsmith
