import Toolsmith.Number.Binary64

/-! # Estimating a decimal

`Binary64.estimate?` comes close to a decimal by computing with binary numbers: its digits and the
power of ten are rounded first, and their product or quotient is rounded again. The result is the
nearest number when digits and power are binary numbers themselves; otherwise it may be one beside
it.
-/

namespace Toolsmith
namespace Binary64

/-- The numerator of the magnitude, over `denominator`. -/
def numerator (x : Binary64) : Nat := x.significand * powerOf 2 x.exponent

def denominator (x : Binary64) : Nat := powerOf 2 (-x.exponent)

/-- The number nearest to a quotient, or nothing when that is too large. -/
def round? (negative : Bool) (num den : Nat) : Option Binary64 :=
  if num = 0 then some (zero negative) else ofQuotient? negative num den

/-- The product of two numbers, rounded. -/
def times? (x y : Binary64) : Option Binary64 :=
  round? (x.negative ^^ y.negative) (x.numerator * y.numerator) (x.denominator * y.denominator)

/-- The quotient of two numbers, of which the second is not zero, rounded. -/
def over? (x y : Binary64) : Option Binary64 :=
  round? (x.negative ^^ y.negative) (x.numerator * y.denominator) (x.denominator * y.numerator)

/-- The largest power of ten that is not too large. -/
def largestPower : Nat := 308

/-- The number nearest to a power of ten. -/
def tenTo? (power : Nat) : Option Binary64 := nearest? false ⟨1, power⟩

/-- A number divided by the largest power of ten as often as given, unless nothing is left of it
before, and then by another power of ten. -/
def reduced? (power : Nat) : Nat → Binary64 → Option Binary64
  | 0, x => do x.over? (← tenTo? power)
  | rounds + 1, x =>
    if x.significand = 0 then some x
    else do reduced? power rounds (← x.over? (← tenTo? largestPower))

/-- A number times a power of ten, rounded. Where the power is too large, only zero has a
product. -/
def scaled? (x : Binary64) (power : Int) : Option Binary64 :=
  if 0 ≤ power then
    if power ≤ largestPower then do x.times? (← tenTo? power.toNat)
    else if x.significand = 0 then some x
    else none
  else
    let rounds := ((-power).toNat - 1) / largestPower
    reduced? ((-power).toNat - largestPower * rounds) rounds x

/-- A number close to a decimal, or nothing when that is too large. -/
def estimate? (negative : Bool) (decimal : Decimal) : Option Binary64 := do
  let digits ← nearest? false ⟨decimal.digits, 0⟩
  let found ← digits.scaled? decimal.exponent
  return { found with negative }

end Binary64
end Toolsmith
