/-! # Binary floating-point numbers

The finite numbers of the 64-bit binary format, as integers: a sign, a significand below `2 ^ 53`
and a power of two. `Binary64.nearest?` rounds a decimal to the nearest of them, ties to the even
significand, by exact arithmetic.
-/

namespace Toolsmith

/-- A decimal number `digits * 10 ^ exponent`. -/
structure Decimal where
  digits : Nat
  exponent : Int
deriving DecidableEq, Repr, Inhabited

/-- The number of decimal digits of a number; zero has one. -/
def digitCount (n : Nat) : Nat := (Nat.toDigits 10 n).length

/-- The power of a base, one for a negative exponent. -/
def powerOf (base : Nat) (exponent : Int) : Nat := base.pow exponent.toNat

/-- A quotient rounded to the nearest integer, a half to the even one. -/
def roundHalfEven (num den : Nat) : Nat :=
  let quotient := num / den
  let twice := 2 * (num % den)
  if twice < den then quotient
  else if den < twice then quotient + 1
  else quotient + quotient % 2

/-- A finite number `± significand * 2 ^ exponent`. Zero keeps its sign. -/
structure Binary64 where
  negative : Bool
  significand : Nat
  exponent : Int
deriving DecidableEq, Repr, Inhabited

namespace Binary64

/-- The exponent of the smallest numbers. -/
def minExponent : Int := -1074

/-- The exponent of the largest numbers. -/
def maxExponent : Int := 971

/-- The number of bits of a significand. -/
def precision : Nat := 53

/-- Zero with a sign. -/
def zero (negative : Bool) : Binary64 := ⟨negative, 0, minExponent⟩

/-- The largest `l` with `2 ^ l * den ≤ num`, for positive numbers. -/
def floorLog2 (num den : Nat) : Int :=
  let guess : Int := (num.log2 : Int) - den.log2
  if den * powerOf 2 guess ≤ num * powerOf 2 (-guess) then guess else guess - 1

/-- The number nearest to a positive quotient, or nothing when that is too large. -/
def ofQuotient? (negative : Bool) (num den : Nat) : Option Binary64 :=
  let exponent := max (floorLog2 num den - (precision - 1 : Int)) minExponent
  let significand := roundHalfEven (num * powerOf 2 (-exponent)) (den * powerOf 2 exponent)
  let (significand, exponent) :=
    if significand = Nat.pow 2 precision then (Nat.pow 2 (precision - 1), exponent + 1)
    else (significand, exponent)
  if maxExponent < exponent then none else some ⟨negative, significand, exponent⟩

/-- Beyond this power of ten every number is too large, or too small to differ from zero. -/
def decimalLimit : Int := 400

/-- The number nearest to a decimal, or nothing when that is too large. -/
def nearest? (negative : Bool) (decimal : Decimal) : Option Binary64 :=
  if decimal.digits = 0 then some (zero negative)
  else if decimalLimit < decimal.exponent then none
  else if decimal.exponent + digitCount decimal.digits < -decimalLimit then some (zero negative)
  else
    ofQuotient? negative (decimal.digits * powerOf 10 decimal.exponent)
      (powerOf 10 (-decimal.exponent))

end Binary64

end Toolsmith
