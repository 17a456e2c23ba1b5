import TableCalc.Decimal.Basic

/-!
Rounding to the nearest number of a decimal grid. A number half way between two goes to the one
farther from zero.
-/

namespace TableCalc.Decimal

/-- The whole number nearest to `n / d`; a half goes up. -/
def roundDiv (n d : Nat) : Nat := (2 * n + d) / (2 * d)

/-- The whole number nearest to `n / d`; a half goes away from zero. -/
def roundQuotient (n d : Int) : Int := n.sign * d.sign * roundDiv n.natAbs d.natAbs

/-- The nearest multiple of `10 ^ place`. -/
def roundToPlace (x : Decimal) (place : Int) : Decimal :=
  let dropped := (place - x.exponent).toNat
  scaled (roundQuotient x.significand (Text.tenPow dropped)) (x.exponent + dropped)

/-- The nearest number with `digits` significant digits. -/
def roundToDigits (x : Decimal) (digits : Nat) : Decimal := x.roundToPlace (x.top - digits)

/-- The greatest whole number that is not above a decimal. -/
def floor (x : Decimal) : Decimal :=
  if x.isInteger then x else ofInt (x.significand / Text.tenPow (-x.exponent).toNat)

/-- The least whole number that is not below a decimal. -/
def ceil (x : Decimal) : Decimal := -(-x).floor

/-- The whole part of a decimal, the fraction dropped. -/
def trunc (x : Decimal) : Decimal := if x.isNegative then x.ceil else x.floor

def toInt? (x : Decimal) : Option Int :=
  if x.isInteger then some (x.significand * Text.tenPow x.exponent.toNat) else none

/-- The greatest exponent of a power of ten that fits a signed word of 64 bits. -/
def maxInt64Exponent : Int := 18

/-- A whole decimal as an integer, if it fits 64 bits. The significand and the power of ten have to
fit on their own. -/
def toInt64? (x : Decimal) : Option Int :=
  if Text.isInt64 x.significand && x.exponent ≤ maxInt64Exponent then
    x.toInt?.filter Text.isInt64
  else none

end TableCalc.Decimal
