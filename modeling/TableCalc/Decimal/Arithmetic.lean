import TableCalc.Decimal.Rounding

/-!
Arithmetic at a working precision of fifty significant digits. Sums of numbers of unlike sign and
quotients may keep one digit more.
-/

namespace TableCalc.Decimal

/-- The significant digits that results are rounded to. -/
def workingDigits : Nat := 50

/-- The significant digits of a quotient where nothing else is asked for. -/
def defaultQuotientDigits : Nat := 20

/-- The sum, not rounded. -/
def exactAdd (x y : Decimal) : Decimal :=
  let e := min x.exponent y.exponent
  scaled (x.significandAt e + y.significandAt e) e

/-- Whether two numbers have the same sign, zero counting as negative. -/
def sameSign (x y : Decimal) : Bool := decide (0 < x.significand) == decide (0 < y.significand)

/-- The sum. Numbers of one sign or of one exponent are added and rounded to the working precision.
Otherwise the sum keeps one digit more, and if the number of lower exponent lies far below the other
one, the digits are counted from the top of that other one, not from the top of the sum. -/
def add (x y : Decimal) : Decimal :=
  if x.isZero then y
  else if y.isZero then x
  else
    let sum := exactAdd x y
    if x.exponent == y.exponent || sameSign x y then sum.roundToDigits workingDigits
    else
      let (coarse, fine) := if y.exponent < x.exponent then (x, y) else (y, x)
      if coarse.top ≤ fine.top + workingDigits then sum.roundToDigits (workingDigits + 1)
      else sum.roundToPlace (coarse.top - (workingDigits + 1))

instance : Add Decimal := ⟨add⟩

instance : Sub Decimal := ⟨fun x y => x + -y⟩

/-- The product, not rounded. -/
def exactMul (x y : Decimal) : Decimal :=
  scaled (x.significand * y.significand) (x.exponent + y.exponent)

instance : Mul Decimal := ⟨fun x y => (exactMul x y).roundToDigits workingDigits⟩

/-- How many zeros the dividend `n` gets before it is divided by `d`: none if the division comes
out even, else as many as give the quotient at least the working precision. -/
def dividendZeros (n d : Nat) : Nat :=
  if n % d == 0 then 0
  else if n < d then digitCount d + workingDigits - digitCount n
  else workingDigits - digitCount (n / d)

/-- The quotient by a number other than zero, with the working precision or one digit more. -/
def quotient (x y : Decimal) : Decimal :=
  let zeros := dividendZeros x.significand.natAbs y.significand.natAbs
  scaled (roundQuotient (x.significand * Text.tenPow zeros) y.significand)
    (x.exponent - y.exponent - zeros)

/-- The quotient, if the divisor is not zero. -/
def divide (x y : Decimal) : Except Fault Decimal :=
  if y.isZero then .error .divisionByZero else .ok (quotient x y)

/-- The quotient with at least one and at most `digits` significant digits. A quotient that is asked
for at the working precision stays as `divide` gives it. -/
def divideTo (digits : Nat) (x y : Decimal) : Except Fault Decimal := do
  let q ← divide x y
  if digits == workingDigits then return q
  return q.roundToDigits (min (max digits 1) workingDigits)

/-- The sum of a list, added from the left. -/
def total (xs : List Decimal) : Decimal := xs.foldl (· + ·) 0

end TableCalc.Decimal
