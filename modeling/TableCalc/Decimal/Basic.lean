import TableCalc.Text.Digit

/-!
Exact decimal numbers. A decimal is `significand * 10 ^ exponent` with no factor ten left in the
significand, so each number has one representation and equality is equality of the fields.
-/

namespace TableCalc

/-- The number `significand * 10 ^ exponent`, in the one form without trailing zeros. -/
structure Decimal where
  significand : Int
  exponent : Int
  reduced : significand % 10 ≠ 0 ∨ significand = 0 ∧ exponent = 0
deriving DecidableEq, Repr

namespace Decimal

/-- The decimal `s * 10 ^ e`: the factors ten of `s` move into the exponent. -/
def scaled (s e : Int) : Decimal :=
  if hzero : s = 0 then ⟨0, 0, .inr ⟨rfl, rfl⟩⟩
  else if hten : s % 10 = 0 then scaled (s / 10) (e + 1)
  else ⟨s, e, .inl hten⟩
termination_by s.natAbs
decreasing_by omega

def ofInt (n : Int) : Decimal := scaled n 0

instance : Zero Decimal := ⟨⟨0, 0, .inr ⟨rfl, rfl⟩⟩⟩

instance : Inhabited Decimal := ⟨0⟩

def neg (x : Decimal) : Decimal :=
  ⟨-x.significand, x.exponent, by have := x.reduced; omega⟩

instance : Neg Decimal := ⟨neg⟩

/-- Whether a decimal is zero. -/
def isZero (x : Decimal) : Bool := x.significand == 0

/-- Whether a decimal is below zero. -/
def isNegative (x : Decimal) : Bool := x.significand < 0

/-- Whether a decimal is a whole number. No trailing zeros stand in the significand, so this is
seen from the exponent. -/
def isInteger (x : Decimal) : Bool := 0 ≤ x.exponent

/-- The number of decimal digits of a natural number; zero has one. -/
def digitCount (n : Nat) : Nat := (Nat.toDigits 10 n).length

def precision (x : Decimal) : Nat := digitCount x.significand.natAbs

/-- The place above the leading digit: the number is below `10 ^ top` in absolute value. -/
def top (x : Decimal) : Int := x.exponent + x.precision

/-- The significand that a decimal has at a lower exponent `e`. -/
def significandAt (x : Decimal) (e : Int) : Int :=
  x.significand * Text.tenPow (x.exponent - e).toNat

/-- The exact order of decimals. -/
protected def compare (x y : Decimal) : Ordering :=
  let e := min x.exponent y.exponent
  compare (x.significandAt e) (y.significandAt e)

instance : Ord Decimal := ⟨Decimal.compare⟩

/-- What can go wrong with numbers. -/
inductive Fault where
  | malformed (text : String)
  | divisionByZero
  | tooLarge
deriving DecidableEq, Repr

def Fault.message : Fault → String
  | .malformed text => "Invalid number format: " ++ text
  | .divisionByZero => "Division by zero"
  | .tooLarge => "Overflow: result too large"

end Decimal

end TableCalc
