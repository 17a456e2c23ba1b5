/-!
Whole numbers written in ASCII digits.
-/

namespace TableCalc.Text

/-- The value of a non-empty text of digits. -/
def natural? (cs : List Char) : Option Nat :=
  if !cs.isEmpty && cs.all Char.isDigit then some (Nat.ofDigitChars 10 cs 0) else none

/-- An optional sign and what follows it. The first part says whether the sign is a minus. -/
def splitSign : List Char → Bool × List Char
  | '-' :: rest => (true, rest)
  | '+' :: rest => (false, rest)
  | cs => (false, cs)

/-- The value of a non-empty text of digits after an optional sign. -/
def integer? (cs : List Char) : Option Int :=
  let (negative, unsigned) := splitSign cs
  (natural? unsigned).map fun n => if negative then -(n : Int) else n

/-- The digits of a number, with zeros in front up to `width` characters. -/
def paddedDigits (width n : Nat) : List Char := (Nat.toDigits 10 n).leftpad width '0'

/-- The power of ten with the exponent `n`. -/
def tenPow (n : Nat) : Nat := Nat.pow 10 n

/-- The least signed word of 64 bits. -/
def minInt64 : Int := -9223372036854775808

/-- The greatest signed word of 64 bits. -/
def maxInt64 : Int := 9223372036854775807

/-- The greatest unsigned word of 64 bits. -/
def maxWord : Nat := 18446744073709551615

/-- The greatest unsigned word of 32 bits. -/
def maxHalfWord : Nat := 4294967295

/-- Whether a number fits a signed word of 64 bits. -/
def isInt64 (n : Int) : Bool := minInt64 ≤ n && n ≤ maxInt64

/-- The signed word of 64 bits that is nearest to a number. -/
def clampInt64 (n : Int) : Int := max minInt64 (min n maxInt64)

end TableCalc.Text
