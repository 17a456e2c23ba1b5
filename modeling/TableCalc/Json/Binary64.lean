import TableCalc.Text.Digit

/-!
Binary floating-point numbers of 64 bits, as exact arithmetic on whole numbers: rounding a fraction
to the nearest of them, and the shortest decimal digits that round back.
-/

namespace TableCalc.Json

/-- The finite number `significand * 2 ^ exponent`, with its sign, which zero has as well. -/
structure Binary64 where
  negative : Bool
  significand : Nat
  exponent : Int
deriving DecidableEq, Repr

namespace Binary64

def minExponent : Int := -1074

def maxExponent : Int := 971

/-- The least significand of 53 bits. -/
def leastFull : Nat := 4503599627370496

/-- The whole number nearest to `n / d`; a half goes to the even neighbour. -/
def roundHalfEven (n d : Nat) : Nat :=
  let q := n / d
  let r := n % d
  if d < 2 * r || (2 * r == d && q % 2 == 1) then q + 1 else q

/-- The fraction `n / d` divided by `2 ^ e`. -/
def shiftedFraction (n d : Nat) (e : Int) : Nat × Nat :=
  if e < 0 then (n <<< e.natAbs, d) else (n, d <<< e.natAbs)

/-- The exponent at which the fraction `n / d` has a significand of 53 bits, or the least one. -/
def exponentFor (n d : Nat) : Int :=
  let e : Int := (n.log2 : Int) - d.log2 - 52
  let (n', d') := shiftedFraction n d e
  max minExponent (if n' < d' * leastFull then e - 1 else e)

/-- The significand and exponent of the number nearest to `n / d`; nothing if that is too large. -/
def nearest? (n d : Nat) : Option (Nat × Int) :=
  if n == 0 then some (0, 0)
  else
    let e := exponentFor n d
    let (n', d') := shiftedFraction n d e
    let m := roundHalfEven n' d'
    let (m, e) := if m == 2 * leastFull then (leastFull, e + 1) else (m, e)
    if maxExponent < e then none else some (m, e)

def fraction (m : Nat) (e : Int) : Nat × Nat :=
  if e < 0 then (m, 1 <<< e.natAbs) else (m <<< e.natAbs, 1)

/-- The product with `10 ^ power`, both factors and the result rounded. -/
def timesPower? (m : Nat) (e : Int) (power : Nat) : Option (Nat × Int) := do
  let (mp, ep) ← nearest? (Text.tenPow power) 1
  let (n, d) := fraction m e
  let (np, dp) := fraction mp ep
  nearest? (n * np) (d * dp)

/-- The quotient by `10 ^ power`, both operands and the result rounded. -/
def overPower? (m : Nat) (e : Int) (power : Nat) : Option (Nat × Int) := do
  let (mp, ep) ← nearest? (Text.tenPow power) 1
  let (n, d) := fraction m e
  let (np, dp) := fraction mp ep
  nearest? (n * dp) (d * np)

/-- The largest power of ten that is a finite number. -/
def maxPower : Nat := 308

/-- The quotient by `10 ^ power`, in steps of the largest power of ten. -/
def overLargePower? (m : Nat) (e : Int) (power : Nat) : Option (Nat × Int) :=
  if power ≤ maxPower then overPower? m e power
  else if m == 0 then some (m, e)
  else do
    let (m, e) ← overPower? m e maxPower
    overLargePower? m e (power - maxPower)
termination_by power
decreasing_by simp only [maxPower] at *; omega

/-- The number `digits * 10 ^ power`, rounded after each step; nothing if it is too large. -/
def ofDigits? (negative : Bool) (digits : Nat) (power : Int) : Option Binary64 := do
  let (m, e) ← nearest? digits 1
  let (m, e) ←
    if power < 0 then overLargePower? m e power.natAbs
    else if power ≤ maxPower then timesPower? m e power.natAbs
    else if m == 0 then some (m, e)
    else none
  return ⟨negative, m, e⟩

/-- `n / d` as a multiple of `10 ^ place`, rounded down. -/
def atPlace (n d : Nat) (place : Int) : Nat :=
  if place < 0 then n * Text.tenPow place.natAbs / d else n / (d * Text.tenPow place.natAbs)

/-- The fraction `c * 10 ^ place`. -/
def decimalFraction (c : Nat) (place : Int) : Nat × Nat :=
  if place < 0 then (c, Text.tenPow place.natAbs) else (c * Text.tenPow place.natAbs, 1)

/-- The distance of `c * 10 ^ place` from `n / d`, as a numerator over a denominator that depends on
`d` and `place` only. -/
def distance (n d : Nat) (place : Int) (c : Nat) : Nat :=
  let (cn, cd) := decimalFraction c place
  (max (n * cd) (cn * d)) - (min (n * cd) (cn * d))

/-- The multiples of `10 ^ place` beside a number that round back to it, the nearer one first. -/
def neighbours (m : Nat) (e place : Int) : List Nat :=
  let (n, d) := fraction m e
  let low := atPlace n d place
  let ordered :=
    if distance n d place (low + 1) < distance n d place low then [low + 1, low] else [low, low + 1]
  ordered.filter fun c =>
    let (cn, cd) := decimalFraction c place
    nearest? cn cd == some (m, e)

/-- The place above the leading decimal digit of `n / d`, or one more. -/
def decimalTop (n d : Nat) : Int :=
  ((Nat.toDigits 10 n).length : Int) - (Nat.toDigits 10 d).length + 1

/-- The fewest decimal digits that round back to a positive number, and the place of the last of
them. Nineteen places below the top are always enough. -/
def shortest (m : Nat) (e : Int) : Nat × Int :=
  let (n, d) := fraction m e
  let places := (List.range 20).map fun i : Nat => decimalTop n d - i
  (places.findSome? fun place => (neighbours m e place).head?.map fun c => (c, place)).getD (0, 0)

/-- Drops the trailing zeros of a number of digits. -/
def dropZeros (c : Nat) (place : Int) : Nat × Int :=
  if c ≠ 0 ∧ c % 10 = 0 then dropZeros (c / 10) (place + 1) else (c, place)
termination_by c
decreasing_by omega

/-- The decimal text of the digits `c` at `place`: positional for numbers below 10 ^ 16 that are not
too small, with an exponent otherwise, and always with a point or an exponent. -/
def digitText (c : Nat) (place : Int) : List Char :=
  let digits := Nat.toDigits 10 c
  let top : Int := digits.length + place
  if 0 ≤ place && top ≤ 16 then digits ++ List.replicate place.natAbs '0' ++ ['.', '0']
  else if 0 < top && top ≤ 16 then
    digits.take top.natAbs ++ '.' :: digits.drop top.natAbs
  else if -5 < top && top ≤ 0 then '0' :: '.' :: List.replicate top.natAbs '0' ++ digits
  else
    let exponent := top - 1
    digits.take 1 ++ (if digits.length = 1 then [] else '.' :: digits.drop 1) ++
      'e' :: (if exponent < 0 then ['-'] else []) ++ Nat.toDigits 10 exponent.natAbs

/-- The shortest decimal text that reads back as the number. -/
def chars (x : Binary64) : List Char :=
  let unsigned :=
    if x.significand == 0 then ['0', '.', '0']
    else
      let (c, place) := shortest x.significand x.exponent
      let (c, place) := dropZeros c place
      digitText c place
  if x.negative then '-' :: unsigned else unsigned

end Binary64

end TableCalc.Json
