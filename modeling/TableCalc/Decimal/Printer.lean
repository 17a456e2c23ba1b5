import TableCalc.Decimal.Basic

/-!
Decimal text. A number is written positionally, never with an exponent, and rounded on its digits.
-/

namespace TableCalc.Decimal

/-- The digits of a number before its point and those behind it. -/
structure Parts where
  whole : List Char
  fraction : List Char

/-- Digits of which the last `places` stand behind the point. -/
def Parts.split (digits : List Char) (places : Nat) : Parts :=
  ⟨digits.take (digits.length - places), digits.drop (digits.length - places)⟩

/-- The number of fraction digits that write a decimal exactly. -/
def places (x : Decimal) : Nat := (-x.exponent).toNat

/-- The digits of a decimal, its sign left out. -/
def parts (x : Decimal) : Parts :=
  let digits := Nat.toDigits 10 x.significand.natAbs
  if 0 ≤ x.exponent then ⟨digits ++ List.replicate x.exponent.toNat '0', []⟩
  else if x.places < digits.length then .split digits x.places
  else ⟨['0'], List.replicate (x.places - digits.length) '0' ++ digits⟩

/-- Digits without the zeros in front; a single zero if nothing else is left. -/
def trimWhole (digits : List Char) : List Char :=
  match digits.dropWhile (· == '0') with
  | [] => ['0']
  | trimmed => trimmed

/-- Digits without the zeros at their end. -/
def trimFraction (digits : List Char) : List Char :=
  (digits.reverse.dropWhile (· == '0')).reverse

/-- The shortest exact text of a decimal. -/
def canonicalChars (x : Decimal) : List Char :=
  let whole := trimWhole x.parts.whole
  let fraction := trimFraction x.parts.fraction
  (if x.isNegative && !(whole == ['0'] && fraction.isEmpty) then ['-'] else []) ++ whole ++
    (if fraction.isEmpty then [] else '.' :: fraction)

/-- The shortest exact text of a decimal. -/
def canonical (x : Decimal) : String := .ofList x.canonicalChars

/-- The digits of a decimal with `places` of them behind the point: those after them are cut off,
those that lack are zeros. -/
def cutDigits (x : Decimal) (places : Nat) : List Char :=
  let fraction := x.parts.fraction
  x.parts.whole ++ (fraction.take places ++ List.replicate (places - fraction.length) '0')

/-- Whether the first digit that is cut off is five or more. -/
def roundsUp (x : Decimal) (places : Nat) : Bool := x.parts.fraction[places]?.any ('5' ≤ ·)

/-- One more than a number that is given by its digits, the last one first. A nine becomes a zero
and carries; a carry out of the first digit puts a one in front. -/
def increment : List Char → List Char
  | [] => ['1']
  | digit :: rest =>
    if digit = '9' then '0' :: increment rest else Char.ofNat (digit.toNat + 1) :: rest

/-- The digits of a decimal rounded to `places` digits behind the point. -/
def roundedDigits (x : Decimal) (places : Nat) : List Char :=
  if x.roundsUp places then (increment (x.cutDigits places).reverse).reverse
  else x.cutDigits places

/-- The text with exactly `places` fraction digits, rounded. The sign is that of the rounded
number. -/
def fixed (x : Decimal) (places : Nat) : String :=
  let digits := x.roundedDigits places
  let parts := Parts.split digits places
  .ofList ((if x.isNegative && digits.any (· != '0') then ['-'] else []) ++ trimWhole parts.whole ++
    (if places = 0 then [] else '.' :: parts.fraction))

instance : ToString Decimal := ⟨canonical⟩

end TableCalc.Decimal
