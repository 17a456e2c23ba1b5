import TableCalc.Decimal.Arithmetic
import TableCalc.Text.Basic

/-!
Reading decimal text: an optional sign, digits with an optional point among them, and an optional
exponent.
-/

namespace TableCalc.Decimal

/-- The largest exponent that may be written. Numbers are written out positionally, so it bounds the
size of their text. -/
def maxExponent : Nat := 1000

/-- The digits of an unsigned number with an optional point, as a whole number, and how many of them
stand after the point. -/
def readMantissa? (cs : List Char) : Option (Nat × Nat) :=
  let whole := cs.takeWhile (· != '.')
  let fraction := (cs.dropWhile (· != '.')).drop 1
  (Text.natural? (whole ++ fraction)).map fun n => (n, fraction.length)

/-- The exponent in what stands from the letter `e` on; nothing stands for zero. -/
def readExponent? : List Char → Option Int
  | [] => some 0
  | _ :: cs => (Text.integer? cs).filter Text.isInt64

def isExponentMark (c : Char) : Bool := c == 'e' || c == 'E'

/-- The number that a text denotes, rounded to the working precision. An exponent out of bounds is
reported before the digits are looked at. -/
def read (s : String) : Except Fault Decimal :=
  let text := Text.trim s.toList
  let (negative, unsigned) := Text.splitSign text
  match readExponent? (unsigned.dropWhile (!isExponentMark ·)) with
  | none => .error (.malformed (.ofList text))
  | some exponent =>
      if maxExponent < exponent.natAbs then .error .tooLarge
      else
        match readMantissa? (unsigned.takeWhile (!isExponentMark ·)) with
        | none => .error (.malformed (.ofList text))
        | some (digits, places) =>
            let significand : Int := if negative then -digits else digits
            .ok ((scaled significand (exponent - places)).roundToDigits workingDigits)

end TableCalc.Decimal
