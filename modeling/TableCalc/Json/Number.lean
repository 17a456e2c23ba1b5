import TableCalc.Json.Basic
import TableCalc.Text.Digit
import TableCalc.Text.Rest

/-!
Reading JSON numbers. Whole numbers that fit 64 bits stay exact. Of other numbers as many leading
digits are used as fit an unsigned word of 64 bits; they are then scaled by the power of ten.
-/

namespace TableCalc.Json

open Text (Rest Remaining)

structure Numeral where
  negative : Bool
  whole : List Char
  fraction : Option (List Char)
  exponent : Option (Bool × List Char)
deriving DecidableEq, Repr

/-- Reads the digits before the point: a lone zero, or digits that do not start with zero. -/
def wholeDigits? (cs : List Char) : Option (List Char × Rest cs) := do
  let (digits, rest) ← Text.some? Char.isDigit cs
  if digits.head? == some '0' && digits != ['0'] then none else return (digits, rest)

/-- Reads a point and digits, if there is a point. -/
def fractionDigits? (cs : List Char) : Option (Option (List Char) × Remaining cs) :=
  match Text.char? '.' cs with
  | none => some (none, Text.unread cs)
  | some ⟨afterPoint, hpoint⟩ => do
      let (digits, ⟨rest, hrest⟩) ← Text.some? Char.isDigit afterPoint
      return (some digits, ⟨rest, Text.le_of_lt_lt hpoint hrest⟩)

/-- Reads an exponent with its sign, if there is one. -/
def exponentDigits? (cs : List Char) : Option (Option (Bool × List Char) × Remaining cs) :=
  match Text.one? (fun c => c == 'e' || c == 'E') cs with
  | none => some (none, Text.unread cs)
  | some (_, ⟨afterMark, hmark⟩) =>
      match Text.one? (fun c => c == '+' || c == '-') afterMark with
      | none => do
          let (digits, ⟨rest, hrest⟩) ← Text.some? Char.isDigit afterMark
          return (some (false, digits), ⟨rest, Text.le_of_lt_lt hmark hrest⟩)
      | some (sign, ⟨afterSign, hsign⟩) => do
          let (digits, ⟨rest, hrest⟩) ← Text.some? Char.isDigit afterSign
          have h := Text.lt_of_lt_lt hmark hsign
          return (some (sign == '-', digits), ⟨rest, Text.le_of_lt_lt h hrest⟩)

/-- Reads a number that starts with a digit. -/
def unsigned? (negative : Bool) (cs : List Char) : Option (Numeral × Rest cs) := do
  let (whole, ⟨afterWhole, hwhole⟩) ← wholeDigits? cs
  let (fraction, ⟨afterFraction, hfraction⟩) ← fractionDigits? afterWhole
  let (exponent, ⟨rest, hrest⟩) ← exponentDigits? afterFraction
  have h := Text.lt_of_lt_le hwhole hfraction
  return (⟨negative, whole, fraction, exponent⟩, ⟨rest, Text.lt_of_lt_le h hrest⟩)

def numeral? (cs : List Char) : Option (Numeral × Rest cs) :=
  match Text.char? '-' cs with
  | none => unsigned? false cs
  | some ⟨afterSign, hsign⟩ => do
      let (numeral, ⟨rest, hrest⟩) ← unsigned? true afterSign
      return (numeral, ⟨rest, Text.lt_of_lt_lt hsign hrest⟩)

/-- Appends digits to a number as long as it fits an unsigned word of 64 bits, and counts them. -/
def appendDigits (n : Nat) : List Char → Nat × Nat
  | [] => (n, 0)
  | c :: cs =>
      let next := 10 * n + (c.toNat - '0'.toNat)
      if Text.maxWord < next then (n, 0)
      else
        let (result, count) := appendDigits next cs
        (result, count + 1)

/-- The largest exponent that is told apart from larger ones. -/
def maxWrittenExponent : Nat := 2147483647

/-- A number that is not a whole number of 64 bits; nothing if it is too large. -/
def Numeral.float? (x : Numeral) : Option Binary64 :=
  let (digits, wholeCount) := appendDigits 0 x.whole
  let (digits, fractionCount) := appendDigits digits (x.fraction.getD [])
  let power : Int := ((x.whole.length - wholeCount : Nat) : Int) - fractionCount
  match x.exponent with
  | none => Binary64.ofDigits? x.negative digits power
  | some (negative, exponentDigits) =>
      let exponent := Nat.ofDigitChars 10 exponentDigits 0
      if maxWrittenExponent < exponent then
        if digits != 0 && !negative then none else some ⟨x.negative, 0, 0⟩
      else
        Binary64.ofDigits? x.negative digits
          (if negative then power - exponent else power + exponent)

/-- The value of a number; nothing if it is too large. Minus zero is not a whole number. -/
def Numeral.value? (x : Numeral) : Option Json :=
  let n := Nat.ofDigitChars 10 x.whole 0
  let isWhole := x.fraction.isNone && x.exponent.isNone
  if isWhole && !x.negative && n ≤ Text.maxWord then some (.int n)
  else if isWhole && x.negative && 0 < n && Text.minInt64 ≤ -(n : Int) then some (.int (-n))
  else x.float?.map .float

end TableCalc.Json
