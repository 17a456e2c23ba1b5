import TableCalc.Calendar.Duration
import TableCalc.Decimal.Reader

/-!
The text of a cell as a number. Every operand is read this way: blanks and words count as zero,
date-times as milliseconds from 1970-01-01, durations as milliseconds.
-/

namespace TableCalc.Cell

/-- What the text of a cell is taken for. -/
inductive Kind where
  | blank | timestamp | duration | decimal | word
deriving DecidableEq, Repr

/-- Whether a text has one character of each class, in order. -/
def fits : List (Char → Bool) → List Char → Bool
  | [], [] => true
  | accepts :: classes, c :: cs => accepts c && fits classes cs
  | _, _ => false

/-- The characters from `low` to `high`. -/
def between (low high : Char) (c : Char) : Bool := low ≤ c && c ≤ high

def sixtieths : List (Char → Bool) := [between '0' '5', Char.isDigit]

/-- The classes of `YYYY-MM-DD HH:MM`. They bound each digit on its own, so an impossible month, day
or hour may pass. -/
def timestampClasses : List (Char → Bool) :=
  [between '1' '9', Char.isDigit, Char.isDigit, Char.isDigit, (· == '-'),
    between '0' '1', Char.isDigit, (· == '-'), between '0' '3', Char.isDigit,
    (fun c => c == 'T' || c == ' '), between '0' '2', Char.isDigit, (· == ':')] ++ sixtieths

/-- Whether a text looks like a date-time, seconds or not. -/
def looksLikeTimestamp (cs : List Char) : Bool :=
  fits timestampClasses cs || fits (timestampClasses ++ (· == ':') :: sixtieths) cs

/-- Whether a text looks like a duration: hours of any length, a colon and two digits below
sixty. -/
def looksLikeDuration (cs : List Char) : Bool :=
  let unsigned := (Text.splitSign cs).2
  let hours := unsigned.takeWhile Char.isDigit
  !hours.isEmpty && fits ((· == ':') :: sixtieths) (unsigned.dropWhile Char.isDigit)

/-- What the text of a cell is taken for. The patterns decide, also where reading fails later. -/
def kind (s : String) : Kind :=
  let text := Text.trim s.toList
  if text.isEmpty then .blank
  else if looksLikeTimestamp text then .timestamp
  else if looksLikeDuration text then .duration
  else
    match Decimal.read s with
    | .ok _ => .decimal
    | .error _ => .word

/-- The number that a cell counts as. What cannot be read counts as zero. -/
def number (s : String) : Decimal :=
  match kind s with
  | .blank | .word => 0
  | .timestamp => (Calendar.Timestamp.read s).toOption.elim 0 (.ofInt ·.millis)
  | .duration => (Calendar.readDuration s).toOption.elim 0 .ofInt
  | .decimal => (Decimal.read s).toOption.getD 0

end TableCalc.Cell
